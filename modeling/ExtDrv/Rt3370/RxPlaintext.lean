import ExtDrv.Lib.Run
import ExtDrv.Rt3370.Provenance
import ExtDrv.Rt3370.RxData

/-!
# Clear frames on an encrypted link

Which data frames without the protected bit the station hands to the network
stack although a method of encryption is configured. The check of
`STARxDataFrameAnnounce` lets them through once the port is secured, it sees only
the header of the first fragment, it takes an A-MSDU that begins like an EAPOL
frame for one, and group-addressed frames do not pass it at all. A run without
these is clean.
-/

namespace ExtDrv.Rt3370

open Run Memory

/-! ## The property -/

/-- The frame is an EAPOL frame, or every frame its data comes from was protected. -/
def Received.Ok (r : Received) : Prop := r.eapol = true ∨ ∀ f ∈ r.sources, f.wep = true

instance Received.decidableOk (r : Received) : Decidable r.Ok :=
  inferInstanceAs (Decidable (_ ∨ _))

/-- The packet named `p` is of a frame that may go up. -/
def Logged (log : List Received) (p : Nat) : Prop := ∃ r, log[p]? = some r ∧ r.Ok

/-- **No plaintext injection**: everything handed to the network stack is of an EAPOL
frame or of protected frames. -/
def NoPlaintext (s : RxStation) : Prop := ∀ i ∈ s.ad.up, Logged s.log i.pPacket

/-- A method of encryption is configured. -/
def RxStation.Encrypts (s : RxStation) : Prop := s.cfg.WepStatus ≠ .encryptionDisabled

/-! ## The frames that get through -/

/-- What is written down of a frame. -/
def RxStation.received (s : RxStation) (f : RxDataFrame) (env : RxEnv) : Received :=
  ⟨s.sourcesOf f, s.eapolOf f env⟩

/-- A group-addressed frame that nothing drops: it is not a fragment, not one the AP
relays for this station, and not too long. The protected bit is not looked at. -/
structure GroupPasses (s : RxStation) (f : RxDataFrame) : Prop where
  group : f.group = true
  whole : f.moreFrag = false
  foreign : (f.frDs && f.addr3 == s.cfg.currentAddress) = false
  short : (s.cfg.skipHeaders f).convertedSize.toNat ≤ maxRxPktLen

/-- The lengths the indication routines accept. -/
def RxStation.Fits (s : RxStation) (f : RxDataFrame) (x : RxFragment) (env : RxEnv) : Prop :=
  if x.looksEapol = false ∧ s.cfg.araLink f = true then
    x.msdu2Size ≤ 1536 ∧ x.msdu2Size < x.dataSize.toNat ∧ env.dupOk = true
  else if s.ad.reorders f then f.amsdu = true ∨ x.dataSize.toNat ≤ maxRxPktLen
  else f.amsdu = true ∨ x.convertedSize.toNat ≤ maxRxPktLen

/-- The check of `STARxDataFrameAnnounce` on a packet: what looks like an EAPOL frame
goes up in an A-MPDU only; other data needs the link, and the protected bit in the
header of the packet or a secured port. -/
def RxStation.PortPasses (s : RxStation) (f : RxDataFrame) (x : RxFragment) : Prop :=
  if x.looksEapol then s.ad.reorders f = true
  else s.cfg.mediaStateConnected = true ∧ (x.wep = true ∨ s.cfg.portSecured = true)

/-- A unicast frame that is, or completes, a packet nothing drops. -/
structure UnicastPasses (s : RxStation) (f : RxDataFrame) (env : RxEnv) : Prop where
  unicast : f.group = false ∧ f.U2M = true
  packet : ∃ x, (s.packetOf f env.fresh).1 = some x ∧
    (s.tkipReassembly f = true → env.micOk = true) ∧
    s.PortPasses f (s.announced f x) ∧ s.Fits f (s.announced f x) env

/-- The frame injects plaintext: it is no EAPOL frame, it or a fragment before it
came without the protected bit, and it is group-addressed or passes the port. -/
def Injects (s : RxStation) : RxEvent → Prop
  | .data f env => ¬ (s.received f env).Ok ∧ s.cfg.admits f = true ∧
      (GroupPasses s f ∨ UnicastPasses s f env)
  | _ => False

/-! ## What the routines hand up -/

variable {S : Nat → Prop} {ad : RtmpAdapter}

theorem Carries.legacy (h : Carries S ad) (f : RxDataFrame) {x : RxFragment} {id : Nat}
    (env : RxEnv) (hid : x.convertedSize.toNat ≤ maxRxPktLen → S id) :
    Carries S (ad.indicateLegacyPacket f x id env) := by
  unfold RtmpAdapter.indicateLegacyPacket
  split
  · exact h
  · rename_i hlen
    exact (h.legacyFlush _ _ env.nowInd).announce (hid (Nat.le_of_not_lt hlen))

theorem Carries.reordered (h : Carries S ad) (f : RxDataFrame) {x : RxFragment} (eap : Bool)
    {id : Nat} (env : RxEnv) (hid : f.amsdu = true ∨ x.dataSize.toNat ≤ maxRxPktLen → S id) :
    Carries S (ad.indicateAmpduPacket (f.rxBlk x eap id) env.now32 env.nowInd) := by
  by_cases hfit : f.amsdu = true ∨ x.dataSize.toNat ≤ maxRxPktLen
  · exact h.ampdu (hid hfit) env.now32 env.nowInd
  · -- the frame is dropped for its length
    have hover : (f.rxBlk x eap id).oversize = true := by
      obtain ⟨hamsdu, hlen⟩ := not_or.mp hfit
      simp only [RxBlk.oversize, RxDataFrame.rxBlk, Bool.and_eq_true, Bool.not_eq_true']
      exact ⟨by simpa using hamsdu, decide_eq_true (Nat.lt_of_not_le hlen)⟩
    rw [RtmpAdapter.indicateAmpduPacket, if_pos hover]
    exact h

theorem Carries.ralink (h : Carries S ad) {x : RxFragment} {id : Nat} (env : RxEnv)
    (hid : x.msdu2Size ≤ 1536 ∧ x.msdu2Size < x.dataSize.toNat ∧ env.dupOk = true → S id) :
    Carries S (ad.cmmRxRalinkFrameIndicate x id env) := by
  unfold RtmpAdapter.cmmRxRalinkFrameIndicate
  split
  · rename_i hsize
    split
    · rename_i hdup
      have hok : S id := hid ⟨hsize.1, hsize.2, hdup⟩
      exact (h.announce hok).announce hok
    · exact h
  · exact h

theorem Carries.nonRalink (h : Carries S ad) {f : RxDataFrame} {x : RxFragment} {id : Nat}
    (env : RxEnv)
    (hid : (if ad.reorders f then f.amsdu = true ∨ x.dataSize.toNat ≤ maxRxPktLen
      else f.amsdu = true ∨ x.convertedSize.toNat ≤ maxRxPktLen) → S id) :
    Carries S (ad.cmmRxnonRalinkFrameIndicate f x id env) := by
  unfold RtmpAdapter.cmmRxnonRalinkFrameIndicate
  split
  · rename_i hre
    rw [if_pos hre] at hid
    exact h.reordered f false env hid
  · rename_i hre
    rw [if_neg hre] at hid
    split
    · rename_i hamsdu
      exact h.announce (hid (Or.inl hamsdu))
    · exact h.legacy f env fun hlen => hid (Or.inr hlen)

/-- The announcement hands up a packet that passes the port and fits. -/
theorem Carries.staAnnounce {s : RxStation} (h : Carries S s.ad) (henc : s.Encrypts)
    {f : RxDataFrame} {x : RxFragment} {id : Nat} (env : RxEnv)
    (hid : s.PortPasses f x → s.Fits f x env → S id) :
    Carries S (s.staRxDataFrameAnnounce f x id env) := by
  unfold RxStation.staRxDataFrameAnnounce
  unfold RxStation.PortPasses RxStation.Fits at hid
  cases hlook : x.looksEapol with
  | true =>
      simp only [hlook, Bool.not_true, Bool.false_eq_true, if_false, if_true, false_and,
        Bool.true_eq_false] at hid ⊢
      split
      · rename_i hre
        simp only [hre, if_true, true_implies] at hid
        exact h.reordered f true env hid
      · exact h
  | false =>
      simp only [hlook, Bool.not_false, if_true, Bool.false_eq_true, if_false, true_and] at hid ⊢
      split
      · exact h
      · rename_i hmedia
        split
        · exact h
        · split
          · exact h
          · rename_i hport
            have hpass : s.cfg.mediaStateConnected = true
                ∧ (x.wep = true ∨ s.cfg.portSecured = true) := by
              have hdis : (s.cfg.WepStatus != WepStatus.encryptionDisabled) = true :=
                bne_iff_ne.mpr henc
              refine ⟨by simpa using hmedia, ?_⟩
              simp only [hdis, Bool.and_true, Bool.and_eq_true, Bool.not_eq_true',
                not_and, Bool.not_eq_false] at hport
              cases hwep : x.wep with
              | true => exact Or.inl rfl
              | false => exact Or.inr (hport hwep)
            cases hara : s.cfg.araLink f with
            | true =>
                simp only [hara, if_true, Bool.not_true, Bool.false_eq_true, if_false] at hid ⊢
                exact h.ralink env (hid hpass)
            | false =>
                simp only [hara, Bool.not_false, if_true, Bool.false_eq_true, if_false] at hid ⊢
                exact h.nonRalink env (hid hpass)

/-- **The handler** hands up the packet of the frame only if it is group-addressed or
passes the port. -/
theorem Carries.handle {s : RxStation} (h : Carries S s.ad) (henc : s.Encrypts)
    {f : RxDataFrame} {id : Nat} (env : RxEnv)
    (hid : s.cfg.admits f = true → GroupPasses s f ∨ UnicastPasses s f env → S id) :
    Carries S (s.staHandleRxDataFrame f id env).1 := by
  unfold RxStation.staHandleRxDataFrame
  cases hadm : s.cfg.admits f with
  | false => exact h
  | true =>
      simp only [hadm, true_implies] at hid
      simp only [Bool.not_true, Bool.false_eq_true, if_false]
      cases hgroup : f.group with
      | true =>
          simp only [if_true]
          cases hmore : f.moreFrag with
          | true => exact h
          | false =>
              simp only [Bool.false_eq_true, if_false]
              split
              · exact h
              · rename_i hown
                exact h.legacy f env fun hlen =>
                  hid (Or.inl ⟨hgroup, hmore, by simpa using hown, hlen⟩)
      | false =>
          simp only [Bool.false_eq_true, if_false]
          cases hu2m : f.U2M with
          | false => exact h
          | true =>
              simp only [if_true]
              cases hp : s.packetOf f env.fresh with
              | mk packet fragFrame =>
                cases packet with
                | none => exact h
                | some x =>
                    dsimp only
                    split
                    · exact h
                    · rename_i hmic
                      refine h.staAnnounce henc env fun hport hfit => ?_
                      refine hid (Or.inr ⟨⟨hgroup, hu2m⟩, x, by rw [hp], fun htkip => ?_, hport, hfit⟩)
                      simpa [htkip] using hmic

/-! ## Runs -/

theorem Logged.append {log : List Received} {p : Nat} (h : Logged log p) (r : Received) :
    Logged (log ++ [r]) p := by
  obtain ⟨r', hget, hok⟩ := h
  have hlt : p < log.length := (List.getElem?_eq_some_iff.mp hget).1
  exact ⟨r', by rw [List.getElem?_append_left hlt, hget], hok⟩

theorem Logged.last {log : List Received} {r : Received} (h : r.Ok) :
    Logged (log ++ [r]) log.length := ⟨r, List.getElem?_concat_length, h⟩

/-- **One step**: what is held back and handed up stays clean, unless the step injects
plaintext. -/
theorem rxStep_clean {s : RxStation} {e : RxEvent} (h : Carries (Logged s.log) s.ad)
    (henc : s.Encrypts) (he : ¬ Injects s e) :
    Carries (Logged (rxStep s e).log) (rxStep s e).ad := by
  cases e with
  | data f env =>
      have hold : Carries (Logged (s.log ++ [s.received f env])) s.ad :=
        h.mono fun p hp => hp.append _
      refine hold.handle henc env fun hadm hpass => Logged.last ?_
      by_contra hbad
      exact he ⟨hbad, hadm, hpass⟩
  | blockAck op notData =>
      exact h.step op fun rx now32 nowInd hop => absurd hop (notData rx now32 nowInd)
  | link cfg => exact h

theorem baReorderingStart_clean (ba : BaCfg) (caps : Fin 32 → StaCaps) (num : Nat) :
    Carries S (baStart ba caps num) := by
  constructor
  · intro i hi
    cases hi
  · intro e mpdu hm
    cases hm

/-- A group-addressed frame that injects plaintext is handed up at once, whatever the
state of the port. -/
theorem group_injects {s : RxStation} {f : RxDataFrame} {env : RxEnv}
    (hadm : s.cfg.admits f = true) (hpass : GroupPasses s f) (hbad : ¬ (s.received f env).Ok) :
    ¬ NoPlaintext (rxStep s (.data f env)) := by
  intro hclean
  have hup : (⟨(s.cfg.skipHeaders f).sequenceFin, s.log.length⟩ : Indicated)
      ∈ (rxStep s (.data f env)).ad.up := by
    simp only [rxStep, RxStation.receive, RxStation.staHandleRxDataFrame, hadm, hpass.group,
      hpass.whole, hpass.foreign, Bool.not_true, Bool.false_eq_true, if_false, if_true,
      RtmpAdapter.indicateLegacyPacket, if_neg (Nat.not_lt.mpr hpass.short)]
    exact List.mem_append_right _ (List.mem_singleton_self _)
  obtain ⟨r, hget, hok⟩ := hclean _ hup
  have hlast : (rxStep s (.data f env)).log[s.log.length]? = some (s.received f env) :=
    List.getElem?_concat_length
  rw [hlast] at hget
  cases hget
  exact hbad hok

/-- **A run in which no frame injects plaintext is clean throughout**, as long as a
method of encryption is configured. -/
theorem noPlaintext_runs (ba : BaCfg) (caps : Fin 32 → StaCaps) (num : Nat) (cfg : RxCfg)
    (buffer : Mem) (es : List RxEvent)
    (henc : Along rxStep (fun s _ => s.Encrypts) (.start ba caps num cfg buffer) es)
    (hclean : Along rxStep (fun s e => ¬ Injects s e) (.start ba caps num cfg buffer) es) :
    Always rxStep NoPlaintext (.start ba caps num cfg buffer) es := by
  have hrun : Always rxStep (fun s => Carries (Logged s.log) s.ad)
      (.start ba caps num cfg buffer) es := by
    refine always_of_along (P := fun s e => s.Encrypts ∧ ¬ Injects s e) ?_ ?_ (henc.and hclean)
    · intro s e hinv hp
      exact rxStep_clean hinv hp.1 hp.2
    · exact baReorderingStart_clean ba caps num
  exact hrun.mono fun s hs => hs.up

/-! ## A broadcast in the clear -/

/-- A data frame from the access point with this frame control and no data. -/
def fromAp (fc1 : BitVec 8) (bcast : Bool) : RxDataFrame :=
  { pHeader := fun n => if n = 0 then 0x08 else if n = 1 then fc1 else 0
    DataSize := 60, MyBss := true, Bcast := bcast, Mcast := false, U2M := !bcast, L2PAD := false,
    BA := false, Decrypted := false, WirelessCliID := 1, TID := 0, PHYMODE := 1 }

/-- A WPA2 station, associated, its port closed. -/
def wpa2Cfg : RxCfg :=
  { infra := true, mlmeBssid := List.replicate 6 0, commonBssid := List.replicate 6 0,
    currentAddress := [2, 0, 0, 0, 0, 1], aggregationInused := false, mediaStateConnected := true,
    WepStatus := .encryption3Enabled, portSecured := false,
    entryWepStatus := fun _ => .encryption3Enabled }

def plainEnv : RxEnv := { fresh := none, micOk := true, dupOk := true, now32 := 0, nowInd := 0 }

/-- The station before anything is received, with an empty block pool. -/
def wpa2Start : RxStation := .start plainCfg (fun _ => htSta) 0 wpa2Cfg fun _ => 0

/-- A protected broadcast, and a unicast frame in the clear that is dropped. -/
theorem noPlaintext_runs_protected :
    Always rxStep NoPlaintext wpa2Start
      [.data (fromAp 0x42 true) plainEnv, .data (fromAp 0x02 false) plainEnv] := by
  refine noPlaintext_runs plainCfg (fun _ => htSta) 0 wpa2Cfg (fun _ => 0)
    [.data (fromAp 0x42 true) plainEnv, .data (fromAp 0x02 false) plainEnv]
    ⟨?_, ?_, trivial⟩ ⟨?_, ?_, trivial⟩
  · exact fun h => WepStatus.noConfusion h
  · exact fun h => WepStatus.noConfusion h
  · exact fun h => h.1 (by decide)
  · rintro ⟨-, -, hgroup | huni⟩
    · exact absurd hgroup.group (by decide)
    · obtain ⟨x, hx, -, hport, -⟩ := huni.packet
      cases hx
      unfold RxStation.PortPasses at hport
      exact absurd hport (by decide)

/-- **The property does not hold**: a broadcast without the protected bit goes up, the
port being closed. -/
theorem noPlaintext_broken : wpa2Start.Encrypts ∧
    ¬ Always rxStep NoPlaintext wpa2Start [.data (fromAp 0x02 true) plainEnv] := by
  refine ⟨fun h => WepStatus.noConfusion h, fun h => ?_⟩
  have hlast : NoPlaintext (rxStep wpa2Start (.data (fromAp 0x02 true) plainEnv)) := h.last
  have hpass : GroupPasses wpa2Start (fromAp 0x02 true) :=
    ⟨by decide, by decide, by decide, by decide⟩
  exact group_injects (by decide) hpass (by decide) hlast

end ExtDrv.Rt3370
