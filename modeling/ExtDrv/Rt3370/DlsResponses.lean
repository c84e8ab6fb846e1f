import ExtDrv.Rt3370.DlsAgree

/-!
# Responses and what they answer

`PeerDlsRspAction` looks for a valid entry of the sender, and not for a request that is waiting.
A watch beside the station keeps the requests that wait; a response that answers none of them is
without effect exactly when it repeats what the tables have.
-/

namespace ExtDrv.Rt3370.Dls

open Mac Function

/-! ## Requests that wait -/

/-- A request to `a` is sent. -/
def asks (s : State) (a : Bytes 6) : Event → Bool
  | .handle granted =>
      match s.queue with
      | .req i _ :: _ => granted && decide ((s.DLSEntry i).MacAddr = a)
      | _ => false
  | _ => false

/-- A response to it is processed, the link to `a` is torn down, or its time-out fires. -/
def ends (cfg : Config) (s : State) (a : Bytes 6) : Event → Bool
  | .setDls ui _ => cfg.bDLSCapable && cfg.infraOn &&
      match oidEntry s ui with
      | some (i, .tearDown) | some (i, .updateMac) => decide ((s.DLSEntry i).MacAddr = a)
      | _ => false
  | .peerReq _ _ => false
  | .peerRsp r _ _ => cfg.bDLSCapable && cfg.infraOn && decide (r.SA = a)
  | .peerTearDown sa => cfg.bDLSCapable && cfg.infraOn && decide (sa = a)
  | .handle granted =>
      match s.queue with
      | .tearDown i _ :: _ => granted && decide ((s.DLSEntry i).MacAddr = a)
      | _ => false
  | .timeOut i _ => (s.DLSEntry i).Timer && decide ((s.DLSEntry i).MacAddr = a)
  | .second _ => cfg.bDLSCapable && cfg.infraOn &&
      (List.finRange maxNumOfDlsEntry).any fun i =>
        expires (s.DLSEntry i) && decide ((s.DLSEntry i).MacAddr = a)

/-- The station, and the addresses to which a request waits. -/
structure Watched where
  station : Option State
  outstanding : Bytes 6 → Bool

def watch (cfg : Config) (w : Watched) (e : Event) : Watched where
  station := step cfg w.station e
  outstanding := fun a =>
    match w.station with
    | some s => asks s a e || (w.outstanding a && !ends cfg s a e)
    | none => w.outstanding a

/-! ## What is wanted -/

/-- Nothing of the tables is changed, and no frame is sent. -/
structure Unmoved (s s' : State) : Prop where
  DLSEntry : s'.DLSEntry = s.DLSEntry
  MacTab : s'.MacTab = s.MacTab
  caps : s'.caps = s.caps
  sent : s'.sent = s.sent

/-- A response that answers no request leaves everything as it is. -/
def Answered (cfg : Config) (w : Watched) : Event → Prop
  | .peerRsp r keySent room => ∀ s, w.station = some s → w.outstanding r.SA = false →
      ∃ s', peerDlsRspAction cfg s r keySent room = some s' ∧ Unmoved s s'
  | _ => True

/-- The response has nothing new for the entry: it is finished without a key, its timer is off,
and its link has the rates and the capability that the response tells. -/
structure Idle (cfg : Config) (s : State) (r : PeerRsp) (i : DlsIdx) : Prop where
  success : r.StatusCode = mlmeSuccess
  noKey : cfg.wpa = false
  finished : (s.DLSEntry i).Status = dlsFinish
  noTimer : (s.DLSEntry i).Timer = false
  sequence : (s.DLSEntry i).Sequence = 0
  ht : (s.DLSEntry i).bHTCap = r.caps.ht
  room : s.MacTab.Size < maxLenOfMacTable
  link : ∃ w, dlsEntryTableLookup s.MacTab r.SA = some (some w) ∧ s.caps w = some r.caps

/-- The response answers a request, or has nothing new for a valid entry. -/
def Harmless (cfg : Config) (w : Watched) : Event → Prop
  | .peerRsp r _ _ => ∀ s, w.station = some s → w.outstanding r.SA = false →
      cfg.bDLSCapable && cfg.infraOn → ∀ i, entryOf s r.SA i → Idle cfg s r i
  | _ => True

/-! ## What a response does, at least -/

section

variable {s s' t : State} {i : DlsIdx} {c : PeerCaps}

/-- The frames and the links get more, and the rates are those the response tells. -/
structure Grows (c : PeerCaps) (s s' : State) : Prop where
  MacTab : s'.MacTab = s.MacTab ∨ s.MacTab.Size < s'.MacTab.Size
  caps : ∀ w, s'.caps w = s.caps w ∨ s'.caps w = some c
  sent : s'.sent = s.sent ∨ s.sent.length < s'.sent.length

theorem Grows.refl : Grows c s s := ⟨Or.inl rfl, fun _ => Or.inl rfl, Or.inl rfl⟩

theorem Grows.trans (h : Grows c s s') (h' : Grows c s' t) : Grows c s t where
  MacTab := by
    rcases h'.MacTab with heq | hlt
    · rw [heq]
      exact h.MacTab
    · rcases h.MacTab with heq | hlt'
      · exact Or.inr (heq ▸ hlt)
      · exact Or.inr (hlt'.trans hlt)
  caps := by
    intro w
    rcases h'.caps w with heq | hset
    · rw [heq]
      exact h.caps w
    · exact Or.inr hset
  sent := by
    rcases h'.sent with heq | hlt
    · rw [heq]
      exact h.sent
    · rcases h.sent with heq | hlt'
      · exact Or.inr (heq ▸ hlt)
      · exact Or.inr (hlt'.trans hlt)

/-- What has grown back has not changed. -/
theorem Grows.antisymm (h : Grows c s s') (h' : Grows c s' s) :
    s'.MacTab = s.MacTab ∧ s'.caps = s.caps ∧ s'.sent = s.sent := by
  refine ⟨?_, funext fun w => ?_, ?_⟩
  · rcases h.MacTab with heq | hlt
    · exact heq
    · rcases h'.MacTab with heq | hlt'
      · exact heq.symm
      · omega
  · rcases h.caps w with heq | hset
    · exact heq
    · rcases h'.caps w with heq | hset'
      · exact heq.symm
      · rw [hset, hset']
  · rcases h.sent with heq | hlt
    · exact heq
    · rcases h'.sent with heq | hlt'
      · exact heq.symm
      · omega

theorem Unmoved.grows (h : Unmoved s s') : Grows c s' s :=
  ⟨Or.inl h.MacTab.symm, fun w => Or.inl (congrFun h.caps w).symm, Or.inl h.sent.symm⟩

theorem update_caps (caps : Wcid → Option PeerCaps) (w w' : Wcid) :
    update caps w (some c) w' = caps w' ∨ update caps w (some c) w' = some c := by
  by_cases hw : w' = w
  · subst hw
    exact Or.inr (update_self ..)
  · exact Or.inl (update_of_ne hw ..)

/-- **An insertion** that comes back has found the link, or made one. -/
theorem insertPeer_cases {a : Bytes 6} (h : insertPeer s a i c = some s') :
    s.MacTab.Size < maxLenOfMacTable ∧
      ((∃ w, dlsEntryTableLookup s.MacTab a = some (some w) ∧
          s' = { s with caps := update s.caps w (some c) }) ∨
        (s.MacTab.Size < s'.MacTab.Size ∧ Grows c s s' ∧
          ∀ j, j ≠ i → s'.DLSEntry j = s.DLSEntry j)) := by
  obtain ⟨⟨s₁, found⟩, hinsert, hmap⟩ := Option.bind_eq_some_iff.mp h
  obtain ⟨w, rfl, rfl⟩ := Option.map_eq_some_iff.mp hmap
  by_cases hsize : maxLenOfMacTable ≤ s.MacTab.Size
  · rw [macTableInsertDlsEntry, if_pos hsize] at hinsert
    cases hinsert
  · refine ⟨Nat.lt_of_not_le hsize, ?_⟩
    rw [macTableInsertDlsEntry, if_neg hsize] at hinsert
    obtain ⟨r, hlookup, hrest⟩ := Option.bind_eq_some_iff.mp hinsert
    cases r with
    | some v =>
      cases hrest
      exact Or.inl ⟨w, hlookup, rfl⟩
    | none =>
      dsimp only at hrest
      cases hv : s.MacTab.vacancy true with
      | none =>
        rw [hv] at hrest
        cases hrest
      | some v =>
        rw [hv] at hrest
        obtain ⟨t, ht, heq⟩ := Option.map_eq_some_iff.mp hrest
        cases heq
        have hlarger : s.MacTab.Size < t.Size := by
          simp only [macTableInsertEntry, if_neg hsize, hv] at ht
          obtain ⟨links, -, rfl⟩ := Option.map_eq_some_iff.mp ht
          have hlt : s.MacTab.Size < 32 := Nat.lt_of_not_le hsize
          show s.MacTab.Size < (s.MacTab.Size + 1) % 65536
          omega
        refine Or.inr ⟨hlarger, ⟨Or.inr hlarger, fun w' => ?_, Or.inl rfl⟩, fun j hj => ?_⟩
        · exact update_caps s.caps w w'
        · exact update_of_ne hj ..

theorem giveUp_grows (s : State) (room : Nat) (i : DlsIdx) (reason : Nat) :
    (s.giveUp room i reason).MacTab = s.MacTab ∧ (s.giveUp room i reason).sent = s.sent ∧
      (s.giveUp room i reason).caps = s.caps := by
  rw [State.giveUp, State.enqueue]
  split <;> exact ⟨rfl, rfl, rfl⟩

/-- Without WPA the entry is finished. -/
theorem acceptRsp_finished {cfg : Config} (hwpa : cfg.wpa = false) (s : State) (r : PeerRsp)
    (keySent : Bool) (room : Nat) (i : DlsIdx) :
    acceptRsp cfg s r keySent room i = s.setEntry i { s.DLSEntry i with
      Timer := false, Status := dlsFinish, Sequence := 0, bHTCap := r.caps.ht } := by
  unfold acceptRsp
  rw [hwpa, if_neg Bool.false_ne_true]
  dsimp only
  rw [setEntry_self, State.setEntry, State.setEntry, update_idem]
  rfl

/-- With WPA a key request is sent. -/
theorem acceptRsp_key {cfg : Config} (hwpa : cfg.wpa = true) (s : State) (r : PeerRsp)
    (keySent : Bool) (room : Nat) (i : DlsIdx) :
    (acceptRsp cfg s r keySent room i).MacTab = s.MacTab ∧
      (acceptRsp cfg s r keySent room i).caps = s.caps ∧
      (acceptRsp cfg s r keySent room i).sent = s.sent ++ [.staKeyRequest (s.DLSEntry i).MacAddr] := by
  unfold acceptRsp
  rw [hwpa, if_pos rfl]
  dsimp only
  cases keySent with
  | true => exact ⟨rfl, rfl, rfl⟩
  | false =>
    obtain ⟨htab, hsent, hcaps⟩ :=
      giveUp_grows (s.send (.staKeyRequest (s.DLSEntry i).MacAddr)) room i 45
    exact ⟨htab, hcaps, hsent⟩

theorem acceptRsp_grows (cfg : Config) (s : State) (r : PeerRsp) (keySent : Bool) (room : Nat)
    (i : DlsIdx) : Grows r.caps s (acceptRsp cfg s r keySent room i) := by
  cases hwpa : cfg.wpa with
  | false =>
    rw [acceptRsp_finished hwpa]
    exact ⟨Or.inl rfl, fun _ => Or.inl rfl, Or.inl rfl⟩
  | true =>
    obtain ⟨htab, hcaps, hsent⟩ := acceptRsp_key hwpa s r keySent room i
    refine ⟨Or.inl htab, fun w => Or.inl (congrFun hcaps w), Or.inr ?_⟩
    rw [hsent, List.length_append]
    exact Nat.lt_succ_self _

/-- **A response for an entry**: the tables and the frames grow, and the other entries stay. -/
theorem rspEntry_grows {cfg : Config} {r : PeerRsp} {keySent : DlsIdx → Bool} {room : Nat}
    (h : rspEntry cfg r keySent room s i = some s') :
    Grows r.caps s s' ∧ ∀ j, j ≠ i → s'.DLSEntry j = s.DLSEntry j := by
  rw [rspEntry] at h
  split at h
  · split at h
    · obtain ⟨s₁, hinsert, rfl⟩ := Option.map_eq_some_iff.mp h
      have haccept := acceptRsp_grows cfg s₁ r (keySent i) room i
      have hinserted : Grows r.caps s s₁ ∧ ∀ j, j ≠ i → s₁.DLSEntry j = s.DLSEntry j := by
        obtain ⟨-, ⟨w, -, rfl⟩ | ⟨-, hgrows, hothers⟩⟩ := insertPeer_cases hinsert
        · exact ⟨⟨Or.inl rfl, update_caps s.caps w, Or.inl rfl⟩, fun _ _ => rfl⟩
        · exact ⟨hgrows, hothers⟩
      refine ⟨hinserted.1.trans haccept, fun j hj => ?_⟩
      rw [acceptRsp_others cfg s₁ r (keySent i) room hj, hinserted.2 j hj]
    · cases h
      exact ⟨⟨Or.inl rfl, fun _ => Or.inl rfl, Or.inl rfl⟩, fun j hj => setEntry_of_ne hj⟩
  · cases h
    exact ⟨Grows.refl, fun _ _ => rfl⟩

/-! ## When it does nothing -/

variable {cfg : Config} {r : PeerRsp} {keySent : DlsIdx → Bool} {room : Nat}

/-- An entry for which the response has nothing new is left as it is. -/
theorem Idle.rspEntry (h : Idle cfg s r i) : Dls.rspEntry cfg r keySent room s i = some s := by
  rw [Dls.rspEntry]
  split
  · rw [if_pos h.success]
    obtain ⟨w, hlookup, hcaps⟩ := h.link
    have hsame : update s.caps w (some r.caps) = s.caps := by rw [← hcaps, update_eq_self]
    have hinsert : insertPeer s r.SA i r.caps = some s := by
      rw [insertPeer, macTableInsertDlsEntry, if_neg (Nat.not_le.mpr h.room), hlookup]
      show some { s with caps := update s.caps w (some r.caps) } = some s
      rw [hsame]
    have hentry : { s.DLSEntry i with
        Timer := false, Status := dlsFinish, Sequence := 0, bHTCap := r.caps.ht }
          = s.DLSEntry i := by
      rw [← h.finished, ← h.noTimer, ← h.sequence, ← h.ht]
    rw [hinsert, Option.map_some, acceptRsp_finished h.noKey, hentry, State.setEntry, update_eq_self]
  · rfl

/-- An entry that is left as it is has nothing new in the response. -/
theorem Idle.of_rspEntry (hentry : entryOf s r.SA i = true)
    (h : Dls.rspEntry cfg r keySent room s i = some s') (hun : Unmoved s s') : Idle cfg s r i := by
  rw [Dls.rspEntry, if_pos hentry] at h
  rw [entryOf, Bool.and_eq_true] at hentry
  by_cases hsuccess : r.StatusCode = mlmeSuccess
  · rw [if_pos hsuccess] at h
    obtain ⟨s₁, hinsert, rfl⟩ := Option.map_eq_some_iff.mp h
    obtain ⟨hroom, hcases⟩ := insertPeer_cases hinsert
    have haccept := acceptRsp_grows cfg s₁ r (keySent i) room i
    rcases hcases with ⟨w, hlookup, rfl⟩ | ⟨hlarger, -, -⟩
    · cases hwpa : cfg.wpa with
      | true =>
        have hsent := (acceptRsp_key hwpa { s with caps := update s.caps w (some r.caps) } r
          (keySent i) room i).2.2
        rw [hun.sent] at hsent
        have hlen := congrArg List.length hsent
        rw [List.length_append] at hlen
        exact absurd hlen (Nat.lt_succ_self _).ne
      | false =>
        rw [acceptRsp_finished hwpa] at hun
        have hsame := congrFun hun.DLSEntry i
        rw [setEntry_self] at hsame
        have hcaps : update s.caps w (some r.caps) = s.caps := hun.caps
        refine ⟨hsuccess, hwpa, ?_, ?_, ?_, ?_, hroom, w, hlookup, ?_⟩
        · rw [← hsame]
        · rw [← hsame]
        · rw [← hsame]
        · rw [← hsame]
        · rw [← hcaps, update_self]
    · -- a new link is not taken back
      rcases haccept.MacTab with heq | hlt
      · rw [← heq, hun.MacTab] at hlarger
        exact absurd hlarger (Nat.lt_irrefl _)
      · rw [hun.MacTab] at hlt
        exact absurd (hlarger.trans hlt) (Nat.lt_irrefl _)
  · rw [if_neg hsuccess] at h
    cases h
    have hvalid := congrArg (fun e => e.Valid) (congrFun hun.DLSEntry i)
    dsimp only at hvalid
    rw [setEntry_self, hentry.1] at hvalid
    cases hvalid

theorem Idle.congr (h : Unmoved s s') : Idle cfg s' r i ↔ Idle cfg s r i := by
  obtain ⟨hentry, htab, hcaps, -⟩ := h
  constructor
  · rintro ⟨h₁, h₂, h₃, h₄, h₅, h₆, h₇, h₈⟩
    rw [hentry] at h₃ h₄ h₅ h₆
    rw [htab] at h₇ h₈
    rw [hcaps] at h₈
    exact ⟨h₁, h₂, h₃, h₄, h₅, h₆, h₇, h₈⟩
  · rintro ⟨h₁, h₂, h₃, h₄, h₅, h₆, h₇, h₈⟩
    rw [← hentry] at h₃ h₄ h₅ h₆
    rw [← htab] at h₇ h₈
    rw [← hcaps] at h₈
    exact ⟨h₁, h₂, h₃, h₄, h₅, h₆, h₇, h₈⟩

/-! ## All entries -/

theorem rspEntries_grow {is : List DlsIdx} (h : is.foldlM (rspEntry cfg r keySent room) s = some t) :
    Grows r.caps s t ∧ ∀ j, j ∉ is → t.DLSEntry j = s.DLSEntry j := by
  induction is generalizing s with
  | nil =>
    cases h
    exact ⟨Grows.refl, fun _ _ => rfl⟩
  | cons i is ih =>
    rw [List.foldlM_cons] at h
    obtain ⟨s₁, hfirst, hrest⟩ := Option.bind_eq_some_iff.mp h
    obtain ⟨hgrows, hothers⟩ := rspEntry_grows hfirst
    obtain ⟨hgrows', hothers'⟩ := ih hrest
    refine ⟨hgrows.trans hgrows', fun j hj => ?_⟩
    rw [List.mem_cons, not_or] at hj
    rw [hothers' j hj.2, hothers j hj.1]

/-- What is left as it is in the end was left so by every turn. -/
theorem Idle.of_rspEntries {is : List DlsIdx} (hnodup : is.Nodup)
    (h : is.foldlM (Dls.rspEntry cfg r keySent room) s = some t) (hun : Unmoved s t) :
    ∀ i ∈ is, entryOf s r.SA i = true → Idle cfg s r i := by
  induction is generalizing s with
  | nil => exact fun i hi => (List.not_mem_nil hi).elim
  | cons i is ih =>
    obtain ⟨hi, hnodup⟩ := List.nodup_cons.mp hnodup
    rw [List.foldlM_cons] at h
    obtain ⟨s₁, hfirst, hrest⟩ := Option.bind_eq_some_iff.mp h
    obtain ⟨hgrows, hothers⟩ := rspEntry_grows hfirst
    obtain ⟨hgrows', hothers'⟩ := rspEntries_grow hrest
    have hfirst_un : Unmoved s s₁ := by
      obtain ⟨htab, hcaps, hsent⟩ := hgrows.antisymm (hgrows'.trans hun.grows)
      refine ⟨funext fun j => ?_, htab, hcaps, hsent⟩
      by_cases hj : j = i
      · subst hj
        rw [← hothers' j hi, hun.DLSEntry]
      · exact hothers j hj
    have hrest_un : Unmoved s₁ t := by
      refine ⟨?_, ?_, ?_, ?_⟩
      · rw [hun.DLSEntry, hfirst_un.DLSEntry]
      · rw [hun.MacTab, hfirst_un.MacTab]
      · rw [hun.caps, hfirst_un.caps]
      · rw [hun.sent, hfirst_un.sent]
    intro k hk hentry
    rcases List.mem_cons.mp hk with rfl | hk
    · exact Idle.of_rspEntry hentry hfirst hfirst_un
    · rw [← Idle.congr hfirst_un]
      refine ih hnodup hrest hrest_un k hk ?_
      rw [entryOf, hfirst_un.DLSEntry]
      exact hentry

/-- **One response**: it changes nothing exactly if it has nothing new for the valid entries of
its sender. -/
theorem peerRsp_unmoved_iff : (∃ s', peerDlsRspAction cfg s r keySent room = some s' ∧ Unmoved s s') ↔
    (cfg.bDLSCapable && cfg.infraOn → ∀ i, entryOf s r.SA i → Idle cfg s r i) := by
  rw [peerDlsRspAction]
  by_cases hon : (cfg.bDLSCapable && cfg.infraOn) = true
  · rw [if_pos hon]
    constructor
    · rintro ⟨s', hs', hun⟩ - i
      exact Idle.of_rspEntries (by decide) hs' hun i (mem_rspOrder i)
    · intro hidle
      refine ⟨s, ForLoop.foldlM_idle fun i _ => ?_, rfl, rfl, rfl, rfl⟩
      by_cases hentry : entryOf s r.SA i = true
      · exact (hidle hon i hentry).rspEntry
      · exact rspEntry_other hentry
  · rw [if_neg hon]
    exact iff_of_true ⟨s, rfl, rfl, rfl, rfl, rfl⟩ fun h => (hon h).elim

theorem unmoved_iff_harmless {w : Watched} {e : Event} : Answered cfg w e ↔ Harmless cfg w e := by
  cases e with
  | peerRsp r keySent room =>
    refine forall_congr' fun s => imp_congr_right fun _ => imp_congr_right fun _ => ?_
    exact peerRsp_unmoved_iff
  | _ => exact Iff.rfl

/-! ## Runs -/

/-- **Responses answer requests**: in a run all responses that answer no request leave the tables
alone exactly when each of them meets no valid entry, or only entries it has nothing new for. -/
theorem responses_iff (cfg : Config) (w : Watched) (es : List Event) :
    Run.Along (watch cfg) (Answered cfg) w es ↔ Run.Along (watch cfg) (Harmless cfg) w es :=
  ⟨Run.Along.mono fun _ _ => unmoved_iff_harmless.mp,
    Run.Along.mono fun _ _ => unmoved_iff_harmless.mpr⟩

/-! ## A response without a request -/

def refusing : PeerRsp := ⟨neighbour, 37, ⟨108, 8, none⟩⟩

/-- **An unsolicited response**: the neighbour sets up a link, and answers a request that never
was. Its entry ends. -/
theorem responses_broken : ¬ ∀ (cfg : Config) (s : State) (es : List Event), Start s →
    Run.Along (watch cfg) (Answered cfg) ⟨some s, fun _ => false⟩ es := by
  intro hall
  have halong := hall openNet quiet
    [.peerReq fromNeighbour true, .peerRsp refusing (fun _ => true) 8] start_quiet
  have hidle := unmoved_iff_harmless.mp halong.2.1 _ rfl rfl rfl 3 (by decide)
  cases hidle.success

end

end ExtDrv.Rt3370.Dls
