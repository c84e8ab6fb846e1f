import ExtDrv.Rt3370.WpaSteps

/-!
# EAPOL-Key frames

Frames as an authenticator builds them, and when the station hears them. A frame is
given by its fields, with the MIC that goes with a PTK; the hash functions may be any.
-/

namespace ExtDrv.Rt3370.Wpa

open BigEndian Memory Run

/-! ## Building -/

/-- The fields of an EAPOL-Key frame of descriptor type 2; a few bytes of key data. -/
structure KeyFrame where
  addr : Bytes 6
  -- the two bytes of `KEY_INFO`
  info0 : BitVec 8
  info1 : BitVec 8
  counter : Bytes 8
  nonce : Bytes 32
  data : List (BitVec 8)
  short : data.length ≤ 160

/-- No key data is short. -/
theorem short_nil : ([] : List (BitVec 8)).length ≤ 160 := by decide

/-- The element the frame makes, with this MIC. -/
def KeyFrame.elem (f : KeyFrame) (mic : Bytes 16) : MlmeElem where
  Msg := fun i =>
    if h : 10 ≤ i ∧ i < 16 then f.addr ⟨i - 10, by omega⟩
    else if i = 32 then 1
    else if i = 35 then BitVec.ofNat 8 (95 + f.data.length)
    else if i = 36 then 2
    else if i = 37 then f.info0
    else if i = 38 then f.info1
    else if h : 41 ≤ i ∧ i < 49 then f.counter ⟨i - 41, by omega⟩
    else if h : 49 ≤ i ∧ i < 81 then f.nonce ⟨i - 49, by omega⟩
    else if h : 113 ≤ i ∧ i < 129 then mic ⟨i - 113, by omega⟩
    else if i = 130 then BitVec.ofNat 8 f.data.length
    else if 131 ≤ i then f.data.getD (i - 131) 0
    else 0
  MsgLen := BitVec.ofNat 32 (131 + f.data.length)

section Fields

variable (f : KeyFrame) (mic : Bytes 16)

theorem elem_packet (i : Nat) : (f.elem mic).packet i = (f.elem mic).Msg (32 + i) := rfl

theorem elem_addr2 : (f.elem mic).addr2 = f.addr := by
  funext i
  have hi : 10 ≤ 10 + (i : Nat) ∧ 10 + (i : Nat) < 16 := by omega
  show (f.elem mic).Msg (10 + i) = _
  simp only [KeyFrame.elem, dif_pos hi, Nat.add_sub_cancel_left]

theorem elem_msgLen : (f.elem mic).MsgLen.toNat = 131 + f.data.length := by
  have := f.short
  show (BitVec.ofNat 32 (131 + f.data.length)).toNat = _
  rw [BitVec.toNat_ofNat]
  omega

theorem elem_proVer : (f.elem mic).packet 0 = 1 := rfl

theorem elem_descType : (f.elem mic).packet 4 = 2 := rfl

theorem elem_bodyLen : bodyLen (f.elem mic).packet = 95 + f.data.length := by
  have hshort := f.short
  have hhigh : (f.elem mic).packet 2 = 0 := rfl
  have hlow : (f.elem mic).packet 3 = BitVec.ofNat 8 (95 + f.data.length) := rfl
  rw [bodyLen, word16, hhigh, hlow, BitVec.toNat_ofNat]
  show 0 * 256 + (95 + f.data.length) % 256 = _
  omega

theorem elem_keyDataLen : keyDataLen (f.elem mic).packet = f.data.length := by
  have hshort := f.short
  have hhigh : (f.elem mic).packet 97 = 0 := rfl
  have hlow : (f.elem mic).packet 98 = BitVec.ofNat 8 f.data.length := rfl
  rw [keyDataLen, word16, hhigh, hlow, BitVec.toNat_ofNat]
  show 0 * 256 + f.data.length % 256 = _
  omega

theorem elem_info0 : (f.elem mic).packet 5 = f.info0 := rfl

theorem elem_info1 : (f.elem mic).packet 6 = f.info1 := rfl

theorem elem_replayCounter : replayCounter (f.elem mic).packet = f.counter := by
  funext i
  have hi := i.isLt
  show (f.elem mic).Msg (32 + (9 + i)) = _
  have h41 : 41 ≤ 32 + (9 + (i : Nat)) ∧ 32 + (9 + (i : Nat)) < 49 := by omega
  have hsub : 32 + (9 + (i : Nat)) - 41 = i := by omega
  simp only [KeyFrame.elem, dif_pos h41, hsub]
  rw [dif_neg (by omega), if_neg (by omega), if_neg (by omega), if_neg (by omega),
    if_neg (by omega), if_neg (by omega)]

theorem elem_keyNonce : keyNonce (f.elem mic).packet = f.nonce := by
  funext i
  have hi := i.isLt
  show (f.elem mic).Msg (32 + (17 + i)) = _
  have h49 : 49 ≤ 32 + (17 + (i : Nat)) ∧ 32 + (17 + (i : Nat)) < 81 := by omega
  have hsub : 32 + (17 + (i : Nat)) - 49 = i := by omega
  simp only [KeyFrame.elem, dif_pos h49, hsub]
  rw [dif_neg (by omega), if_neg (by omega), if_neg (by omega), if_neg (by omega),
    if_neg (by omega), if_neg (by omega), dif_neg (by omega)]

theorem elem_keyMic : keyMic (f.elem mic).packet = mic := by
  funext i
  have hi := i.isLt
  show (f.elem mic).Msg (32 + (81 + i)) = _
  have h113 : 113 ≤ 32 + (81 + (i : Nat)) ∧ 32 + (81 + (i : Nat)) < 129 := by omega
  have hsub : 32 + (81 + (i : Nat)) - 113 = i := by omega
  simp only [KeyFrame.elem, dif_pos h113, hsub]
  rw [dif_neg (by omega), if_neg (by omega), if_neg (by omega), if_neg (by omega),
    if_neg (by omega), if_neg (by omega), dif_neg (by omega), dif_neg (by omega)]

/-- Outside its field the MIC changes nothing. -/
theorem elem_packet_congr (mic' : Bytes 16) {i : Nat} (hi : i < 81 ∨ 97 ≤ i) :
    (f.elem mic).packet i = (f.elem mic').packet i := by
  have hno : ¬ (113 ≤ 32 + i ∧ 32 + i < 129) := by omega
  rw [elem_packet, elem_packet]
  simp only [KeyFrame.elem, dif_neg hno]

theorem elem_keyInfo (mic' : Bytes 16) :
    keyInfo (f.elem mic).packet = keyInfo (f.elem mic').packet := by
  simp only [keyInfo, elem_info0, elem_info1]

theorem elem_micText (mic' : Bytes 16) :
    micText (f.elem mic).packet = micText (f.elem mic').packet := by
  rw [micText, micText, elem_bodyLen, elem_bodyLen]
  refine segment_congr fun i _ => ?_
  by_cases hin : 81 ≤ 0 + i ∧ 0 + i < 81 + (List.replicate 16 (0 : BitVec 8)).length
  · rw [store, store, if_pos hin, if_pos hin]
  · rw [store, store, if_neg hin, if_neg hin]
    rw [List.length_replicate] at hin
    exact elem_packet_congr f mic mic' (by omega)

/-- The MIC the frame should have under `ptk`. -/
def KeyFrame.rightMic (c : Crypto) (ptk : Bytes 64) : Bytes 16 :=
  desiredMic c ptk (f.elem (.zero 16)).packet

/-- The frame, signed under `ptk`. -/
def KeyFrame.signed (c : Crypto) (ptk : Bytes 64) : MlmeElem := f.elem (f.rightMic c ptk)

theorem desiredMic_elem (c : Crypto) (ptk : Bytes 64) :
    desiredMic c ptk (f.elem mic).packet = f.rightMic c ptk := by
  rw [KeyFrame.rightMic, desiredMic, desiredMic, elem_keyInfo f mic (.zero 16),
    elem_micText f mic (.zero 16)]

theorem signed_mic (c : Crypto) (ptk : Bytes 64) :
    keyMic (f.signed c ptk).packet = desiredMic c ptk (f.signed c ptk).packet := by
  rw [KeyFrame.signed, elem_keyMic, desiredMic_elem]

end Fields

/-! ## Hearing -/

/-- A frame of the entry's peer, with a descriptor version that goes with its cipher. -/
structure Reaches (s : Station) (f : KeyFrame) : Prop where
  handshakes : s.entry.handshakes = true
  addr : s.entry.Addr = f.addr
  version : descVerOk s.entry.WepStatus (keyInfo (f.elem (.zero 16)).packet).KeyDescVer = true

theorem Reaches.dispatch {s : Station} {f : KeyFrame} (h : Reaches s f) (mic : Bytes 16) :
    dispatch s (f.elem mic)
      = handlerOf (keyInfo (f.elem (.zero 16)).packet) f.data.length := by
  have hshort := f.short
  have hlen : bodyLen (f.elem mic).packet + lengthEapolH
      ≤ ((f.elem mic).MsgLen - BitVec.ofNat 32 lengthHeaders).toNat := by
    rw [elem_bodyLen, BitVec.toNat_sub, elem_msgLen]
    show 95 + f.data.length + 4 ≤ (2 ^ 32 - 32 + (131 + f.data.length)) % 2 ^ 32
    omega
  have hall : s.entry.Addr = (f.elem mic).addr2 ∧ s.entry.handshakes = true ∧
      bodyLen (f.elem mic).packet + lengthEapolH
        ≤ ((f.elem mic).MsgLen - BitVec.ofNat 32 lengthHeaders).toNat ∧
      ((f.elem mic).packet 0 = 0x01 ∨ (f.elem mic).packet 0 = 0x02) ∧
      ((f.elem mic).packet 4 = 0xfe ∨ (f.elem mic).packet 4 = 0x02) ∧
      descVerOk s.entry.WepStatus (keyInfo (f.elem mic).packet).KeyDescVer = true := by
    refine ⟨by rw [h.addr, elem_addr2], h.handshakes, hlen, .inl (elem_proVer f mic),
      .inr (elem_descType f mic), ?_⟩
    rw [elem_keyInfo f mic (.zero 16)]
    exact h.version
  unfold Wpa.dispatch
  simp only [if_pos hall]
  rw [elem_keyDataLen, elem_keyInfo f mic (.zero 16)]

/-- A message of the authenticator is fresh if its counter is zero or larger than the stored. -/
theorem replayDiff_eq_false {entry : MacEntry} {p : Mem} {ty : MsgType}
    (hty : ty.fromAuthenticator = true) :
    replayDiff entry p ty = false ↔
      counterNat entry.R_Counter < counterNat (replayCounter p) ∨
        replayCounter p = .zero 8 := by
  have hlen : ∀ c d : Bytes 8, (List.ofFn c).length = (List.ofFn d).length := by simp
  have hone := rtmpCompareMemory_eq_one (hlen (replayCounter p) entry.R_Counter)
  have hzero := rtmpCompareMemory_eq_zero (hlen (replayCounter p) (.zero 8))
  rw [List.ofFn_inj] at hzero
  rw [replayDiff, if_pos hty, Bool.and_eq_false_iff, decide_eq_false_iff_not,
    decide_eq_false_iff_not, not_not, not_not, hone, hzero]
  rfl

/-- A frame without key data is heard once it has passed the checks. -/
theorem heard_of_noData {env : Env} {g : Grants} {s : Station} {e : MlmeElem} {ty : MsgType}
    (heap : Mem) (hd : dispatch s e = some ty) (hc : Checked env g s e.packet ty heap)
    (hlen : keyDataLen e.packet = 0) : Heard env g s e ty s := by
  refine ⟨hd, ?_⟩
  have hmic : ¬ (ty ≠ .pairMsg1 ∧
      keyMic e.packet ≠ desiredMic env.toCrypto s.entry.PTK e.packet) :=
    fun h => h.2 (hc.mic h.1)
  have hdata : keyDataOf env.toCrypto g heap s.entry.PTK e.packet ty s.entry.AuthMode.isWpa2
      = .ok none := by
    rw [keyDataOf, hlen, if_pos rfl]
  simp only [peerWpaMessageSanity, hc.memory, hc.fresh, Bool.false_eq_true, if_false,
    if_neg hmic, hdata]

/-! ## Handlers -/

section Handlers

variable {env : Env} {g : Grants} {s s₁ s' : Station} {e : MlmeElem}

theorem step_message1 (h : Heard env g s e .pairMsg1 s₁)
    (hlen : minLenOfKeyFrame ≤ e.MsgLen.toNat) :
    step env s (.eapolKey e g) = some (answer g .pairMsg2
      (storeMessage1 env g (storeCounter s₁ e.packet .pairMsg1) e.packet)) := by
  simp only [step, wpaEapolKeyAction, h.dispatched, peerPairMsg1Action,
    if_neg (Nat.not_lt.mpr hlen), h.sane, ifSane, Except.toOption]

theorem step_message3 (h : Heard env g s e .pairMsg3 s₁)
    (hlen : minLenOfKeyFrame ≤ e.MsgLen.toNat) (hnonce : s.entry.ANonce = keyNonce e.packet)
    (hmpool : g.mpool = true) :
    step env s (.eapolKey e g) = some (installMessage3
      ((storeCounter s₁ e.packet .pairMsg3).observe (.answered .pairMsg4 (kck s.entry.PTK)))) := by
  have hno : ¬ (s.entry.ANonce ≠ keyNonce e.packet ∨ g.mpool = false) := by
    rintro (hne | hfalse)
    · exact hne hnonce
    · rw [hmpool] at hfalse
      cases hfalse
  simp only [step, wpaEapolKeyAction, h.dispatched, peerPairMsg3Action,
    if_neg (Nat.not_lt.mpr hlen), h.sane, ifSane, h.anonce, h.ptk, if_neg hno, Except.toOption]

/-- Message 3 with another nonce, or without memory for the answer. -/
theorem step_message3Left (h : Heard env g s e .pairMsg3 s₁)
    (hlen : minLenOfKeyFrame ≤ e.MsgLen.toNat)
    (hleft : s.entry.ANonce ≠ keyNonce e.packet ∨ g.mpool = false) :
    step env s (.eapolKey e g) = some (storeCounter s₁ e.packet .pairMsg3) := by
  simp only [step, wpaEapolKeyAction, h.dispatched, peerPairMsg3Action,
    if_neg (Nat.not_lt.mpr hlen), h.sane, ifSane, h.anonce, if_pos hleft, Except.toOption]

theorem step_group1 (h : Heard env g s e .groupMsg1 s₁) (hmpool : g.mpool = true) :
    step env s (.eapolKey e g) = some (staPortSecured
      ((storeCounter s₁ e.packet .groupMsg1).observe
        (.answered .groupMsg2 (kck s.entry.PTK)))) := by
  simp only [step, wpaEapolKeyAction, h.dispatched, peerGroupMsg1Action, h.sane, ifSane, h.ptk,
    hmpool, if_true, Except.toOption]

theorem step_group1Left (h : Heard env g s e .groupMsg1 s₁) (hmpool : g.mpool = false) :
    step env s (.eapolKey e g) = some (storeCounter s₁ e.packet .groupMsg1) := by
  simp only [step, wpaEapolKeyAction, h.dispatched, peerGroupMsg1Action, h.sane, ifSane,
    hmpool, Bool.false_eq_true, if_false, Except.toOption]

/-- What a message 3 with keys to install leaves in the log. -/
theorem Accepts3.log (hacc : Accepts3 env g s e)
    (hcipher : pairwiseCipher s.entry.WepStatus ≠ .none)
    (hstep : step env s (.eapolKey e g) = some s') :
    s'.log = .installed .pairMsg3 s.entry.Addr (temporalKey s.entry.PTK) ::
      .answered .pairMsg4 (kck s.entry.PTK) ::
      .counter .pairMsg3 (replayCounter e.packet) :: s.log := by
  obtain ⟨s₁, hheard⟩ := hacc.heard
  have hentry := hheard.parsed.entry
  have hs' := Option.some.inj
    (hstep.symm.trans (step_message3 hheard hacc.long hacc.nonce hacc.memory))
  rw [hs', ← hheard.parsed.log, ← hentry]
  obtain ⟨hnone, -⟩ | ⟨-, key, hkey, -, -, hlog⟩ := (installMessage3_installs
    ((storeCounter s₁ e.packet .pairMsg3).observe (.answered .pairMsg4 (kck s₁.entry.PTK)))).keys
  · exact absurd (hentry ▸ hnone) hcipher
  · rw [hlog, hkey]
    rfl

theorem Accepts4.log (hacc : Accepts4 env g s e)
    (hcipher : pairwiseCipher s.entry.WepStatus ≠ .none)
    (hstep : step env s (.eapolKey e g) = some s') :
    s'.log = .installed .pairMsg4 s.entry.Addr (temporalKey s.entry.PTK) :: s.log := by
  obtain ⟨s₁, hheard⟩ := hacc.heard
  have hentry := hheard.parsed.entry
  have hlog : (installMessage4 s₁).log
      = .installed .pairMsg4 s.entry.Addr (temporalKey s.entry.PTK) :: s.log := by
    rw [← hheard.parsed.log, ← hentry]
    obtain ⟨hnone, -⟩ | ⟨-, key, hkey, -, -, hlog⟩ := (installMessage4_installs s₁ false).keys
    · exact absurd (hentry ▸ hnone) hcipher
    · rw [← hkey]
      exact hlog
  simp only [step, wpaEapolKeyAction, hheard.dispatched, peerPairMsg4Action,
    if_neg (Nat.not_lt.mpr hacc.long), if_neg (Nat.not_lt.mpr hacc.state), hheard.sane,
    ifSane] at hstep
  split at hstep
  · cases hstep
    exact hlog
  split at hstep
  · cases hstep
  · cases hstep
    exact hlog

end Handlers

/-! ## Frames of a WPA2 handshake -/

/-- A station that is configured for WPA2 with AES. -/
def wpa2Aes (c : Crypto) : Env where
  toCrypto := c
  CurrentAddress := .zero 6
  PMK := .zero 32
  AuthMode := .wpa2Psk
  WepStatus := .encryption3Enabled
  GroupCipher := .encryption3Enabled

/-- All the memory it takes. -/
def enough (snonce : Bytes 32) : Grants := ⟨some fun _ => 0, true, true, true, snonce, .zero 64⟩

def message1Frame (addr : Bytes 6) (counter : Bytes 8) (nonce : Bytes 32) : KeyFrame :=
  ⟨addr, 0x00, 0x8a, counter, nonce, [], short_nil⟩

/-- Message 3, without a group key. -/
def message3Frame (addr : Bytes 6) (counter : Bytes 8) (nonce : Bytes 32) : KeyFrame :=
  ⟨addr, 0x03, 0xca, counter, nonce, [], short_nil⟩

/-- A counter below 256. -/
def smallCounter (n : BitVec 8) : Bytes 8 := fun i => if i = 7 then n else 0

section Wpa2

variable {s : Station} {addr : Bytes 6} {counter : Bytes 8} {nonce : Bytes 32}

/-- The entry takes part in a handshake with `addr`, with AES. -/
structure Joined (s : Station) (addr : Bytes 6) : Prop where
  handshakes : s.entry.handshakes = true
  addr : s.entry.Addr = addr
  aes : s.entry.WepStatus = .encryption3Enabled
  wpa2 : s.entry.AuthMode.isWpa2 = true

theorem Joined.reaches {f : KeyFrame} (h : Joined s f.addr)
    (hver : (keyInfo (f.elem (.zero 16)).packet).KeyDescVer = keyDescAes) : Reaches s f := by
  refine ⟨h.handshakes, h.addr, ?_⟩
  rw [h.aes, hver]
  decide

theorem keyInfo_message1 (mic : Bytes 16) :
    keyInfo ((message1Frame addr counter nonce).elem mic).packet
      = ⟨false, false, false, false, 2, true, 0, true⟩ := by
  simp only [keyInfo, elem_info0, elem_info1, message1Frame]
  decide

theorem keyInfo_message3 (mic : Bytes 16) :
    keyInfo ((message3Frame addr counter nonce).elem mic).packet
      = ⟨true, true, false, false, 2, true, 0, true⟩ := by
  simp only [keyInfo, elem_info0, elem_info1, message3Frame]
  decide

/-- The frame is long enough for a handler. -/
theorem minLen_elem (f : KeyFrame) (mic : Bytes 16) :
    minLenOfKeyFrame ≤ (f.elem mic).MsgLen.toNat := by
  rw [elem_msgLen]
  show 131 ≤ 131 + f.data.length
  omega

theorem message1_heard (hj : Joined s addr) (env : Env) (nonce snonce : Bytes 32)
    (hfresh : counterNat s.entry.R_Counter < counterNat counter ∨ counter = .zero 8) :
    Heard env (enough snonce) s ((message1Frame addr counter nonce).elem (.zero 16)) .pairMsg1
      s := by
  have hreaches : Reaches s (message1Frame addr counter nonce) :=
    hj.reaches (by rw [keyInfo_message1])
  refine heard_of_noData (fun _ => 0) ?_ ⟨rfl, ?_, fun h => absurd rfl h⟩ ?_
  · rw [hreaches.dispatch, keyInfo_message1]
    rfl
  · rw [replayDiff_eq_false rfl, elem_replayCounter]
    exact hfresh
  · rw [elem_keyDataLen]
    rfl

theorem message3_heard (hj : Joined s addr) (env : Env) (nonce snonce : Bytes 32)
    (hfresh : counterNat s.entry.R_Counter < counterNat counter ∨ counter = .zero 8) :
    Heard env (enough snonce) s
      ((message3Frame addr counter nonce).signed env.toCrypto s.entry.PTK) .pairMsg3 s := by
  have hreaches : Reaches s (message3Frame addr counter nonce) :=
    hj.reaches (by rw [keyInfo_message3])
  refine heard_of_noData (fun _ => 0) ?_ ⟨rfl, ?_, fun _ => signed_mic _ _ _⟩ ?_
  · rw [KeyFrame.signed, hreaches.dispatch, keyInfo_message3]
    rfl
  · rw [KeyFrame.signed, replayDiff_eq_false rfl, elem_replayCounter]
    exact hfresh
  · rw [KeyFrame.signed, elem_keyDataLen]
    rfl

end Wpa2

/-! ## A WPA2 handshake -/

section Handshake

variable {s : Station} {addr : Bytes 6} {counter : Bytes 8}

/-- The station once it has heard message 1. -/
def afterMessage1 (env : Env) (s : Station) (counter : Bytes 8) (nonce snonce : Bytes 32) :
    Station :=
  let ptk := wpaDerivePtk env.toCrypto env.PMK nonce s.entry.Addr snonce env.CurrentAddress
  { s with
    entry := { s.entry with
      R_Counter := counter
      ANonce := nonce
      SNonce := snonce
      PTK := ptk
      WpaState := .ptkInitNegotiating }
    log := .answered .pairMsg2 (kck ptk) :: .message1 s.entry.Addr nonce snonce
      :: .counter .pairMsg1 counter :: s.log }

/-- The station once it has heard message 3. -/
def afterMessage3 (s : Station) (counter : Bytes 8) : Station :=
  let key := pairwiseKeyOf .aes s.entry.PTK false
  { s with
    entry := { s.entry with
      R_Counter := counter
      WpaState := .ptkInitDone
      PairwiseKey := key
      portSecured := true }
    PTK := s.entry.PTK
    pairwiseTable := some key
    ivEiv := 1
    SharedKey := Function.update s.SharedKey 0 key
    portSecured := true
    log := .installed .pairMsg3 s.entry.Addr key.Key :: .answered .pairMsg4 (kck s.entry.PTK)
      :: .counter .pairMsg3 counter :: s.log }

theorem handshakes_iff {entry : MacEntry} :
    entry.handshakes = true ↔ entry.client = true ∧ AuthMode.wpa.toNat ≤ entry.AuthMode.toNat ∧
      entry.Sst = .assoc ∧ ApWpaState.initPsk.toNat ≤ entry.WpaState.toNat := by
  simp only [MacEntry.handshakes, Bool.and_eq_true, decide_eq_true_eq, and_assoc]

/-- An entry that gets on in its handshake takes part in it still. -/
theorem Joined.next {s' : Station} (h : Joined s addr)
    (heq : s'.entry = { s.entry with
      R_Counter := s'.entry.R_Counter, ANonce := s'.entry.ANonce, SNonce := s'.entry.SNonce
      PTK := s'.entry.PTK, WpaState := s'.entry.WpaState, PairwiseKey := s'.entry.PairwiseKey
      portSecured := s'.entry.portSecured })
    (hstate : ApWpaState.initPsk.toNat ≤ s'.entry.WpaState.toNat) : Joined s' addr := by
  obtain ⟨hclient, hauth, hsst, -⟩ := handshakes_iff.mp h.handshakes
  refine ⟨handshakes_iff.mpr ⟨?_, ?_, ?_, hstate⟩, ?_, ?_, ?_⟩
  · rw [heq]
    exact hclient
  · rw [heq]
    exact hauth
  · rw [heq]
    exact hsst
  · rw [heq]
    exact h.addr
  · rw [heq]
    exact h.aes
  · rw [heq]
    exact h.wpa2

theorem Joined.afterMessage1 (h : Joined s addr) (env : Env) (counter : Bytes 8)
    (nonce snonce : Bytes 32) : Joined (afterMessage1 env s counter nonce snonce) addr :=
  h.next rfl (by decide : (7 : Nat) ≤ 9)

theorem Joined.afterMessage3 (h : Joined s addr) (counter : Bytes 8) :
    Joined (afterMessage3 s counter) addr :=
  h.next rfl (by decide : (7 : Nat) ≤ 10)

theorem step_message1Frame (hj : Joined s addr) (env : Env) (nonce snonce : Bytes 32)
    (hfresh : counterNat s.entry.R_Counter < counterNat counter ∨ counter = .zero 8) :
    step env s (.eapolKey ((message1Frame addr counter nonce).elem (.zero 16)) (enough snonce))
      = some (afterMessage1 env s counter nonce snonce) := by
  rw [step_message1 (message1_heard hj env nonce snonce hfresh) (minLen_elem _ _)]
  simp only [storeCounter, storeMessage1, message1Ptk, answer, elem_replayCounter, elem_keyNonce,
    enough, if_true]
  rfl

theorem step_message3Frame (hj : Joined s addr) (env : Env) (snonce : Bytes 32)
    (hfresh : counterNat s.entry.R_Counter < counterNat counter ∨ counter = .zero 8) :
    step env s (.eapolKey
        ((message3Frame addr counter s.entry.ANonce).signed env.toCrypto s.entry.PTK)
        (enough snonce))
      = some (afterMessage3 s counter) := by
  have hnonce : s.entry.ANonce = keyNonce
      ((message3Frame addr counter s.entry.ANonce).signed env.toCrypto s.entry.PTK).packet := by
    rw [KeyFrame.signed, elem_keyNonce]
    rfl
  rw [step_message3 (message3_heard hj env s.entry.ANonce snonce hfresh) (minLen_elem _ _) hnonce rfl]
  have halg : pairwiseCipher s.entry.WepStatus = .aes := by rw [hj.aes]; rfl
  have hne : ¬ (CipherAlg.aes = CipherAlg.none) := by decide
  simp only [storeCounter, KeyFrame.signed, elem_replayCounter, Station.observe, installMessage3,
    wpaInstallPairwiseKey, halg, if_neg hne, hj.wpa2, if_true]
  rfl

/-- The station after its first association. -/
def associated (c : Crypto) (sharedKey : Fin 4 → CipherKey) (bssid : Bytes 6) : Station :=
  linkUp (wpa2Aes c) (peerAssocRspAction (wpa2Aes c) (.start sharedKey) bssid true) bssid

theorem associated_joined (c : Crypto) (sharedKey : Fin 4 → CipherKey) (bssid : Bytes 6) :
    Joined (associated c sharedKey bssid) bssid := by
  refine ⟨?_, rfl, ?_, ?_⟩
  · rfl
  · rfl
  · rfl

/-- Hash functions that give nothing but zero. -/
def noCrypto : Crypto := ⟨fun _ _ => .zero 16, fun _ _ => .zero 20, fun _ _ => [], fun _ _ => []⟩

/-- The first message of a handshake. -/
def handshake1 (addr : Bytes 6) : MlmeElem :=
  (message1Frame addr (smallCounter 1) (.zero 32)).elem (.zero 16)

/-- Its third message, from an access point that knows the PMK. -/
def handshake3 (c : Crypto) (addr : Bytes 6) : MlmeElem :=
  (message3Frame addr (smallCounter 2) (.zero 32)).signed c
    (wpaDerivePtk c (.zero 32) (.zero 32) addr (.zero 32) (.zero 6))

/-- An association, and the four-way handshake. -/
def handshake (c : Crypto) : List Event :=
  [.associate (.zero 6) true, .eapolKey (handshake1 (.zero 6)) (enough (.zero 32)),
    .eapolKey (handshake3 c (.zero 6)) (enough (.zero 32))]

/-- The station after message 1 of the handshake. -/
def handshaking (c : Crypto) (sharedKey : Fin 4 → CipherKey) : Station :=
  afterMessage1 (wpa2Aes c) (associated c sharedKey (.zero 6)) (smallCounter 1) (.zero 32) (.zero 32)

theorem handshake_steps (c : Crypto) (sharedKey : Fin 4 → CipherKey) :
    step (wpa2Aes c) (associated c sharedKey (.zero 6))
        (.eapolKey (handshake1 (.zero 6)) (enough (.zero 32)))
      = some (handshaking c sharedKey) ∧
    step (wpa2Aes c) (handshaking c sharedKey)
        (.eapolKey (handshake3 c (.zero 6)) (enough (.zero 32)))
      = some (afterMessage3 (handshaking c sharedKey) (smallCounter 2)) := by
  have hj := associated_joined c sharedKey (.zero 6)
  have hj₁ := hj.afterMessage1 (wpa2Aes c) (smallCounter 1) (.zero 32) (.zero 32)
  constructor
  · exact step_message1Frame hj _ _ _
      (Or.inl (by decide : counterNat (.zero 8) < counterNat (smallCounter 1)))
  · exact step_message3Frame hj₁ _ _
      (Or.inl (by decide : counterNat (smallCounter 1) < counterNat (smallCounter 2)))

theorem handshake_runs (c : Crypto) (sharedKey : Fin 4 → CipherKey) :
    gexec (step (wpa2Aes c)) (.start sharedKey) (handshake c)
      = some (afterMessage3 (handshaking c sharedKey) (smallCounter 2)) := by
  obtain ⟨h₁, h₃⟩ := handshake_steps c sharedKey
  exact gexec_cons.mpr ⟨_, rfl, gexec_cons.mpr ⟨_, h₁, gexec_cons.mpr ⟨_, h₃, rfl⟩⟩⟩

theorem handshake1_dispatch (c : Crypto) (sharedKey : Fin 4 → CipherKey) (addr : Bytes 6) :
    dispatch (associated c sharedKey addr) (handshake1 addr) = some .pairMsg1 := by
  have hj := associated_joined c sharedKey addr
  exact (message1_heard hj (wpa2Aes c) (.zero 32) (.zero 32)
    (Or.inl (by decide : counterNat (.zero 8) < counterNat (smallCounter 1)))).dispatched

end Handshake

end ExtDrv.Rt3370.Wpa
