import ExtDrv.Rt3370.Wpa

/-!
# Steps of the handshakes

What a received EAPOL-Key frame can do, once for all that is proved of runs: `Did`
has a constructor for each way a handler ends. What the sanity check itself does is
in `Checked` and `Parsed`.
-/

namespace ExtDrv.Rt3370.Wpa

open Memory

variable {env : Env} {g : Grants} {s s' : Station} {e : MlmeElem} {p : Mem} {ty : MsgType}

/-! ## The sanity check -/

/-- All the parser may change is the group key. -/
structure Parsed (s s' : Station) : Prop where
  eq : s' = { s with SharedKey := s'.SharedKey, GTK := s'.GTK, DefaultKeyId := s'.DefaultKeyId }

theorem Parsed.refl (s : Station) : Parsed s s := ⟨rfl⟩

theorem Parsed.entry (h : Parsed s s') : s'.entry = s.entry := by rw [h.eq]

theorem Parsed.log (h : Parsed s s') : s'.log = s.log := by rw [h.eq]

theorem Parsed.bssid (h : Parsed s s') : s'.Bssid = s.Bssid := by rw [h.eq]

theorem Parsed.ptk (h : Parsed s s') : s'.PTK = s.PTK := by rw [h.eq]

theorem Parsed.pairwiseTable (h : Parsed s s') : s'.pairwiseTable = s.pairwiseTable := by rw [h.eq]

theorem Parsed.ivEiv (h : Parsed s s') : s'.ivEiv = s.ivEiv := by rw [h.eq]

/-- The checks in front of the key data. -/
structure Checked (env : Env) (g : Grants) (s : Station) (p : Mem) (ty : MsgType) (heap : Mem) :
    Prop where
  memory : g.keyData = some heap
  fresh : replayDiff s.entry p ty = false
  mic : ty ≠ .pairMsg1 → keyMic p = desiredMic env.toCrypto s.entry.PTK p

theorem installGtk_cases {gtk : FoundGtk} {b : Bool} (h : installGtk env s gtk = (b, s')) :
    (b = false ∧ s' = s) ∨ (b = true ∧ Parsed s s') := by
  unfold installGtk at h
  split at h
  · cases h
    exact Or.inl ⟨rfl, rfl⟩
  · cases h
    exact Or.inr ⟨rfl, ⟨rfl⟩⟩

/-- Key data that is rejected changes nothing. -/
theorem parse_cases {keyData : Mem} {len idx : Nat} {bWPA2 b : Bool}
    (h : rtmpParseEapolKeyData env s keyData len idx ty bWPA2 = .ok (b, s')) :
    (b = false ∧ s' = s) ∨ (b = true ∧ Parsed s s') := by
  unfold rtmpParseEapolKeyData at h
  split at h
  · cases h
    exact Or.inr ⟨rfl, .refl s⟩
  split at h
  · split at h
    · cases h
      exact Or.inl ⟨rfl, rfl⟩
    · cases h
    · exact installGtk_cases (Except.ok.inj h)
  split at h
  · split at h
    · cases h
    · exact installGtk_cases (Except.ok.inj h)
  · exact installGtk_cases (Except.ok.inj h)

/-- **The sanity check**: a frame that is rejected changes nothing, and one that is accepted
has passed all checks. -/
theorem sanity_cases {b : Bool} (h : peerWpaMessageSanity env g s p ty = .ok (b, s')) :
    (b = false ∧ s' = s) ∨ (b = true ∧ Parsed s s' ∧ ∃ heap, Checked env g s p ty heap) := by
  unfold peerWpaMessageSanity at h
  split at h
  · cases h
    exact Or.inl ⟨rfl, rfl⟩
  rename_i heap hheap
  by_cases hreplay : replayDiff s.entry p ty = true
  · simp only [hreplay, if_true] at h
    cases h
    exact Or.inl ⟨rfl, rfl⟩
  by_cases hmic : ty ≠ .pairMsg1 ∧ keyMic p ≠ desiredMic env.toCrypto s.entry.PTK p
  · simp only [if_neg hreplay, if_pos hmic] at h
    cases h
    exact Or.inl ⟨rfl, rfl⟩
  have hchecked : Checked env g s p ty heap :=
    ⟨hheap, Bool.not_eq_true _ ▸ hreplay, fun hne => not_not.mp fun hno => hmic ⟨hne, hno⟩⟩
  simp only [if_neg hreplay, if_neg hmic] at h
  split at h
  · cases h
  · cases h
    exact Or.inr ⟨rfl, .refl s, heap, hchecked⟩
  · rcases parse_cases h with hno | ⟨hb, hparsed⟩
    · exact Or.inl hno
    · exact Or.inr ⟨hb, hparsed, heap, hchecked⟩

theorem sanity_false (h : peerWpaMessageSanity env g s p ty = .ok (false, s')) : s' = s := by
  rcases sanity_cases h with ⟨-, heq⟩ | ⟨hb, -⟩
  · exact heq
  · cases hb

/-! ## Frames -/

/-- The frame goes to the handler of `ty`, and passes the sanity check with `s'`. -/
structure Heard (env : Env) (g : Grants) (s : Station) (e : MlmeElem) (ty : MsgType)
    (s' : Station) : Prop where
  dispatched : dispatch s e = some ty
  sane : peerWpaMessageSanity env g s e.packet ty = .ok (true, s')

/-- What the dispatcher has checked of a frame it passes on. -/
theorem dispatch_some {s : Station} {e : MlmeElem} {ty : MsgType} (h : dispatch s e = some ty) :
    s.entry.handshakes = true ∧
      descVerOk s.entry.WepStatus (keyInfo e.packet).KeyDescVer = true := by
  unfold dispatch at h
  dsimp only at h
  split at h
  · rename_i hall
    exact ⟨hall.2.1, hall.2.2.2.2.2⟩
  · cases h

theorem Heard.handshakes (h : Heard env g s e ty s') : s.entry.handshakes = true :=
  (dispatch_some h.dispatched).1

theorem Heard.parsed (h : Heard env g s e ty s') : Parsed s s' := by
  rcases sanity_cases h.sane with ⟨hb, -⟩ | ⟨-, hparsed, -⟩
  · cases hb
  · exact hparsed

/-- The handlers meet the nonce and the PTK there were, once the counter is stored. -/
theorem Heard.anonce (h : Heard env g s e ty s') (p : Mem) (ty' : MsgType) :
    (storeCounter s' p ty').entry.ANonce = s.entry.ANonce := by
  show s'.entry.ANonce = _
  rw [h.parsed.entry]

theorem Heard.ptk (h : Heard env g s e ty s') (p : Mem) (ty' : MsgType) :
    (storeCounter s' p ty').entry.PTK = s.entry.PTK := by
  show s'.entry.PTK = _
  rw [h.parsed.entry]

theorem Heard.checked (h : Heard env g s e ty s') : ∃ heap, Checked env g s e.packet ty heap := by
  rcases sanity_cases h.sane with ⟨hb, -⟩ | ⟨-, -, hchecked⟩
  · cases hb
  · exact hchecked

/-- Message 1 is accepted. -/
structure Accepts1 (env : Env) (g : Grants) (s : Station) (e : MlmeElem) : Prop where
  heard : ∃ s₁, Heard env g s e .pairMsg1 s₁
  long : minLenOfKeyFrame ≤ e.MsgLen.toNat

/-- Message 3 is accepted, and its keys are installed. -/
structure Accepts3 (env : Env) (g : Grants) (s : Station) (e : MlmeElem) : Prop where
  heard : ∃ s₁, Heard env g s e .pairMsg3 s₁
  long : minLenOfKeyFrame ≤ e.MsgLen.toNat
  nonce : s.entry.ANonce = keyNonce e.packet
  memory : g.mpool = true

/-- Message 4 is accepted, as an authenticator would. -/
structure Accepts4 (env : Env) (g : Grants) (s : Station) (e : MlmeElem) : Prop where
  heard : ∃ s₁, Heard env g s e .pairMsg4 s₁
  long : minLenOfKeyFrame ≤ e.MsgLen.toNat
  state : ApWpaState.ptkInitNegotiating.toNat ≤ s.entry.WpaState.toNat

/-- **What a received frame does**: nothing, or what the handler of its message does once the
frame has passed the sanity check. -/
inductive Did (env : Env) (g : Grants) (s : Station) (e : MlmeElem) : Station → Prop
  | nothing : Did env g s e s
  | message1 {s₁ : Station} : Heard env g s e .pairMsg1 s₁ → Accepts1 env g s e →
      Did env g s e (answer g .pairMsg2
        (storeMessage1 env g (storeCounter s₁ e.packet .pairMsg1) e.packet))
  | message3Left {s₁ : Station} : Heard env g s e .pairMsg3 s₁ →
      minLenOfKeyFrame ≤ e.MsgLen.toNat →
      (s.entry.ANonce ≠ keyNonce e.packet ∨ g.mpool = false) →
      Did env g s e (storeCounter s₁ e.packet .pairMsg3)
  | message3 {s₁ : Station} : Heard env g s e .pairMsg3 s₁ → Accepts3 env g s e →
      Did env g s e (installMessage3
        ((storeCounter s₁ e.packet .pairMsg3).observe (.answered .pairMsg4 (kck s.entry.PTK))))
  | message4 {s₁ : Station} (gtkEstablished : Bool) : Heard env g s e .pairMsg4 s₁ →
      Accepts4 env g s e →
      Did env g s e { installMessage4 s₁ with
        entry := { (installMessage4 s₁).entry with gtkEstablished := gtkEstablished } }
  | group1 {s₁ : Station} : Heard env g s e .groupMsg1 s₁ → g.mpool = true →
      Did env g s e (staPortSecured
        ((storeCounter s₁ e.packet .groupMsg1).observe (.answered .groupMsg2 (kck s.entry.PTK))))
  | group1Left {s₁ : Station} : Heard env g s e .groupMsg1 s₁ → g.mpool = false →
      Did env g s e (storeCounter s₁ e.packet .groupMsg1)
  | group2 {s₁ : Station} : Heard env g s e .groupMsg2 s₁ →
      Did env g s e { s₁ with entry := { s₁.entry with gtkEstablished := true } }

/-- What installing the pairwise key does to the station, by a message `ty`. -/
structure Installs (s s' : Station) (ty : MsgType) : Prop where
  entry : ∃ key secured established, s'.entry = { s.entry with
    WpaState := .ptkInitDone
    PairwiseKey := key
    portSecured := secured
    gtkEstablished := established }
  bssid : s'.Bssid = s.Bssid
  keys :
    (pairwiseCipher s.entry.WepStatus = .none ∧ s'.pairwiseTable = s.pairwiseTable ∧
      s'.ivEiv = s.ivEiv ∧ s'.log = s.log) ∨
    (pairwiseCipher s.entry.WepStatus ≠ .none ∧
      ∃ key : CipherKey, key.Key = temporalKey s.entry.PTK ∧ s'.pairwiseTable = some key ∧
        s'.ivEiv = 1 ∧ s'.log = .installed ty s.entry.Addr key.Key :: s.log)

/-- `WPAInstallPairwiseKey`, with or without a cipher. -/
theorem wpaInstallPairwiseKey_cases (s : Station) (ty : MsgType) (bAE : Bool) :
    (pairwiseCipher s.entry.WepStatus = .none ∧ wpaInstallPairwiseKey s ty bAE
      = { s with entry := { s.entry with PairwiseKey := .zero } }) ∨
    (pairwiseCipher s.entry.WepStatus ≠ .none ∧
      ∃ key : CipherKey, key.Key = temporalKey s.entry.PTK ∧ wpaInstallPairwiseKey s ty bAE
        = { s with
            entry := { s.entry with PairwiseKey := key }
            pairwiseTable := some key
            ivEiv := 1
            log := .installed ty s.entry.Addr key.Key :: s.log }) := by
  by_cases h : pairwiseCipher s.entry.WepStatus = .none
  · refine Or.inl ⟨h, ?_⟩
    simp only [wpaInstallPairwiseKey, if_pos h]
  · refine Or.inr ⟨h, pairwiseKeyOf (pairwiseCipher s.entry.WepStatus) s.entry.PTK bAE, rfl, ?_⟩
    simp only [wpaInstallPairwiseKey, if_neg h]

theorem installMessage3_installs (s : Station) : Installs s (installMessage3 s) .pairMsg3 := by
  have hcases := wpaInstallPairwiseKey_cases
    { s with entry := { s.entry with WpaState := .ptkInitDone }, PTK := s.entry.PTK }
    .pairMsg3 false
  unfold installMessage3
  dsimp only
  rcases hcases with ⟨hnone, heq⟩ | ⟨hsome, key, hkey, heq⟩
  · rw [heq]
    split
    · exact ⟨⟨_, _, _, rfl⟩, rfl, Or.inl ⟨hnone, rfl, rfl, rfl⟩⟩
    · exact ⟨⟨_, _, _, rfl⟩, rfl, Or.inl ⟨hnone, rfl, rfl, rfl⟩⟩
  · rw [heq]
    split
    · exact ⟨⟨_, _, _, rfl⟩, rfl, Or.inr ⟨hsome, key, hkey, rfl, rfl, rfl⟩⟩
    · exact ⟨⟨_, _, _, rfl⟩, rfl, Or.inr ⟨hsome, key, hkey, rfl, rfl, rfl⟩⟩

theorem installMessage4_installs (s : Station) (established : Bool) :
    Installs s { installMessage4 s with
      entry := { (installMessage4 s).entry with gtkEstablished := established } } .pairMsg4 := by
  unfold installMessage4
  rcases wpaInstallPairwiseKey_cases s .pairMsg4 true with ⟨hnone, heq⟩ | ⟨hsome, key, hkey, heq⟩
  · rw [heq]
    exact ⟨⟨_, _, _, rfl⟩, rfl, Or.inl ⟨hnone, rfl, rfl, rfl⟩⟩
  · rw [heq]
    exact ⟨⟨_, _, _, rfl⟩, rfl, Or.inr ⟨hsome, key, hkey, rfl, rfl, rfl⟩⟩

@[simp] theorem answer_entry (g : Grants) (ty : MsgType) (s : Station) :
    (answer g ty s).entry = s.entry := by
  unfold answer
  split <;> rfl

theorem answer_cases (g : Grants) (ty : MsgType) (s : Station) :
    answer g ty s = s ∨ answer g ty s = s.observe (.answered ty (kck s.entry.PTK)) := by
  unfold answer
  split
  · exact Or.inr rfl
  · exact Or.inl rfl

/-- A handler that calls the sanity check returns what it found, or goes on. -/
theorem ifSane_cases {k : Station → Except Fault Station}
    (h : ifSane (peerWpaMessageSanity env g s p ty) k = .ok s') :
    s' = s ∨ ∃ s₁, peerWpaMessageSanity env g s p ty = .ok (true, s₁) ∧ k s₁ = .ok s' := by
  unfold ifSane at h
  split at h
  · cases h
  · rename_i s₁ hsane
    cases h
    exact Or.inl (sanity_false hsane)
  · rename_i s₁ hsane
    exact Or.inr ⟨s₁, hsane, h⟩

theorem message1_did (hd : dispatch s e = some .pairMsg1)
    (h : peerPairMsg1Action env g s e = .ok s') : Did env g s e s' := by
  unfold peerPairMsg1Action at h
  split at h
  · cases h
    exact .nothing
  rename_i hlong
  rcases ifSane_cases h with rfl | ⟨s₁, hsane, hk⟩
  · exact .nothing
  · cases hk
    exact .message1 ⟨hd, hsane⟩ ⟨⟨s₁, hd, hsane⟩, Nat.not_lt.mp hlong⟩

theorem message2_did (h : peerPairMsg2Action s e = .ok s') : Did env g s e s' := by
  unfold peerPairMsg2Action at h
  split at h
  · cases h
    exact .nothing
  split at h
  · cases h
    exact .nothing
  · cases h

theorem message3_did (hd : dispatch s e = some .pairMsg3)
    (h : peerPairMsg3Action env g s e = .ok s') : Did env g s e s' := by
  unfold peerPairMsg3Action at h
  split at h
  · cases h
    exact .nothing
  rename_i hlong
  rcases ifSane_cases h with rfl | ⟨s₁, hsane, hk⟩
  · exact .nothing
  have hheard : Heard env g s e .pairMsg3 s₁ := ⟨hd, hsane⟩
  simp only [hheard.anonce, hheard.ptk] at hk
  split at hk
  · rename_i hleft
    cases hk
    exact .message3Left hheard (Nat.not_lt.mp hlong) hleft
  · rename_i hgo
    cases hk
    have hanonce : s.entry.ANonce = keyNonce e.packet := not_not.mp fun hne => hgo (Or.inl hne)
    have hmpool : g.mpool = true := by
      cases hm : g.mpool with
      | true => rfl
      | false => exact absurd (Or.inr hm) hgo
    exact .message3 hheard ⟨⟨s₁, hheard⟩, Nat.not_lt.mp hlong, hanonce, hmpool⟩

theorem message4_did (hd : dispatch s e = some .pairMsg4)
    (h : peerPairMsg4Action env g s e = .ok s') : Did env g s e s' := by
  unfold peerPairMsg4Action at h
  split at h
  · cases h
    exact .nothing
  rename_i hlong
  split at h
  · cases h
    exact .nothing
  rename_i hstate
  rcases ifSane_cases h with rfl | ⟨s₁, hsane, hk⟩
  · exact .nothing
  have hheard : Heard env g s e .pairMsg4 s₁ := ⟨hd, hsane⟩
  have hacc : Accepts4 env g s e := ⟨⟨s₁, hheard⟩, Nat.not_lt.mp hlong, Nat.not_lt.mp hstate⟩
  dsimp only at hk
  split at hk
  · cases hk
    exact .message4 true hheard hacc
  split at hk
  · cases hk
  · cases hk
    exact .message4 (installMessage4 s₁).entry.gtkEstablished hheard hacc

theorem group1_did (hd : dispatch s e = some .groupMsg1)
    (h : peerGroupMsg1Action env g s e = .ok s') : Did env g s e s' := by
  unfold peerGroupMsg1Action at h
  rcases ifSane_cases h with rfl | ⟨s₁, hsane, hk⟩
  · exact .nothing
  have hheard : Heard env g s e .groupMsg1 s₁ := ⟨hd, hsane⟩
  simp only [hheard.ptk] at hk
  split at hk
  · rename_i hmpool
    cases hk
    exact .group1 hheard hmpool
  · rename_i hmpool
    cases hk
    exact .group1Left hheard (Bool.not_eq_true _ ▸ hmpool)

theorem group2_did (hd : dispatch s e = some .groupMsg2)
    (h : peerGroupMsg2Action env g s e = .ok s') : Did env g s e s' := by
  unfold peerGroupMsg2Action at h
  split at h
  · cases h
    exact .nothing
  split at h
  · cases h
    exact .nothing
  rcases ifSane_cases h with rfl | ⟨s₁, hsane, hk⟩
  · exact .nothing
  · cases hk
    exact .group2 ⟨hd, hsane⟩

/-- A frame that does not kill the driver does one of these things. -/
theorem eapolKey_did (h : wpaEapolKeyAction env g s e = .ok s') : Did env g s e s' := by
  unfold wpaEapolKeyAction at h
  split at h
  · cases h
    exact .nothing
  · exact message1_did ‹_› h
  · exact message2_did h
  · exact message3_did ‹_› h
  · exact message4_did ‹_› h
  · exact group1_did ‹_› h
  · exact group2_did ‹_› h

/-! ## Association -/

/-- **What association does**: the entry is set up, or is none unless it was somebody else's. -/
theorem associate_cases (env : Env) (s : Station) (bssid : Bytes 6) (capable : Bool) :
    (∃ secured, linkUp env (peerAssocRspAction env s bssid capable) bssid = { s with
      Bssid := bssid
      portSecured := secured
      entry := { s.entry with
        client := true
        Addr := bssid
        Sst := .assoc
        AuthMode := env.AuthMode
        WepStatus := env.WepStatus
        WpaState := if env.AuthMode.toNat < AuthMode.wpa.toNat then .notUse else .ptkStart
        portSecured := secured }
      log := .setUp bssid :: s.log }) ∨
    (∃ secured client, (client = true → s.entry.client = true ∧ s.entry.Addr ≠ s.Bssid) ∧
      linkUp env (peerAssocRspAction env s bssid capable) bssid = { s with
        Bssid := bssid
        portSecured := secured
        entry := { s.entry with client := client, Addr := bssid, portSecured := secured } }) := by
  unfold peerAssocRspAction
  by_cases hfound : s.entry.client = true ∧ s.entry.Addr = s.Bssid
  · simp only [if_pos hfound]
    cases capable with
    | true => exact Or.inl ⟨_, rfl⟩
    | false => exact Or.inr ⟨_, false, fun h => absurd h (by decide), rfl⟩
  · simp only [if_neg hfound]
    cases capable with
    | true => exact Or.inl ⟨_, rfl⟩
    | false => exact Or.inr ⟨_, s.entry.client, fun h => ⟨h, fun ha => hfound ⟨h, ha⟩⟩, rfl⟩

/-- Link-down leaves an empty entry, and the pairwise key or none in the hardware. -/
theorem linkDown_cases (env : Env) (s : Station) (isReqFromAp : Bool) :
    ∃ sharedKey table, (table = s.pairwiseTable ∨ table = none) ∧
      linkDown env s isReqFromAp = { s with
        entry := .zero
        portSecured := false
        SharedKey := sharedKey
        pairwiseTable := table
        log := .linkDown :: s.log } := by
  unfold linkDown rtmpWpaRemoveAllKeys
  cases isReqFromAp with
  | false => exact ⟨_, _, Or.inl rfl, rfl⟩
  | true =>
      dsimp only
      split
      · split
        · exact ⟨_, _, Or.inl rfl, rfl⟩
        · exact ⟨_, _, Or.inr rfl, rfl⟩
      · exact ⟨_, _, Or.inl rfl, rfl⟩

theorem transmit_cases (s : Station) :
    (s.pairwiseTable = none ∧ transmit s = s) ∨
      ∃ key, s.pairwiseTable = some key ∧ transmit s = { s with
        ivEiv := s.ivEiv + 1
        log := .sent key.Key s.ivEiv :: s.log } := by
  unfold transmit
  cases h : s.pairwiseTable with
  | none => exact Or.inl ⟨rfl, rfl⟩
  | some key => exact Or.inr ⟨key, rfl, rfl⟩

/-! ## The log -/

theorem Installs.log (h : Installs s s' ty) : ∃ added, s'.log = added ++ s.log := by
  obtain ⟨-, -, -, hlog⟩ | ⟨-, key, -, -, -, hlog⟩ := h.keys
  · exact ⟨[], hlog⟩
  · exact ⟨[_], hlog⟩

theorem Did.log (h : Did env g s e s') : ∃ added, s'.log = added ++ s.log := by
  cases h with
  | nothing => exact ⟨[], rfl⟩
  | message1 hheard _ =>
      rename_i s₁ _
      rw [← hheard.parsed.log]
      rcases answer_cases g .pairMsg2
        (storeMessage1 env g (storeCounter s₁ e.packet .pairMsg1) e.packet) with heq | heq
      · rw [heq]
        exact ⟨[_, _], rfl⟩
      · rw [heq]
        exact ⟨[_, _, _], rfl⟩
  | message3Left hheard _ _ =>
      rw [← hheard.parsed.log]
      exact ⟨[_], rfl⟩
  | message3 hheard _ =>
      obtain ⟨added, hlog⟩ := (installMessage3_installs _).log
      refine ⟨added ++ [.answered .pairMsg4 (kck s.entry.PTK),
        .counter .pairMsg3 (replayCounter e.packet)], ?_⟩
      rw [hlog, List.append_assoc, ← hheard.parsed.log]
      rfl
  | message4 established hheard _ =>
      obtain ⟨added, hlog⟩ := (installMessage4_installs _ established).log
      rw [← hheard.parsed.log]
      exact ⟨added, hlog⟩
  | group1 hheard _ =>
      rw [← hheard.parsed.log]
      exact ⟨[_, _], rfl⟩
  | group1Left hheard _ =>
      rw [← hheard.parsed.log]
      exact ⟨[_], rfl⟩
  | group2 hheard =>
      rw [← hheard.parsed.log]
      exact ⟨[], rfl⟩

/-- A frame that is handled without a fault did one of the things above. -/
theorem step_eapolKey (h : step env s (.eapolKey e g) = some s') : Did env g s e s' := by
  simp only [step] at h
  cases hact : wpaEapolKeyAction env g s e with
  | error f =>
      rw [hact] at h
      cases h
  | ok s₁ =>
      rw [hact] at h
      cases h
      exact eapolKey_did hact

/-- What has been written down stays. -/
theorem step_log {a : Event} (h : step env s a = some s') : ∃ added, s'.log = added ++ s.log := by
  cases a with
  | eapolKey e g => exact (step_eapolKey h).log
  | associate bssid capable =>
      cases h
      rcases associate_cases env s bssid capable with ⟨secured, heq⟩ | ⟨secured, client, -, heq⟩
      · rw [heq]
        exact ⟨[_], rfl⟩
      · rw [heq]
        exact ⟨[], rfl⟩
  | linkDown isReqFromAp =>
      cases h
      obtain ⟨sharedKey, table, -, heq⟩ := linkDown_cases env s isReqFromAp
      rw [heq]
      exact ⟨[_], rfl⟩
  | transmit =>
      cases h
      rcases transmit_cases s with ⟨-, heq⟩ | ⟨key, -, heq⟩
      · rw [heq]
        exact ⟨[], rfl⟩
      · rw [heq]
        exact ⟨[_], rfl⟩

end ExtDrv.Rt3370.Wpa
