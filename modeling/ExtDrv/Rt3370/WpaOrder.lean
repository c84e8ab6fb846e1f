import ExtDrv.Rt3370.WpaFrames

/-!
# The order of the four-way handshake

When message 3 makes the station install a pairwise key, message 1 should have come
before it, and the key should be made of that message's nonces. The handler of
message 3 does not look at the handshake's state: before message 1 the entry still
has the PTK, the nonce and the replay counter of an earlier association, or zeros.
-/

namespace ExtDrv.Rt3370.Wpa

open Run

/-! ## Order -/

/-- The peer and the nonces of the latest message 1 since the entry was set up. -/
def latestMessage1 : List Obs → Option (Bytes 6 × Bytes 32 × Bytes 32)
  | [] => none
  | .setUp _ :: _ => none
  | .linkDown :: _ => none
  | .message1 addr anonce snonce :: _ => some (addr, anonce, snonce)
  | .counter .. :: rest => latestMessage1 rest
  | .installed .. :: rest => latestMessage1 rest
  | .answered .. :: rest => latestMessage1 rest
  | .sent .. :: rest => latestMessage1 rest

/-- The PTK made of a message 1 of `addr` and its answer. -/
def ptkOf (env : Env) (addr : Bytes 6) (anonce snonce : Bytes 32) : Bytes 64 :=
  wpaDerivePtk env.toCrypto env.PMK anonce addr snonce env.CurrentAddress

/-- The temporal key `tk`, installed for `addr`, is that of the latest message 1. -/
def FromMessage1 (env : Env) (log : List Obs) (addr : Bytes 6) (tk : Bytes 16) : Prop :=
  ∃ anonce snonce, latestMessage1 log = some (addr, anonce, snonce) ∧
    tk = temporalKey (ptkOf env addr anonce snonce)

/-- **The order of the handshake**: every pairwise key message 3 had installed is that of the
latest message 1 before it. -/
def HandshakeOrder (env : Env) (log : List Obs) : Prop :=
  ∀ newer addr tk older, log = newer ++ .installed .pairMsg3 addr tk :: older →
    FromMessage1 env older addr tk

theorem handshakeOrder_nil (env : Env) : HandshakeOrder env [] := by
  intro newer addr tk older h
  cases newer <;> cases h

theorem handshakeOrder_cons {env : Env} {o : Obs} {log : List Obs} :
    HandshakeOrder env (o :: log) ↔
      (∀ addr tk, o = .installed .pairMsg3 addr tk → FromMessage1 env log addr tk) ∧
        HandshakeOrder env log := by
  constructor
  · intro h
    refine ⟨fun addr tk ho => h [] addr tk log (by rw [ho]; rfl), ?_⟩
    intro newer addr tk older hlog
    exact h (o :: newer) addr tk older (by rw [hlog]; rfl)
  · rintro ⟨hhead, hrest⟩ newer addr tk older hlog
    cases newer with
    | nil =>
        obtain ⟨ho, hl⟩ := List.cons.inj hlog
        rw [← hl]
        exact hhead addr tk ho
    | cons o' newer => exact hrest newer addr tk older (List.cons.inj hlog).2

/-- What is not a message 3 that installs does not matter. -/
theorem handshakeOrder_cons_other {env : Env} {o : Obs} {log : List Obs}
    (ho : ∀ addr tk, o ≠ .installed .pairMsg3 addr tk) :
    HandshakeOrder env (o :: log) ↔ HandshakeOrder env log := by
  rw [handshakeOrder_cons]
  exact and_iff_right fun addr tk h => absurd h (ho addr tk)

/-- What was once out of order stays so. -/
theorem HandshakeOrder.of_append {env : Env} {added log : List Obs}
    (h : HandshakeOrder env (added ++ log)) : HandshakeOrder env log := by
  intro newer addr tk older hlog
  exact h (added ++ newer) addr tk older (by rw [hlog, List.append_assoc])

/-! ## Conditions -/

/-- An accepted message 1 finds the memory `PRF` takes. -/
def PrfMemory (env : Env) (s : Station) (a : Event) : Prop :=
  ∀ e g, a = .eapolKey e g → Accepts1 env g s e → g.prf = true

/-- No message 3 has a key installed before the first message 1. -/
def NoEarlyMessage3 (env : Env) (s : Station) (a : Event) : Prop :=
  ∀ e g, a = .eapolKey e g → Accepts3 env g s e → pairwiseCipher s.entry.WepStatus ≠ .none →
    s.entry.WpaState ≠ .ptkStart

/-! ## The entry -/

/-- What the entry knows of the handshake: before message 1 nothing, after it its nonces and
the PTK made of them. -/
structure OrderInv (env : Env) (s : Station) : Prop where
  addr : s.entry.client = true → s.entry.Addr = s.Bssid
  state : s.entry.WpaState = .notUse ∨ s.entry.WpaState = .ptkStart ∨
    ApWpaState.ptkInitNegotiating.toNat ≤ s.entry.WpaState.toNat
  started : s.entry.client = true → s.entry.WpaState = .ptkStart → latestMessage1 s.log = none
  derived : s.entry.client = true → pairwiseCipher s.entry.WepStatus ≠ .none →
    ApWpaState.ptkInitNegotiating.toNat ≤ s.entry.WpaState.toNat →
    latestMessage1 s.log = some (s.entry.Addr, s.entry.ANonce, s.entry.SNonce) ∧
      s.entry.PTK = ptkOf env s.entry.Addr s.entry.ANonce s.entry.SNonce

/-- An entry that is none knows nothing. -/
theorem OrderInv.of_noClient {env : Env} {s : Station} (hclient : s.entry.client = false)
    (hstate : s.entry.WpaState = .notUse ∨ s.entry.WpaState = .ptkStart ∨
      ApWpaState.ptkInitNegotiating.toNat ≤ s.entry.WpaState.toNat) : OrderInv env s := by
  have hno : s.entry.client ≠ true := by
    rw [hclient]
    decide
  exact ⟨fun h => absurd h hno, hstate, fun h => absurd h hno, fun h => absurd h hno⟩

/-- What leaves the handshake where it is, or ends it, keeps what the entry knows. -/
theorem OrderInv.keep {env : Env} {s s' : Station} (h : OrderInv env s)
    (hentry : s'.entry = { s.entry with
      R_Counter := s'.entry.R_Counter, WpaState := s'.entry.WpaState
      PairwiseKey := s'.entry.PairwiseKey, portSecured := s'.entry.portSecured
      gtkEstablished := s'.entry.gtkEstablished })
    (hstate : s'.entry.WpaState = s.entry.WpaState ∨ s'.entry.WpaState = .ptkInitDone ∧
      (pairwiseCipher s.entry.WepStatus ≠ .none →
        ApWpaState.ptkInitNegotiating.toNat ≤ s.entry.WpaState.toNat))
    (hbssid : s'.Bssid = s.Bssid) (hlog : latestMessage1 s'.log = latestMessage1 s.log) :
    OrderInv env s' := by
  have hclient : s'.entry.client = s.entry.client := by rw [hentry]
  have haddr : s'.entry.Addr = s.entry.Addr := by rw [hentry]
  have hwep : s'.entry.WepStatus = s.entry.WepStatus := by rw [hentry]
  have hanonce : s'.entry.ANonce = s.entry.ANonce := by rw [hentry]
  have hsnonce : s'.entry.SNonce = s.entry.SNonce := by rw [hentry]
  have hptk : s'.entry.PTK = s.entry.PTK := by rw [hentry]
  refine ⟨?_, ?_, ?_, ?_⟩
  · rw [hclient, haddr, hbssid]
    exact h.addr
  · rcases hstate with heq | ⟨heq, -⟩
    · rw [heq]
      exact h.state
    · rw [heq]
      exact Or.inr (Or.inr (by decide))
  · rw [hclient, hlog]
    intro hc hs
    rcases hstate with heq | ⟨heq, -⟩
    · exact h.started hc (heq ▸ hs)
    · rw [heq] at hs
      cases hs
  · rw [hclient, haddr, hwep, hanonce, hsnonce, hptk, hlog]
    intro hc hw hs
    rcases hstate with heq | ⟨-, hle⟩
    · exact h.derived hc hw (heq ▸ hs)
    · exact h.derived hc hw (hle hw)

section Step

variable {env : Env} {g : Grants} {s s' : Station} {e : MlmeElem}

theorem OrderInv.parsed (h : OrderInv env s) (hp : Parsed s s') : OrderInv env s' :=
  h.keep (by rw [hp.entry]) (Or.inl (by rw [hp.entry])) hp.bssid (by rw [hp.log])

theorem OrderInv.installs {ty : MsgType} (h : OrderInv env s) (hi : Installs s s' ty)
    (hstate : pairwiseCipher s.entry.WepStatus ≠ .none →
      ApWpaState.ptkInitNegotiating.toNat ≤ s.entry.WpaState.toNat) : OrderInv env s' := by
  obtain ⟨key, secured, established, hentry⟩ := hi.entry
  refine h.keep (by rw [hentry]) (Or.inr ⟨by rw [hentry], hstate⟩) hi.bssid ?_
  obtain ⟨-, -, -, hlog⟩ | ⟨-, key, -, -, -, hlog⟩ := hi.keys
  · rw [hlog]
  · rw [hlog]
    rfl

/-- An entry that takes part in handshakes and is past their start has got message 1. -/
theorem OrderInv.negotiating (h : OrderInv env s) (hs : s.entry.handshakes = true)
    (hne : s.entry.WpaState ≠ .ptkStart) :
    ApWpaState.ptkInitNegotiating.toNat ≤ s.entry.WpaState.toNat := by
  have hle : ApWpaState.initPsk.toNat ≤ s.entry.WpaState.toNat := (handshakes_iff.mp hs).2.2.2
  rcases h.state with heq | heq | hge
  · rw [heq] at hle
    exact absurd hle (by decide)
  · exact absurd heq hne
  · exact hge

theorem OrderInv.did (h : OrderInv env s) (hdid : Did env g s e s')
    (hmemory : Accepts1 env g s e → g.prf = true)
    (hearly : Accepts3 env g s e → pairwiseCipher s.entry.WepStatus ≠ .none →
      s.entry.WpaState ≠ .ptkStart) : OrderInv env s' := by
  cases hdid with
  | nothing => exact h
  | message1 hheard hacc =>
      rename_i s₁
      have hs₁ : OrderInv env s₁ := h.parsed hheard.parsed
      have hptk : message1Ptk env g (storeCounter s₁ e.packet .pairMsg1) e.packet
          = ptkOf env s₁.entry.Addr (keyNonce e.packet) g.snonce := by
        rw [message1Ptk, if_pos (hmemory hacc)]
        rfl
      have hlog : latestMessage1 (answer g .pairMsg2 (storeMessage1 env g
          (storeCounter s₁ e.packet .pairMsg1) e.packet)).log
          = some (s₁.entry.Addr, keyNonce e.packet, g.snonce) := by
        rcases answer_cases g .pairMsg2 (storeMessage1 env g
          (storeCounter s₁ e.packet .pairMsg1) e.packet) with heq | heq
        · rw [heq]
          rfl
        · rw [heq]
          rfl
      have hbssid : (answer g .pairMsg2 (storeMessage1 env g
          (storeCounter s₁ e.packet .pairMsg1) e.packet)).Bssid = s₁.Bssid := by
        unfold answer
        split <;> rfl
      refine ⟨?_, ?_, ?_, ?_⟩
      · rw [answer_entry, hbssid]
        exact hs₁.addr
      · rw [answer_entry]
        exact Or.inr (Or.inr (by decide : (9 : Nat) ≤ 9))
      · rw [answer_entry]
        intro _ hstart
        cases hstart
      · rw [answer_entry, hlog]
        intro _ _ _
        exact ⟨rfl, hptk⟩
  | message3Left hheard _ _ =>
      rename_i s₁ _ _
      have hs₁ : OrderInv env s₁ := h.parsed hheard.parsed
      exact hs₁.keep rfl (Or.inl rfl) rfl rfl
  | message3 hheard hacc =>
      rename_i s₁
      have hs₁ : OrderInv env s₁ := h.parsed hheard.parsed
      have hs₂ : OrderInv env ((storeCounter s₁ e.packet .pairMsg3).observe
          (.answered .pairMsg4 (kck s.entry.PTK))) := hs₁.keep rfl (Or.inl rfl) rfl rfl
      refine hs₂.installs (installMessage3_installs _) fun hcipher => ?_
      have hcipher' : pairwiseCipher s.entry.WepStatus ≠ .none := by
        rw [← hheard.parsed.entry]
        exact hcipher
      show _ ≤ s₁.entry.WpaState.toNat
      rw [hheard.parsed.entry]
      exact h.negotiating hheard.handshakes (hearly hacc hcipher')
  | message4 established hheard hacc =>
      rename_i s₁
      have hs₁ : OrderInv env s₁ := h.parsed hheard.parsed
      refine hs₁.installs (installMessage4_installs _ established) fun _ => ?_
      rw [hheard.parsed.entry]
      exact hacc.state
  | group1 hheard _ =>
      rename_i s₁ _
      have hs₁ : OrderInv env s₁ := h.parsed hheard.parsed
      exact hs₁.keep rfl (Or.inl rfl) rfl rfl
  | group1Left hheard _ =>
      rename_i s₁ _
      have hs₁ : OrderInv env s₁ := h.parsed hheard.parsed
      exact hs₁.keep rfl (Or.inl rfl) rfl rfl
  | group2 hheard =>
      rename_i s₁
      have hs₁ : OrderInv env s₁ := h.parsed hheard.parsed
      exact hs₁.keep rfl (Or.inl rfl) rfl rfl

theorem OrderInv.step {a : Event} (h : OrderInv env s) (hmemory : PrfMemory env s a)
    (hearly : NoEarlyMessage3 env s a) (hstep : step env s a = some s') : OrderInv env s' := by
  cases a with
  | eapolKey e g => exact h.did (step_eapolKey hstep) (hmemory e g rfl) (hearly e g rfl)
  | associate bssid capable =>
      cases hstep
      rcases associate_cases env s bssid capable with ⟨secured, heq⟩ | ⟨secured, client, hc, heq⟩
      · rw [heq]
        refine ⟨fun _ => rfl, ?_, fun _ _ => rfl, ?_⟩
        · dsimp only
          split
          · exact Or.inl rfl
          · exact Or.inr (Or.inl rfl)
        · dsimp only
          intro _ _ hge
          split at hge
          · exact absurd hge (by decide)
          · exact absurd hge (by decide)
      · rw [heq]
        refine .of_noClient ?_ h.state
        -- an entry that was somebody else's cannot be
        cases client with
        | false => rfl
        | true => exact absurd (h.addr (hc rfl).1) (hc rfl).2
  | linkDown isReqFromAp =>
      cases hstep
      obtain ⟨sharedKey, table, -, heq⟩ := linkDown_cases env s isReqFromAp
      rw [heq]
      exact .of_noClient rfl (Or.inl rfl)
  | transmit =>
      cases hstep
      rcases transmit_cases s with ⟨-, heq⟩ | ⟨key, -, heq⟩
      · rw [heq]
        exact h
      · rw [heq]
        exact h.keep rfl (Or.inl rfl) rfl rfl

/-- A frame that is no message 3 with keys to install keeps the order. -/
theorem HandshakeOrder.did (h : HandshakeOrder env s.log) (hdid : Did env g s e s')
    (hno : ¬ (Accepts3 env g s e ∧ pairwiseCipher s.entry.WepStatus ≠ .none)) :
    HandshakeOrder env s'.log := by
  have hother : ∀ (o : Obs) (log : List Obs), (∀ addr tk, o ≠ .installed .pairMsg3 addr tk) →
      HandshakeOrder env log → HandshakeOrder env (o :: log) :=
    fun _ _ ho => (handshakeOrder_cons_other ho).mpr
  have hcounter : ∀ ty c log, HandshakeOrder env log → HandshakeOrder env (.counter ty c :: log) :=
    fun ty c log => hother (.counter ty c) log fun _ _ h => by cases h
  have hanswered : ∀ ty k log, HandshakeOrder env log →
      HandshakeOrder env (.answered ty k :: log) :=
    fun ty k log => hother (.answered ty k) log fun _ _ h => by cases h
  cases hdid with
  | nothing => exact h
  | message1 hheard _ =>
      rename_i s₁ _
      rw [← hheard.parsed.log] at h
      have hstored := hother (.message1 s₁.entry.Addr (keyNonce e.packet) g.snonce) _
        (fun _ _ h => by cases h) (hcounter .pairMsg1 (replayCounter e.packet) _ h)
      rcases answer_cases g .pairMsg2 (storeMessage1 env g
        (storeCounter s₁ e.packet .pairMsg1) e.packet) with heq | heq
      · rw [heq]
        exact hstored
      · rw [heq]
        exact hanswered _ _ _ hstored
  | message3Left hheard _ _ =>
      rw [← hheard.parsed.log] at h
      exact hcounter _ _ _ h
  | message3 hheard hacc =>
      rename_i s₁
      rw [← hheard.parsed.log] at h
      obtain ⟨-, -, -, hlog⟩ | ⟨hsome, -⟩ := (installMessage3_installs
        ((storeCounter s₁ e.packet .pairMsg3).observe
          (.answered .pairMsg4 (kck s.entry.PTK)))).keys
      · rw [hlog]
        exact hanswered _ _ _ (hcounter _ _ _ h)
      · exact absurd ⟨hacc, hheard.parsed.entry ▸ hsome⟩ hno
  | message4 established hheard _ =>
      rename_i s₁ _
      rw [← hheard.parsed.log] at h
      obtain ⟨-, -, -, hlog⟩ | ⟨-, key, -, -, -, hlog⟩ :=
        (installMessage4_installs s₁ established).keys
      · rw [hlog]
        exact h
      · rw [hlog]
        exact hother (.installed .pairMsg4 s₁.entry.Addr key.Key) _ (fun _ _ h => by cases h) h
  | group1 hheard _ =>
      rw [← hheard.parsed.log] at h
      exact hanswered _ _ _ (hcounter _ _ _ h)
  | group1Left hheard _ =>
      rw [← hheard.parsed.log] at h
      exact hcounter _ _ _ h
  | group2 hheard =>
      rw [← hheard.parsed.log] at h
      exact h

/-- **One frame**: it keeps the order unless it is a message 3 that comes too early. -/
theorem OrderInv.did_iff (h : OrderInv env s) (hstep : Wpa.step env s (.eapolKey e g) = some s')
    (horder : HandshakeOrder env s.log) :
    HandshakeOrder env s'.log ↔ (Accepts3 env g s e →
      pairwiseCipher s.entry.WepStatus ≠ .none → s.entry.WpaState ≠ .ptkStart) := by
  by_cases hinstalls : Accepts3 env g s e ∧ pairwiseCipher s.entry.WepStatus ≠ .none
  · obtain ⟨hacc, hcipher⟩ := hinstalls
    obtain ⟨s₁, hheard⟩ := hacc.heard
    have hclient := (handshakes_iff.mp hheard.handshakes).1
    rw [hacc.log hcipher hstep, handshakeOrder_cons]
    constructor
    · rintro ⟨hfrom, -⟩ - - hstart
      obtain ⟨anonce, snonce, hlatest, -⟩ := hfrom _ _ rfl
      have hnone : latestMessage1 s.log = none := h.started hclient hstart
      change latestMessage1 s.log = _ at hlatest
      rw [hnone] at hlatest
      cases hlatest
    · intro hne
      have hge := h.negotiating hheard.handshakes (hne hacc hcipher)
      obtain ⟨hlatest, hptk⟩ := h.derived hclient hcipher hge
      refine ⟨fun addr tk heq => ?_, ?_⟩
      · cases heq
        exact ⟨_, _, hlatest, by rw [← hptk]⟩
      · rw [handshakeOrder_cons_other (fun _ _ h => by cases h),
          handshakeOrder_cons_other (fun _ _ h => by cases h)]
        exact horder
  · exact ⟨fun _ hacc hcipher => absurd ⟨hacc, hcipher⟩ hinstalls,
      fun _ => horder.did (step_eapolKey hstep) hinstalls⟩

theorem OrderInv.step_iff {a : Event} (h : OrderInv env s) (hstep : Wpa.step env s a = some s')
    (horder : HandshakeOrder env s.log) :
    HandshakeOrder env s'.log ↔ NoEarlyMessage3 env s a := by
  cases a with
  | eapolKey e g =>
      rw [h.did_iff hstep horder]
      constructor
      · rintro hearly e g heq
        cases heq
        exact hearly
      · exact fun hearly => hearly e g rfl
  | associate bssid capable =>
      refine ⟨fun _ _ _ heq => (by cases heq), fun _ => ?_⟩
      cases hstep
      rcases associate_cases env s bssid capable with ⟨secured, heq⟩ | ⟨secured, client, -, heq⟩
      · rw [heq]
        exact (handshakeOrder_cons_other fun _ _ h => by cases h).mpr horder
      · rw [heq]
        exact horder
  | linkDown isReqFromAp =>
      refine ⟨fun _ _ _ heq => (by cases heq), fun _ => ?_⟩
      cases hstep
      obtain ⟨sharedKey, table, -, heq⟩ := linkDown_cases env s isReqFromAp
      rw [heq]
      exact (handshakeOrder_cons_other fun _ _ h => by cases h).mpr horder
  | transmit =>
      refine ⟨fun _ _ _ heq => (by cases heq), fun _ => ?_⟩
      cases hstep
      rcases transmit_cases s with ⟨-, heq⟩ | ⟨key, -, heq⟩
      · rw [heq]
        exact horder
      · rw [heq]
        exact (handshakeOrder_cons_other fun _ _ h => by cases h).mpr horder

end Step

/-- **The four-way handshake**: in a run whose accepted messages 1 find memory for `PRF`, the
keys message 3 has installed are in order exactly if none comes before message 1. -/
theorem handshakeOrder_iff (env : Env) (sharedKey : Fin 4 → CipherKey) (as : List Event)
    (s : Station) (hmemory : GAlong (step env) (PrfMemory env) (.start sharedKey) as)
    (hrun : gexec (step env) (.start sharedKey) as = some s) :
    HandshakeOrder env s.log ↔ GAlong (step env) (NoEarlyMessage3 env) (.start sharedKey) as := by
  have hstart : OrderInv env (.start sharedKey) := .of_noClient rfl (Or.inl rfl)
  refine gexec_iff_galong (I := fun s => HandshakeOrder env s.log) (J := OrderInv env) ?_ ?_ ?_
    hstart (handshakeOrder_nil env) hmemory hrun
  · intro s a s' hstep hend
    obtain ⟨added, hlog⟩ := step_log hstep
    rw [hlog] at hend
    exact hend.of_append
  · intro s a s' hinv _ hstep horder
    exact hinv.step_iff hstep horder
  · intro s a s' hinv hmem hearly hstep
    exact hinv.step hmem hearly hstep

/-! ## Handshakes -/

theorem handshake_inOrder :
    ∃ s, gexec (step (wpa2Aes noCrypto)) (.start fun _ => .zero) (handshake noCrypto) = some s ∧
      s.log ≠ [] ∧ HandshakeOrder (wpa2Aes noCrypto) s.log := by
  obtain ⟨h₁, h₃⟩ := handshake_steps noCrypto fun _ => .zero
  have hrun := handshake_runs noCrypto fun _ => .zero
  have hnot₁ : ∀ e g, Event.eapolKey e g = .eapolKey (handshake1 (.zero 6)) (enough (.zero 32)) →
      ¬ Accepts3 (wpa2Aes noCrypto) g (associated noCrypto (fun _ => .zero) (.zero 6)) e := by
    rintro e g heq ⟨⟨s₁, hheard⟩, -, -, -⟩
    cases heq
    have hd := hheard.dispatched
    rw [handshake1_dispatch] at hd
    cases hd
  refine ⟨_, hrun, List.cons_ne_nil _ _, (handshakeOrder_iff _ _ _ _ ?_ hrun).mpr ?_⟩
  · refine ⟨fun e g heq => (by cases heq), fun s' hs' => ?_⟩
    cases hs'
    refine ⟨fun e g heq _ => (by cases heq; rfl), fun s' hs' => ?_⟩
    refine ⟨fun e g heq _ => (by cases heq; rfl), fun s' _ => trivial⟩
  · refine ⟨fun e g heq => (by cases heq), fun s' hs' => ?_⟩
    cases hs'
    refine ⟨fun e g heq hacc => absurd hacc (hnot₁ e g heq.symm), fun s' hs' => ?_⟩
    obtain rfl := Option.some.inj (h₁.symm.trans hs')
    exact ⟨fun _ _ _ _ _ => by decide, fun s' _ => trivial⟩

/-- **Message 3 before message 1**: right after association the PTK and the nonce are zero, so
that a message 3 under a zero key has it installed. -/
theorem handshakeOrder_broken :
    ¬ ∃ c : Crypto, ∀ sharedKey as s,
      gexec (step (wpa2Aes c)) (.start sharedKey) as = some s →
        HandshakeOrder (wpa2Aes c) s.log := by
  rintro ⟨c, h⟩
  have hj := associated_joined c (fun _ => .zero) (.zero 6)
  have hstep := step_message3Frame hj (wpa2Aes c) (.zero 32)
    (Or.inl (by decide : counterNat (.zero 8) < counterNat (smallCounter 1)))
  have hrun : gexec (step (wpa2Aes c)) (.start fun _ => .zero) [.associate (.zero 6) true, _]
      = some _ := gexec_cons.mpr ⟨_, rfl, gexec_cons.mpr ⟨_, hstep, gexec_nil _⟩⟩
  have horder := h _ _ _ hrun
  obtain ⟨anonce, snonce, hlatest, -⟩ := horder [] _ _ _ rfl
  cases hlatest

end ExtDrv.Rt3370.Wpa
