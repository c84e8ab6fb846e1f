import ExtDrv.Rt3370.WpaFrames

/-!
# Message 1 after the handshake

Message 1 has no MIC. Once the handshake is done, one that comes again should change
nothing for the messages that have one. It does change nothing when it is rejected;
one that is accepted replaces the PTK and the replay counter the others are checked
against.
-/

namespace ExtDrv.Rt3370.Wpa

open Run

/-! ## The property -/

/-- The handshake is done, and its PTK is installed. -/
structure Completed (s : Station) : Prop where
  handshakes : s.entry.handshakes = true
  state : s.entry.WpaState = .ptkInitDone
  ptk : s.entry.PTK = s.PTK

/-- The counters of the messages with a MIC that were stored since the entry was set up. -/
def authCounters : List Obs → List (Bytes 8)
  | [] => []
  | .setUp _ :: _ => []
  | .linkDown :: _ => []
  | .counter ty c :: rest => if ty = .pairMsg1 then authCounters rest else c :: authCounters rest
  | .message1 .. :: rest => authCounters rest
  | .installed .. :: rest => authCounters rest
  | .answered .. :: rest => authCounters rest
  | .sent .. :: rest => authCounters rest

/-- The counter is larger than those of all messages with a MIC. -/
def NewCounter (s : Station) (c : Bytes 8) : Prop :=
  ∀ d ∈ authCounters s.log, counterNat d < counterNat c

/-- A group message 1 with the MIC under this PTK, fresh in `s`. -/
structure Authentic (c : Crypto) (ptk : Bytes 64) (s : Station) (e : MlmeElem) : Prop where
  kind : handlerOf (keyInfo e.packet) (keyDataLen e.packet) = some .groupMsg1
  mic : keyMic e.packet = desiredMic c ptk e.packet
  fresh : NewCounter s (replayCounter e.packet)

def Accepted (env : Env) (g : Grants) (s : Station) (e : MlmeElem) (ty : MsgType) : Prop :=
  ∃ s₁, Heard env g s e ty s₁

/-- A frame of message 1, whoever sends it. -/
def IsMessage1 (e : MlmeElem) : Prop :=
  handlerOf (keyInfo e.packet) (keyDataLen e.packet) = some .pairMsg1

/-- A continuation, with the additional frames of message 1 marked. -/
abbrev Marked := List (Event × Bool)

def Marked.all (ts : Marked) : List Event := ts.map Prod.fst

/-- Without the additional frames. -/
def Marked.core (ts : Marked) : List Event := (ts.filter fun t => !t.2).map Prod.fst

/-- **Harmless**: after both continuations the authentic group messages are accepted alike, and
answered under the same key. -/
def Harmless (env : Env) (s : Station) (ts us : Marked) : Prop :=
  ∀ s₁ s₂, gexec (step env) s ts.all = some s₁ → gexec (step env) s us.all = some s₂ →
    ∀ e g, Authentic env.toCrypto s.PTK s₁ e → Authentic env.toCrypto s.PTK s₂ e →
      (Accepted env g s₁ e .groupMsg1 ↔ Accepted env g s₂ e .groupMsg1) ∧
        (Accepted env g s₁ e .groupMsg1 → kck s₁.entry.PTK = kck s₂.entry.PTK)

/-- The additional frames are of message 1, and none is accepted. -/
def Rejected (env : Env) (s : Station) (t : Event × Bool) : Prop :=
  t.2 = true → ∃ e g, t.1 = .eapolKey e g ∧ IsMessage1 e ∧ ¬ Accepts1 env g s e

/-! ## Rejected frames -/

section Rejected

variable {env : Env} {g : Grants} {s : Station} {e : MlmeElem}

/-- The check of message 1 changes nothing, and does not fault. -/
theorem sanity_message1 (env : Env) (g : Grants) (s : Station) (p : Memory.Mem) :
    ∃ b, peerWpaMessageSanity env g s p .pairMsg1 = .ok (b, s) := by
  unfold peerWpaMessageSanity
  cases g.keyData with
  | none => exact ⟨false, rfl⟩
  | some heap =>
      have hdata : keyDataOf env.toCrypto g heap s.entry.PTK p .pairMsg1 s.entry.AuthMode.isWpa2
          = .ok none := by
        unfold keyDataOf
        dsimp only
        split
        · rfl
        · rfl
      dsimp only
      rw [hdata]
      split
      · exact ⟨false, rfl⟩
      · split
        · exact ⟨false, rfl⟩
        · exact ⟨true, rfl⟩

/-- A message 1 that is not accepted leaves the station as it is. -/
theorem step_rejected (hkind : IsMessage1 e) (hno : ¬ Accepts1 env g s e) :
    step env s (.eapolKey e g) = some s := by
  have hd : dispatch s e = none ∨ dispatch s e = some .pairMsg1 := by
    unfold dispatch
    dsimp only
    split
    · exact Or.inr hkind
    · exact Or.inl rfl
  rcases hd with hnone | hsome
  · simp only [step, wpaEapolKeyAction, hnone, Except.toOption]
  · by_cases hlen : e.MsgLen.toNat < minLenOfKeyFrame
    · simp only [step, wpaEapolKeyAction, hsome, peerPairMsg1Action, if_pos hlen, Except.toOption]
    · obtain ⟨b, hb⟩ := sanity_message1 env g s e.packet
      cases b with
      | true => exact absurd ⟨⟨s, hsome, hb⟩, Nat.not_lt.mp hlen⟩ hno
      | false =>
          simp only [step, wpaEapolKeyAction, hsome, peerPairMsg1Action, if_neg hlen, hb, ifSane,
            Except.toOption]

/-- A continuation whose additional frames are rejected ends as it would without them. -/
theorem gexec_rejected {ts : Marked}
    (h : GAlong (fun s (t : Event × Bool) => step env s t.1) (Rejected env) s ts) :
    gexec (step env) s ts.all = gexec (step env) s ts.core := by
  refine gexec_filter ?_
  induction ts generalizing s with
  | nil => trivial
  | cons t ts ih =>
      refine ⟨fun hmarked => ?_, fun s' hs' => ih (h.2 s' hs')⟩
      obtain ⟨e, g, heq, hkind, hno⟩ := h.1 hmarked
      rw [heq]
      exact step_rejected hkind hno

end Rejected

/-! ## Accepted frames -/

/-- A group message 1 without a group key, of the version the entry's cipher asks for. -/
def groupFrame (s : Station) (counter : Bytes 8) : KeyFrame where
  addr := s.entry.Addr
  info0 := 0x03
  info1 := if s.entry.WepStatus = .encryption2Enabled then 0x81 else 0x82
  counter := counter
  nonce := .zero 32
  data := []
  short := short_nil

theorem keyInfo_groupFrame (s : Station) (counter : Bytes 8) (mic : Bytes 16) :
    keyInfo ((groupFrame s counter).elem mic).packet
      = ⟨true, true, false, false,
          if s.entry.WepStatus = .encryption2Enabled then 1 else 2, false, 0, true⟩ := by
  simp only [keyInfo, elem_info0, elem_info1, groupFrame]
  split
  · decide
  · decide

theorem groupFrame_kind (s : Station) (counter : Bytes 8) (mic : Bytes 16) :
    handlerOf (keyInfo ((groupFrame s counter).elem mic).packet)
      (keyDataLen ((groupFrame s counter).elem mic).packet) = some .groupMsg1 := by
  rw [keyInfo_groupFrame]
  rfl

section Accepted

variable {env : Env} {g : Grants} {s : Station} {e : MlmeElem} {counter : Bytes 8}

theorem groupFrame_accepted (hs : Completed s)
    (hfresh : counterNat s.entry.R_Counter < counterNat counter) :
    Accepted env (enough (.zero 32)) s ((groupFrame s counter).signed env.toCrypto s.PTK)
      .groupMsg1 := by
  have hreaches : Reaches s (groupFrame s counter) := by
    refine ⟨hs.handshakes, rfl, ?_⟩
    rw [keyInfo_groupFrame, descVerOk]
    dsimp only
    split
    · rfl
    · split
      · rfl
      · rfl
  refine ⟨s, heard_of_noData (fun _ => 0) ?_ ⟨rfl, ?_, fun _ => ?_⟩ ?_⟩
  · rw [KeyFrame.signed, hreaches.dispatch, keyInfo_groupFrame]
    rfl
  · rw [KeyFrame.signed, replayDiff_eq_false rfl, elem_replayCounter]
    exact Or.inl hfresh
  · rw [hs.ptk]
    exact signed_mic _ _ _
  · rw [KeyFrame.signed, elem_keyDataLen]
    rfl

theorem groupFrame_authentic (s s₁ : Station) (hlog : authCounters s₁.log = authCounters s.log)
    (hnew : NewCounter s counter) :
    Authentic env.toCrypto s.PTK s₁ ((groupFrame s counter).signed env.toCrypto s.PTK) := by
  refine ⟨groupFrame_kind _ _ _, signed_mic _ _ _, ?_⟩
  unfold NewCounter
  rw [hlog, KeyFrame.signed, elem_replayCounter]
  exact hnew

/-- An accepted message 1 replaces the PTK. -/
theorem Accepts1.step (hacc : Accepts1 env g s e) :
    ∃ s₁, Wpa.step env s (.eapolKey e g) = some s₁ ∧
      s₁.entry.PTK = message1Ptk env g s e.packet ∧ authCounters s₁.log = authCounters s.log := by
  obtain ⟨s₀, hheard⟩ := hacc.heard
  refine ⟨_, step_message1 hheard hacc.long, ?_, ?_⟩
  · rw [answer_entry]
    show message1Ptk env g s₀ e.packet = _
    simp only [message1Ptk, hheard.parsed.entry]
  · rw [← hheard.parsed.log]
    rcases answer_cases g .pairMsg2
      (storeMessage1 env g (storeCounter s₀ e.packet .pairMsg1) e.packet) with heq | heq
    · rw [heq]
      rfl
    · rw [heq]
      rfl

/-- **An accepted message 1 does harm**: the next authentic group message is not accepted, or
answered under another key. -/
theorem Accepts1.harms (hacc : Accepts1 env g s e) (hs : Completed s)
    (hkck : kck (message1Ptk env g s e.packet) ≠ kck s.PTK)
    (hcounter : counterNat s.entry.R_Counter < counterNat counter) (hnew : NewCounter s counter) :
    ¬ Harmless env s [(.eapolKey e g, true)] [] := by
  intro hharmless
  obtain ⟨s₁, hstep, hptk, hlog⟩ := hacc.step
  obtain ⟨hiff, hkey⟩ := hharmless s₁ s (gexec_cons.mpr ⟨s₁, hstep, rfl⟩) rfl
    ((groupFrame s counter).signed env.toCrypto s.PTK) (enough (.zero 32))
    (groupFrame_authentic s s₁ hlog hnew) (groupFrame_authentic s s rfl hnew)
  have hthere := hiff.mpr (groupFrame_accepted hs hcounter)
  have heq := hkey hthere
  rw [hptk, hs.ptk] at heq
  exact hkck heq

end Accepted

/-- **Message 1 after the handshake**: continuations that differ in rejected frames of message 1
only are alike; one accepted frame that makes another key does harm. -/
theorem message1_harmless (env : Env) (s : Station) (hs : Completed s) :
    (∀ ts us : Marked, ts.core = us.core →
      GAlong (fun s (t : Event × Bool) => step env s t.1) (Rejected env) s ts →
      GAlong (fun s (t : Event × Bool) => step env s t.1) (Rejected env) s us →
        Harmless env s ts us) ∧
    (∀ e g counter, Accepts1 env g s e → kck (message1Ptk env g s e.packet) ≠ kck s.PTK →
      counterNat s.entry.R_Counter < counterNat counter → NewCounter s counter →
        ¬ Harmless env s [(.eapolKey e g, true)] []) := by
  constructor
  · intro ts us hcore hts hus s₁ s₂ h₁ h₂
    rw [gexec_rejected hts, hcore, ← gexec_rejected hus, h₂] at h₁
    cases h₁
    exact fun e g _ _ => ⟨Iff.rfl, fun _ => rfl⟩
  · intro e g counter hacc hkck hcounter hnew
    exact hacc.harms hs hkck hcounter hnew

/-! ## A larger counter -/

theorem completed_handshake (c : Crypto) (sharedKey : Fin 4 → CipherKey) :
    Completed (afterMessage3 (handshaking c sharedKey) (smallCounter 2)) := by
  have hj := ((associated_joined c sharedKey (.zero 6)).afterMessage1 (wpa2Aes c)
    (smallCounter 1) (.zero 32) (.zero 32)).afterMessage3 (smallCounter 2)
  exact ⟨hj.handshakes, rfl, rfl⟩

/-- The first message of the handshake once more: its counter is behind that of message 3. -/
theorem message1_harmless_stale :
    IsMessage1 (handshake1 (.zero 6)) ∧ Harmless (wpa2Aes noCrypto)
      (afterMessage3 (handshaking noCrypto fun _ => .zero) (smallCounter 2))
      [(.eapolKey (handshake1 (.zero 6)) (enough (.zero 32)), true)] [] := by
  have hkind : IsMessage1 (handshake1 (.zero 6)) := by
    rw [IsMessage1, handshake1, keyInfo_message1]
    rfl
  have hstale : ¬ Accepts1 (wpa2Aes noCrypto) (enough (.zero 32))
      (afterMessage3 (handshaking noCrypto fun _ => .zero) (smallCounter 2))
      (handshake1 (.zero 6)) := by
    intro hacc
    obtain ⟨_, hheard⟩ := hacc.heard
    obtain ⟨_, hchecked⟩ := hheard.checked
    have hfresh := (replayDiff_eq_false rfl).mp hchecked.fresh
    rw [handshake1, elem_replayCounter] at hfresh
    exact absurd hfresh (by decide)
  exact ⟨hkind, (message1_harmless _ _ (completed_handshake _ _)).1 _ _ rfl
    ⟨fun _ => ⟨_, _, rfl, hkind, hstale⟩, fun _ _ => trivial⟩ trivial⟩

/-- **A message 1 with a larger counter**: whatever the hash functions are, group messages with
the counters in between are no longer accepted. -/
theorem message1_harms :
    ¬ ∃ c : Crypto, ∀ sharedKey as s, gexec (step (wpa2Aes c)) (.start sharedKey) as = some s →
      Completed s → ∀ ts us : Marked, ts.core = us.core →
        (∀ t ∈ ts ++ us, t.2 = true → ∃ e g, t.1 = .eapolKey e g ∧ IsMessage1 e) →
          Harmless (wpa2Aes c) s ts us := by
  rintro ⟨c, h⟩
  have hs := completed_handshake c fun _ => .zero
  have hj : Joined (afterMessage3 (handshaking c fun _ => .zero) (smallCounter 2)) (.zero 6) :=
    ((associated_joined c (fun _ => .zero) (.zero 6)).afterMessage1 (wpa2Aes c)
      (smallCounter 1) (.zero 32) (.zero 32)).afterMessage3 (smallCounter 2)
  have hstep := step_message1Frame hj (wpa2Aes c) (.zero 32) (.zero 32)
    (Or.inl (by decide : counterNat (smallCounter 2) < counterNat (smallCounter 5)))
  have hkind : IsMessage1
      ((message1Frame (.zero 6) (smallCounter 5) (.zero 32)).elem (.zero 16)) := by
    rw [IsMessage1, keyInfo_message1]
    rfl
  have hharmless := h _ _ _ (handshake_runs c fun _ => .zero) hs
    [(.eapolKey ((message1Frame (.zero 6) (smallCounter 5) (.zero 32)).elem (.zero 16))
      (enough (.zero 32)), true)] [] rfl
    (fun t ht _ => by
      obtain rfl := List.mem_singleton.mp ht
      exact ⟨_, _, rfl, hkind⟩)
  have hnew : NewCounter (afterMessage3 (handshaking c fun _ => .zero) (smallCounter 2))
      (smallCounter 3) := by
    intro d hd
    have hone : authCounters (afterMessage3 (handshaking c fun _ => .zero) (smallCounter 2)).log
        = [smallCounter 2] := rfl
    rw [hone] at hd
    obtain rfl := List.mem_singleton.mp hd
    decide
  obtain ⟨hiff, -⟩ := hharmless _ _ (gexec_cons.mpr ⟨_, hstep, rfl⟩) rfl _ (enough (.zero 32))
    (groupFrame_authentic _ _ rfl hnew) (groupFrame_authentic _ _ rfl hnew)
  obtain ⟨s₁, hheard⟩ := hiff.mpr (groupFrame_accepted hs
    (by decide : counterNat (smallCounter 2) < counterNat (smallCounter 3)))
  obtain ⟨heap, hchecked⟩ := hheard.checked
  -- its counter is 3, the stored one 5
  have hfresh := (replayDiff_eq_false rfl).mp hchecked.fresh
  rw [KeyFrame.signed, elem_replayCounter] at hfresh
  rcases hfresh with hless | hzero
  · exact absurd hless (by decide : ¬ counterNat (smallCounter 5) < counterNat (smallCounter 3))
  · exact absurd (congrFun hzero 7) (by decide : ¬ smallCounter 3 7 = Bytes.zero 8 7)

end ExtDrv.Rt3370.Wpa
