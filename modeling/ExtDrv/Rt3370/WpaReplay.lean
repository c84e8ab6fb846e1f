import ExtDrv.Rt3370.WpaFrames
import Mathlib.Data.List.Chain

/-!
# Replay counters

The counters of the authenticator's messages the handlers have stored, over a whole
run. `PeerWpaMessageSanity` lets an all-zero counter pass, for access points that
start with one; every other counter has to be larger than the last.
-/

namespace ExtDrv.Rt3370.Wpa

open Run

/-- The counters stored since the entry was set up, the latest first. -/
def counters : List Obs → List (Bytes 8)
  | [] => []
  | .setUp _ :: _ => []
  | .linkDown :: _ => []
  | .counter _ c :: rest => c :: counters rest
  | .message1 .. :: rest => counters rest
  | .installed .. :: rest => counters rest
  | .answered .. :: rest => counters rest
  | .sent .. :: rest => counters rest

/-- The latest counter is all zero, or larger than the one before it. -/
def Later (c d : Bytes 8) : Prop := c = .zero 8 ∨ counterNat d < counterNat c

/-- The entry holds the latest counter, and each was later than the one before. -/
structure CountersInv (s : Station) : Prop where
  latest : ∀ c, (counters s.log).head? = some c → s.entry.R_Counter = c
  chain : (counters s.log).IsChain Later

/-- Whatever leaves the counter and the counters alone. -/
theorem CountersInv.same {s s' : Station} (h : CountersInv s)
    (hentry : s'.entry.R_Counter = s.entry.R_Counter)
    (hlog : counters s'.log = counters s.log) : CountersInv s' := by
  refine ⟨fun c hc => ?_, ?_⟩
  · rw [hlog] at hc
    rw [hentry]
    exact h.latest c hc
  · rw [hlog]
    exact h.chain

theorem CountersInv.parsed {s s' : Station} (h : CountersInv s) (hp : Parsed s s') :
    CountersInv s' :=
  h.same (congrArg MacEntry.R_Counter hp.entry) (congrArg counters hp.log)

/-- A message of the authenticator that is heard has its counter stored. -/
theorem CountersInv.store {env : Env} {g : Grants} {s s₁ : Station} {e : MlmeElem} {ty : MsgType}
    (h : CountersInv s) (hheard : Heard env g s e ty s₁) (hty : ty.fromAuthenticator = true) :
    CountersInv (storeCounter s₁ e.packet ty) := by
  have hlog : counters (storeCounter s₁ e.packet ty).log
      = replayCounter e.packet :: counters s.log := by
    show replayCounter e.packet :: counters s₁.log = _
    rw [hheard.parsed.log]
  obtain ⟨heap, hchecked⟩ := hheard.checked
  have hfresh := (replayDiff_eq_false hty).mp hchecked.fresh
  refine ⟨fun c hc => ?_, ?_⟩
  · rw [hlog] at hc
    exact Option.some.inj hc
  · rw [hlog, List.isChain_cons]
    refine ⟨fun d hd => ?_, h.chain⟩
    rw [h.latest d hd] at hfresh
    exact hfresh.symm

/-- Installing a pairwise key stores no counter. -/
theorem CountersInv.installs {s s' : Station} {ty : MsgType} (h : CountersInv s)
    (hi : Installs s s' ty) : CountersInv s' := by
  obtain ⟨key, secured, established, hentry⟩ := hi.entry
  refine h.same (by rw [hentry]) ?_
  obtain ⟨-, -, -, hlog⟩ | ⟨-, key, -, -, -, hlog⟩ := hi.keys
  · rw [hlog]
  · rw [hlog]
    rfl

theorem CountersInv.did {env : Env} {g : Grants} {s s' : Station} {e : MlmeElem}
    (h : CountersInv s) (hdid : Did env g s e s') : CountersInv s' := by
  cases hdid with
  | nothing => exact h
  | message1 hheard _ =>
      have hstored := h.store hheard rfl
      rcases answer_cases g .pairMsg2
        (storeMessage1 env g (storeCounter _ e.packet .pairMsg1) e.packet) with heq | heq
      · rw [heq]
        exact hstored.same rfl rfl
      · rw [heq]
        exact hstored.same rfl rfl
  | message3Left hheard _ _ => exact h.store hheard rfl
  | message3 hheard _ =>
      have hstored := h.store hheard rfl
      have hanswered : CountersInv ((storeCounter _ e.packet .pairMsg3).observe
        (.answered .pairMsg4 (kck s.entry.PTK))) := hstored.same rfl rfl
      exact hanswered.installs (installMessage3_installs _)
  | message4 established hheard =>
      rename_i s₁ _
      have hparsed : CountersInv s₁ := h.parsed hheard.parsed
      exact hparsed.installs (installMessage4_installs _ established)
  | group1 hheard => exact (h.store hheard rfl).same rfl rfl
  | group1Left hheard => exact h.store hheard rfl
  | group2 hheard =>
      rename_i s₁
      have hparsed : CountersInv s₁ := h.parsed hheard.parsed
      exact hparsed.same rfl rfl

/-- Association keeps the counter, and the counters or none of them. -/
theorem CountersInv.associate {env : Env} {s : Station} (h : CountersInv s) (bssid : Bytes 6)
    (capable : Bool) :
    CountersInv (linkUp env (peerAssocRspAction env s bssid capable) bssid) := by
  rcases associate_cases env s bssid capable with ⟨secured, heq⟩ | ⟨secured, client, -, heq⟩
  · rw [heq]
    exact ⟨fun c hc => (by cases hc), List.isChain_nil⟩
  · exact h.same (by rw [heq]) (by rw [heq])

theorem CountersInv.step {env : Env} {s s' : Station} {a : Event} (h : CountersInv s)
    (hstep : step env s a = some s') : CountersInv s' := by
  cases a with
  | eapolKey e g => exact h.did (step_eapolKey hstep)
  | associate bssid capable =>
      cases hstep
      exact h.associate bssid capable
  | linkDown isReqFromAp =>
      cases hstep
      obtain ⟨sharedKey, table, -, heq⟩ := linkDown_cases env s isReqFromAp
      rw [heq]
      exact ⟨fun c hc => (by cases hc), List.isChain_nil⟩
  | transmit =>
      cases hstep
      rcases transmit_cases s with ⟨-, heq⟩ | ⟨key, -, heq⟩
      · exact h.same (by rw [heq]) (by rw [heq])
      · exact h.same (by rw [heq]) (by rw [heq]; rfl)

/-- The last counter is larger than an earlier one if none since was all zero. -/
theorem lt_of_chain {c d : Bytes 8} {mid older : List (Bytes 8)}
    (h : (c :: (mid ++ d :: older)).IsChain Later) (hne : ∀ x ∈ c :: mid, x ≠ .zero 8) :
    counterNat d < counterNat c := by
  induction mid generalizing c with
  | nil =>
      have hlater : Later c d := (List.isChain_cons_cons.mp h).1
      exact hlater.resolve_left (hne c List.mem_cons_self)
  | cons b mid ih =>
      obtain ⟨hlater, hrest⟩ := List.isChain_cons_cons.mp h
      have hbelow : counterNat d < counterNat b :=
        ih hrest fun x hx => hne x (List.mem_cons_of_mem _ hx)
      have hcb : counterNat b < counterNat c := hlater.resolve_left (hne c List.mem_cons_self)
      exact Nat.lt_trans hbelow hcb

/-- **Replay protection**: in every run, each counter that is stored during an association is
all zero or larger than the one stored before it, so that it is larger than every earlier one
since which no counter was all zero. -/
theorem counters_later (env : Env) (sharedKey : Fin 4 → CipherKey) (as : List Event) (s : Station)
    (hrun : gexec (step env) (.start sharedKey) as = some s) :
    (counters s.log).IsChain Later ∧
      ∀ newer mid older c d, counters s.log = newer ++ c :: (mid ++ d :: older) →
        (∀ x ∈ c :: mid, x ≠ .zero 8) → counterNat d < counterNat c := by
  have hstart : CountersInv (.start sharedKey) := ⟨fun c hc => (by cases hc), List.isChain_nil⟩
  have hinv : CountersInv s := gexec_inv (P := fun _ _ => True)
    (fun s a s' h _ hstep => h.step hstep) hstart (GAlong.of_forall fun _ _ => trivial) hrun
  refine ⟨hinv.chain, fun newer mid older c d heq hne => ?_⟩
  have hchain := hinv.chain
  rw [heq] at hchain
  exact lt_of_chain hchain.right_of_append hne

/-! ## A counter that is all zero -/

/-- The same message 1 twice, and one with a zero counter between. -/
def twice : List Event :=
  let message1 := fun n : BitVec 8 =>
    (message1Frame (.zero 6) (smallCounter n) (.zero 32)).elem (.zero 16)
  [.associate (.zero 6) true, .eapolKey (message1 5) (enough (.zero 32)),
    .eapolKey (message1 0) (enough (.zero 32)), .eapolKey (message1 5) (enough (.zero 32))]

theorem smallCounter_zero : smallCounter 0 = .zero 8 := by
  funext i
  simp [smallCounter, Bytes.zero]

/-- All three are heard. -/
theorem twice_runs (c : Crypto) (sharedKey : Fin 4 → CipherKey) :
    ∃ s, gexec (step (wpa2Aes c)) (.start sharedKey) twice = some s ∧
      counters s.log = [smallCounter 5, smallCounter 0, smallCounter 5] := by
  have hj₀ := associated_joined c sharedKey (.zero 6)
  have hj₁ := hj₀.afterMessage1 (wpa2Aes c) (smallCounter 5) (.zero 32) (.zero 32)
  have hj₂ := hj₁.afterMessage1 (wpa2Aes c) (smallCounter 0) (.zero 32) (.zero 32)
  refine ⟨_, gexec_cons.mpr ⟨_, rfl, gexec_cons.mpr ⟨_, step_message1Frame hj₀ _ _ _ ?_,
    gexec_cons.mpr ⟨_, step_message1Frame hj₁ _ _ _ ?_,
      gexec_cons.mpr ⟨_, step_message1Frame hj₂ _ _ _ ?_, rfl⟩⟩⟩⟩, rfl⟩
  · exact Or.inl (by decide : counterNat (.zero 8) < counterNat (smallCounter 5))
  · exact Or.inr smallCounter_zero
  · exact Or.inl (by decide : counterNat (smallCounter 0) < counterNat (smallCounter 5))

/-- **A message heard twice**: whatever the hash functions are, the counters need not increase. -/
theorem counters_notIncreasing :
    ¬ ∃ c : Crypto, ∀ sharedKey as s,
      gexec (step (wpa2Aes c)) (.start sharedKey) as = some s →
        (counters s.log).IsChain fun c d => counterNat d < counterNat c := by
  rintro ⟨c, h⟩
  obtain ⟨s, hrun, hcounters⟩ := twice_runs c fun _ => .zero
  have hchain := h _ _ s hrun
  rw [hcounters] at hchain
  have hless := (List.isChain_cons_cons.mp (List.isChain_cons_cons.mp hchain).2).1
  exact absurd hless (by decide)

theorem counters_later_twice :
    ∃ s, gexec (step (wpa2Aes noCrypto)) (.start fun _ => .zero) twice = some s ∧
      counters s.log = [smallCounter 5, smallCounter 0, smallCounter 5] ∧
      (counters s.log).IsChain Later := by
  obtain ⟨s, hrun, hcounters⟩ := twice_runs noCrypto fun _ => .zero
  exact ⟨s, hrun, hcounters, (counters_later _ _ _ s hrun).1⟩

end ExtDrv.Rt3370.Wpa
