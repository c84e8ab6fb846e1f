import Mathlib.Order.Basic

/-!
# Loops that fault, return or go on

A `while` loop whose body may leave its memory (a fault), return from the
function around it, or end its turn in a new state. Nothing is said about
termination: `iterate n` is what the loop has done after at most `n` turns, and
`Safe` says that it never faults, however long it runs. Functions that run such
loops one after the other are put together with `andThen`; the rules for it say
when the whole is safe and what it ends with.
-/

namespace ExtDrv.Loop

variable {σ ρ ρ' ε : Type*}

/-- How one turn of a loop ends. -/
inductive Turn (σ ρ ε : Type*) where
  | fault (e : ε)
  | ret (r : ρ)
  | next (s : σ)

/-- What a function does in at most `n` turns of each of its loops: `none` if it
is still running, else its fault or its result. -/
abbrev Running (ε ρ : Type*) := Nat → Option (Except ε ρ)

/-- However many turns it is given, the function does not fault. -/
def Safe (f : Running ε ρ) : Prop := ∀ n e, f n ≠ some (.error e)

/-- The fault a function has ended with, if it has. -/
def faultOf : Option (Except ε ρ) → Option ε
  | some (.error e) => some e
  | _ => none

theorem Safe.faultOf_eq_none {f : Running ε ρ} (h : Safe f) (n : Nat) : faultOf (f n) = none := by
  rcases hx : f n with _ | e | r
  · rfl
  · exact absurd hx (h n e)
  · rfl

/-- Given turns enough, the function returns `r`. -/
def Ends (f : Running ε ρ) (r : ρ) : Prop := ∃ n, f n = some (.ok r)

/-- More turns change nothing once the function has ended. -/
def Stable (f : Running ε ρ) : Prop := ∀ n m x, n ≤ m → f n = some x → f m = some x

variable (turn : σ → Turn σ ρ ε)

/-- The loop from `s`, for at most `n` turns. -/
def iterate : Nat → σ → Option (Except ε ρ)
  | 0, _ => none
  | n + 1, s =>
      match turn s with
      | .fault e => some (.error e)
      | .ret r => some (.ok r)
      | .next s => iterate n s

/-- The loop entered in `s` meets the state `t` at the top of a turn. -/
inductive Meets : σ → σ → Prop where
  | here (s : σ) : Meets s s
  | later {s s' t : σ} : turn s = .next s' → Meets s' t → Meets s t

variable {turn}

theorem Meets.snoc {s t u : σ} (h : Meets turn s t) (hn : turn t = .next u) :
    Meets turn s u := by
  induction h with
  | here s => exact .later hn (.here u)
  | later hs _ ih => exact .later hs (ih hn)

/-- What holds at the start and is kept by every turn holds in all states met. -/
theorem Meets.inv {I : σ → Prop} (hkeep : ∀ s s', I s → turn s = .next s' → I s') {s t : σ}
    (h : Meets turn s t) (h0 : I s) : I t := by
  induction h with
  | here s => exact h0
  | later hs _ ih => exact ih (hkeep _ _ h0 hs)

/-- The turns that lead from `s` to `t`, by the states they are made in. -/
inductive Passes (turn : σ → Turn σ ρ ε) : σ → List σ → σ → Prop where
  | done (s : σ) : Passes turn s [] s
  | more {s s' t : σ} {ts : List σ} : turn s = .next s' → Passes turn s' ts t →
      Passes turn s (s :: ts) t

theorem Passes.meets {s t : σ} {ts : List σ} (h : Passes turn s ts t) : Meets turn s t := by
  induction h with
  | done s => exact .here s
  | more hs _ ih => exact .later hs ih

theorem iterate_stable (s : σ) : Stable fun n => iterate turn n s := by
  intro n m x hnm h
  induction n generalizing m s with
  | zero => cases h
  | succ n ih =>
      obtain ⟨m, rfl⟩ : ∃ k, m = k + 1 := ⟨m - 1, by omega⟩
      dsimp only at h ⊢
      rw [iterate] at h ⊢
      cases ht : turn s with
      | fault e => rwa [ht] at h
      | ret r => rwa [ht] at h
      | next s' =>
          rw [ht] at h
          exact ih s' m (by omega) h

/-- A loop ends in the state it met last. -/
theorem iterate_eq_some {s : σ} {x : Except ε ρ} :
    (∃ n, iterate turn n s = some x) ↔
      ∃ t, Meets turn s t ∧
        match x with
        | .error e => turn t = .fault e
        | .ok r => turn t = .ret r := by
  constructor
  · rintro ⟨n, h⟩
    induction n generalizing s with
    | zero => cases h
    | succ n ih =>
        rw [iterate] at h
        cases ht : turn s with
        | fault e =>
            rw [ht] at h
            cases h
            exact ⟨s, .here s, ht⟩
        | ret r =>
            rw [ht] at h
            cases h
            exact ⟨s, .here s, ht⟩
        | next s' =>
            rw [ht] at h
            obtain ⟨t, hm, hx⟩ := ih h
            exact ⟨t, .later ht hm, hx⟩
  · rintro ⟨t, hm, hx⟩
    induction hm with
    | here s =>
        refine ⟨1, ?_⟩
        rw [iterate]
        cases x with
        | error e => rw [hx]
        | ok r => rw [hx]
    | later hs _ ih =>
        obtain ⟨n, hn⟩ := ih hx
        exact ⟨n + 1, by rw [iterate, hs]; exact hn⟩

/-- **The safety rule of a loop**: no state it meets faults. -/
theorem iterate_safe_iff {s : σ} :
    Safe (fun n => iterate turn n s) ↔ ∀ t, Meets turn s t → ∀ e, turn t ≠ .fault e := by
  constructor
  · intro h t hm e ht
    obtain ⟨n, hn⟩ := (iterate_eq_some (x := .error e)).mpr ⟨t, hm, ht⟩
    exact h n e hn
  · intro h n e hn
    obtain ⟨t, hm, ht⟩ := iterate_eq_some.mp ⟨n, hn⟩
    exact h t hm e ht

theorem iterate_ends_iff {s : σ} {r : ρ} :
    Ends (fun n => iterate turn n s) r ↔ ∃ t, Meets turn s t ∧ turn t = .ret r :=
  iterate_eq_some

/-- What the loop ends with, by its next turn. -/
theorem ends_of_next {s s' : σ} {r : ρ} (h : turn s = .next s') :
    Ends (fun n => iterate turn n s) r ↔ Ends (fun n => iterate turn n s') r := by
  rw [iterate_ends_iff, iterate_ends_iff]
  constructor
  · rintro ⟨t, hm, ht⟩
    cases hm with
    | here _ =>
        rw [h] at ht
        cases ht
    | later hs hm =>
        rw [h] at hs
        cases hs
        exact ⟨t, hm, ht⟩
  · rintro ⟨t, hm, ht⟩
    exact ⟨t, .later h hm, ht⟩

theorem ends_of_ret {s : σ} {r r' : ρ} (h : turn s = .ret r') :
    Ends (fun n => iterate turn n s) r ↔ r = r' := by
  rw [iterate_ends_iff]
  constructor
  · rintro ⟨t, hm, ht⟩
    cases hm with
    | here _ =>
        rw [h] at ht
        cases ht
        rfl
    | later hs hm =>
        rw [h] at hs
        cases hs
  · rintro rfl
    exact ⟨s, .here s, h⟩

theorem not_ends_of_fault {s : σ} {r : ρ} {e : ε} (h : turn s = .fault e) :
    ¬ Ends (fun n => iterate turn n s) r := by
  rw [iterate_ends_iff]
  rintro ⟨t, hm, ht⟩
  cases hm with
  | here _ =>
      rw [h] at ht
      cases ht
  | later hs hm =>
      rw [h] at hs
      cases hs

/-- The state a loop ends in is met from every state it meets. -/
theorem Meets.to_end {s t u : σ} (ht : Meets turn s t) (hu : Meets turn s u)
    (hend : ∀ v, turn u ≠ .next v) : Meets turn t u := by
  induction ht with
  | here s => exact hu
  | later hs _ ih =>
      cases hu with
      | here s => exact absurd hs (hend _)
      | later hs' hu =>
          rw [hs] at hs'
          cases hs'
          exact ih hu

/-- **The rule of a loop that runs down**: turns that keep `I` and lower a measure
end without a fault, in a result the last turn vouches for. -/
theorem iterate_total {I : σ → Prop} {Q : ρ → Prop} (μ : σ → Nat)
    (hstep : ∀ s, I s →
      (∃ r, turn s = .ret r ∧ Q r) ∨ ∃ s', turn s = .next s' ∧ I s' ∧ μ s' < μ s)
    {s : σ} (h0 : I s) :
    Safe (fun n => iterate turn n s) ∧ ∃ r, Ends (fun n => iterate turn n s) r ∧ Q r := by
  constructor
  · refine iterate_safe_iff.mpr fun t hm e ht => ?_
    have hI : I t := hm.inv (fun s s' hs hn => by
      obtain ⟨r, hr, -⟩ | ⟨s'', hs'', hI, -⟩ := hstep s hs
      · rw [hr] at hn
        cases hn
      · rw [hs''] at hn
        cases hn
        exact hI) h0
    obtain ⟨r, hr, -⟩ | ⟨s', hs', -⟩ := hstep t hI
    · rw [hr] at ht
      cases ht
    · rw [hs'] at ht
      cases ht
  -- on the measure
  · induction hn : μ s using Nat.strongRecOn generalizing s with
    | _ n ih =>
        obtain ⟨r, hr, hQ⟩ | ⟨s', hs', hI, hlt⟩ := hstep s h0
        · exact ⟨r, iterate_ends_iff.mpr ⟨s, .here s, hr⟩, hQ⟩
        · obtain ⟨r, hends, hQ⟩ := ih (μ s') (hn ▸ hlt) hI rfl
          obtain ⟨t, hm, ht⟩ := iterate_ends_iff.mp hends
          exact ⟨r, iterate_ends_iff.mpr ⟨t, .later hs' hm, ht⟩, hQ⟩

/-- **The rule of a loop that runs out**: where every turn that goes on lowers a
measure, the loop is over after one turn more than the measure counts. -/
theorem iterate_ne_none {s : σ} (μ : σ → Nat)
    (hstep : ∀ t t', Meets turn s t → turn t = .next t' → μ t' < μ t) :
    iterate turn (μ s + 1) s ≠ none := by
  induction hn : μ s using Nat.strongRecOn generalizing s with
  | _ n ih =>
      intro h
      rw [iterate] at h
      cases ht : turn s with
      | fault e =>
          rw [ht] at h
          cases h
      | ret r =>
          rw [ht] at h
          cases h
      | next s' =>
          rw [ht] at h
          have hlt : μ s' < n := hn ▸ hstep s s' (.here s) ht
          have hmeets := fun t t' (hm : Meets turn s' t) => hstep t t' (.later ht hm)
          have hover := ih (μ s') hlt hmeets rfl
          -- the rest of the loop is over by then, and stays so
          cases hx : iterate turn (μ s' + 1) s' with
          | none => exact hover hx
          | some x =>
              have hstay : iterate turn n s' = some x :=
                iterate_stable s' (μ s' + 1) n x hlt hx
              have hnone : iterate turn n s' = none := h
              rw [hstay] at hnone
              cases hnone

/-- **The rule of a loop that goes on for ever**: an invariant under which every
turn goes on. -/
theorem iterate_eq_none {I : σ → Prop} (hstep : ∀ s, I s → ∃ s', turn s = .next s' ∧ I s')
    {s : σ} (h0 : I s) (n : Nat) : iterate turn n s = none := by
  induction n generalizing s with
  | zero => rfl
  | succ n ih =>
      obtain ⟨s', hs', hI⟩ := hstep s h0
      rw [iterate, hs']
      exact ih hI

/-- A loop that meets a state it never comes to an end from does not end. -/
theorem Meets.iterate_eq_none {s t : σ} (h : Meets turn s t)
    (ht : ∀ n, iterate turn n t = none) (n : Nat) : iterate turn n s = none := by
  induction h generalizing n with
  | here s => exact ht n
  | later hs _ ih =>
      cases n with
      | zero => rfl
      | succ n =>
          rw [iterate, hs]
          exact ih ht n

/-- **The rule of a loop that counts**: its turns go through the states `st`, and the first of
them in which it is to `stop` returns. -/
theorem ends_counted_iff {st : Nat → σ} {stop : Nat → Prop} {res : Nat → ρ}
    (hret : ∀ k, stop k → turn (st k) = .ret (res k))
    (hnext : ∀ k, ¬ stop k → turn (st k) = .next (st (k + 1))) {r : ρ} :
    Ends (fun n => iterate turn n (st 0)) r ↔
      ∃ k, stop k ∧ (∀ j, j < k → ¬ stop j) ∧ res k = r := by
  rw [iterate_ends_iff]
  constructor
  · rintro ⟨t, hm, ht⟩
    -- the loop is in one of the states, and was to stop in none before
    have hinv : ∃ k, t = st k ∧ ∀ j, j < k → ¬ stop j := by
      refine hm.inv (I := fun t => ∃ k, t = st k ∧ ∀ j, j < k → ¬ stop j) ?_
        ⟨0, rfl, fun j hj => absurd hj (Nat.not_lt_zero j)⟩
      rintro s s' ⟨k, rfl, hbefore⟩ hs
      by_cases hk : stop k
      · rw [hret k hk] at hs
        cases hs
      · rw [hnext k hk] at hs
        cases hs
        refine ⟨k + 1, rfl, fun j hj => ?_⟩
        rcases Nat.lt_succ_iff_lt_or_eq.mp hj with hlt | rfl
        · exact hbefore j hlt
        · exact hk
    obtain ⟨k, rfl, hbefore⟩ := hinv
    by_cases hk : stop k
    · rw [hret k hk] at ht
      cases ht
      exact ⟨k, hk, hbefore, rfl⟩
    · rw [hnext k hk] at ht
      cases ht
  · rintro ⟨k, hk, hbefore, rfl⟩
    have hmeets (i : Nat) (hi : i ≤ k) : Meets turn (st 0) (st i) := by
      induction i with
      | zero => exact .here _
      | succ i ih => exact (ih (Nat.le_of_succ_le hi)).snoc (hnext i (hbefore i hi))
    exact ⟨st k, hmeets k (Nat.le_refl k), hret k hk⟩

/-! ## One after the other -/

/-- The result of the first part is handed to the second; a fault, or a loop
that is still running, ends the whole. -/
def andThen (x : Option (Except ε ρ)) (k : ρ → Option (Except ε ρ')) : Option (Except ε ρ') :=
  match x with
  | none => none
  | some (.error e) => some (.error e)
  | some (.ok r) => k r

theorem andThen_eq_some {x : Option (Except ε ρ)} {k : ρ → Option (Except ε ρ')}
    {y : Except ε ρ'} :
    andThen x k = some y ↔
      (∃ e, x = some (.error e) ∧ y = .error e) ∨ ∃ r, x = some (.ok r) ∧ k r = some y := by
  rcases x with _ | e | r
  · simp [andThen]
  · simp [andThen, eq_comm]
  · simp [andThen]

@[simp] theorem safe_ok (r : ρ) : Safe (fun _ => some (.ok r) : Running ε ρ) := by
  intro _ e h
  cases h

theorem stable_const (x : Except ε ρ) : Stable fun _ => some x :=
  fun _ _ _ _ h => h

theorem Stable.ite {p : Prop} [Decidable p] {f g : Running ε ρ} (hf : Stable f) (hg : Stable g) :
    Stable fun n => if p then f n else g n := by
  by_cases h : p
  · simpa only [if_pos h] using hf
  · simpa only [if_neg h] using hg

theorem Safe.ite {p : Prop} [Decidable p] {f g : Running ε ρ} (hf : Safe f) (hg : Safe g) :
    Safe fun n => if p then f n else g n := by
  by_cases h : p
  · simpa only [if_pos h] using hf
  · simpa only [if_neg h] using hg

theorem Stable.andThen {f : Running ε ρ} {k : Nat → ρ → Option (Except ε ρ')} (hf : Stable f)
    (hk : ∀ r, Stable fun n => k n r) : Stable fun n => andThen (f n) (k n) := by
  intro n m x hnm h
  rcases andThen_eq_some.mp h with ⟨e, he, rfl⟩ | ⟨r, hr, hkr⟩
  · exact andThen_eq_some.mpr (.inl ⟨e, hf n m _ hnm he, rfl⟩)
  · exact andThen_eq_some.mpr (.inr ⟨r, hf n m _ hnm hr, hk r n m x hnm hkr⟩)

/-- A function returns if and only if it is over at some time and does not fault. -/
theorem exists_ends_iff {f : Running ε ρ} (hf : Stable f) :
    (∃ r, Ends f r) ↔ Safe f ∧ ∃ n, f n ≠ none := by
  constructor
  · rintro ⟨r, n, hn⟩
    refine ⟨fun m e hm => ?_, n, fun h => ?_⟩
    · have hr := hf n (max n m) _ (Nat.le_max_left n m) hn
      rw [hf m (max n m) _ (Nat.le_max_right n m) hm] at hr
      cases hr
    · rw [hn] at h
      cases h
  · rintro ⟨hsafe, n, hn⟩
    rcases hx : f n with _ | e | r
    · exact absurd hx hn
    · exact absurd hx (hsafe n e)
    · exact ⟨r, n, hx⟩

/-- **The safety rule of a sequence**: the first part is safe, and so is the
second from whatever the first ends with. -/
theorem safe_andThen_iff {f : Running ε ρ} {k : Nat → ρ → Option (Except ε ρ')} (hf : Stable f)
    (hk : ∀ r, Stable fun n => k n r) :
    Safe (fun n => andThen (f n) (k n)) ↔
      Safe f ∧ ∀ r, Ends f r → Safe fun n => k n r := by
  constructor
  -- a fault of either part would be one of the whole
  · intro h
    constructor
    · intro n e he
      exact h n e (andThen_eq_some.mpr (.inl ⟨e, he, rfl⟩))
    · rintro r ⟨m, hm⟩ n e he
      -- both parts have ended after the larger number of turns
      apply h (max n m) e
      refine andThen_eq_some.mpr (.inr ⟨r, ?_, ?_⟩)
      · exact hf m _ _ (Nat.le_max_right n m) hm
      · exact hk r n _ _ (Nat.le_max_left n m) he
  · rintro ⟨hsafe, hrest⟩ n e he
    rcases andThen_eq_some.mp he with ⟨e', he', _⟩ | ⟨r, hr, hkr⟩
    · exact hsafe n e' he'
    · exact hrest r ⟨n, hr⟩ n e hkr

end ExtDrv.Loop
