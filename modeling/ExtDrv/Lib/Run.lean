import Mathlib.Data.List.Basic

/-!
# Runs of a step function

Two shapes of machine: a TOTAL step `σ → α → σ` (every operation has an
effect, possibly none) and a GUARDED step `σ → α → Option σ` (a label that
is not enabled has no successor). For each, the induction over a run is
done once here; a client supplies what a single step preserves.
-/

namespace ExtDrv.Run

variable {σ α : Type*}

/-! ## Total steps -/

section Total

variable (step : σ → α → σ)

/-- The state after the operations `as`, from `s`. -/
def exec (s : σ) (as : List α) : σ := as.foldl step s

/-- `P` holds of every operation of the run, in the state it meets. -/
def Along (P : σ → α → Prop) : σ → List α → Prop
  | _, [] => True
  | s, a :: as => P s a ∧ Along P (step s a) as

/-- `I` holds in every state the run goes through, the first one and the
last one included. -/
def Always (I : σ → Prop) : σ → List α → Prop
  | s, [] => I s
  | s, a :: as => I s ∧ Always I (step s a) as

instance Along.decidable (P : σ → α → Prop) [∀ s a, Decidable (P s a)] :
    ∀ s as, Decidable (Along step P s as)
  | _, [] => .isTrue trivial
  | s, a :: as =>
      have := Along.decidable P (step s a) as
      inferInstanceAs (Decidable (P s a ∧ Along step P (step s a) as))

variable {step}

@[simp] theorem exec_nil (s : σ) : exec step s [] = s := rfl

@[simp] theorem exec_cons (s : σ) (a : α) (as : List α) :
    exec step s (a :: as) = exec step (step s a) as := rfl

theorem exec_append (s : σ) (as bs : List α) :
    exec step s (as ++ bs) = exec step (exec step s as) bs :=
  List.foldl_append

@[simp] theorem along_nil (P : σ → α → Prop) (s : σ) : Along step P s [] := trivial

@[simp] theorem along_cons (P : σ → α → Prop) (s : σ) (a : α) (as : List α) :
    Along step P s (a :: as) ↔ P s a ∧ Along step P (step s a) as := Iff.rfl

/-- A condition on the operations alone. -/
theorem along_iff_forall {Q : α → Prop} {s : σ} {as : List α} :
    Along step (fun _ a => Q a) s as ↔ ∀ a ∈ as, Q a := by
  induction as generalizing s with
  | nil => simp [Along]
  | cons a as ih => simp [Along, ih]

theorem along_append {P : σ → α → Prop} {s : σ} {as bs : List α} :
    Along step P s (as ++ bs) ↔ Along step P s as ∧ Along step P (exec step s as) bs := by
  induction as generalizing s with
  | nil => simp
  | cons a as ih => simp [ih, and_assoc]

theorem Along.mono {P Q : σ → α → Prop} (h : ∀ s a, P s a → Q s a)
    {s : σ} {as : List α} (hp : Along step P s as) : Along step Q s as := by
  induction as generalizing s with
  | nil => trivial
  | cons a as ih => exact ⟨h s a hp.1, ih hp.2⟩

theorem Along.and {P Q : σ → α → Prop} {s : σ} {as : List α} (hp : Along step P s as)
    (hq : Along step Q s as) : Along step (fun s a => P s a ∧ Q s a) s as := by
  induction as generalizing s with
  | nil => trivial
  | cons a as ih => exact ⟨⟨hp.1, hq.1⟩, ih hp.2 hq.2⟩

/-- Two conditions that agree in every state an invariant allows, one of which
keeps that invariant, hold along the same runs. -/
theorem along_iff_along {I : σ → Prop} {P Q : σ → α → Prop}
    (hiff : ∀ s a, I s → (P s a ↔ Q s a)) (hkeep : ∀ s a, I s → Q s a → I (step s a))
    {s : σ} {as : List α} (h0 : I s) : Along step P s as ↔ Along step Q s as := by
  induction as generalizing s with
  | nil => exact Iff.rfl
  | cons a as ih =>
      rw [along_cons, along_cons, hiff s a h0]
      exact and_congr_right fun hq => ih (hkeep s a h0 hq)

theorem Always.head {I : σ → Prop} {s : σ} {as : List α}
    (h : Always step I s as) : I s := by
  cases as with
  | nil => exact h
  | cons a as => exact h.1

theorem Always.last {I : σ → Prop} {s : σ} {as : List α}
    (h : Always step I s as) : I (exec step s as) := by
  induction as generalizing s with
  | nil => exact h
  | cons a as ih => exact ih h.2

theorem Always.mono {I J : σ → Prop} (hij : ∀ s, I s → J s)
    {s : σ} {as : List α} (h : Always step I s as) : Always step J s as := by
  induction as generalizing s with
  | nil => exact hij s h
  | cons a as ih => exact ⟨hij s h.1, ih h.2⟩

/-- **The invariant rule**: what every step meeting `P` preserves holds
all along a run whose steps meet `P`. -/
theorem always_of_along {I : σ → Prop} {P : σ → α → Prop}
    (hstep : ∀ s a, I s → P s a → I (step s a))
    {s : σ} {as : List α} (h0 : I s) (hp : Along step P s as) :
    Always step I s as := by
  induction as generalizing s with
  | nil => exact h0
  | cons a as ih => exact ⟨h0, ih (hstep s a h0 hp.1) hp.2⟩

/-- What every step preserves, whatever the operation. -/
theorem always_of_step {I : σ → Prop} (hstep : ∀ s a, I s → I (step s a))
    {s : σ} (as : List α) (h0 : I s) : Always step I s as := by
  induction as generalizing s with
  | nil => exact h0
  | cons a as ih => exact ⟨h0, ih (hstep s a h0)⟩

/-- What an invariant gives of every operation. -/
theorem along_of_always {I : σ → Prop} {P : σ → α → Prop} (hp : ∀ s a, I s → P s a)
    {s : σ} {as : List α} (h : Always step I s as) : Along step P s as := by
  induction as generalizing s with
  | nil => trivial
  | cons a as ih => exact ⟨hp s a h.1, ih h.2⟩

/-- **The exactness rule**: if from every good state a step stays good
exactly when it meets `P`, then a run is good throughout exactly when all
its steps meet `P`. -/
theorem always_iff_along {I : σ → Prop} {P : σ → α → Prop}
    (hstep : ∀ s a, I s → (I (step s a) ↔ P s a))
    {s : σ} {as : List α} (h0 : I s) :
    Always step I s as ↔ Along step P s as := by
  induction as generalizing s with
  | nil => exact ⟨fun _ => trivial, fun _ => h0⟩
  | cons a as ih =>
      constructor
      · intro h
        have hnext : I (step s a) := h.2.head
        exact ⟨(hstep s a h0).mp hnext, (ih hnext).mp h.2⟩
      · intro h
        have hnext : I (step s a) := (hstep s a h0).mpr h.1
        exact ⟨h0, (ih hnext).mpr h.2⟩

/-- An auxiliary invariant `J` that every step preserves may be used while
the exact one is established. -/
theorem always_iff_along_of_inv {I J : σ → Prop} {P : σ → α → Prop}
    (hJ : ∀ s a, J s → I s → P s a → J (step s a))
    (hstep : ∀ s a, J s → I s → (I (step s a) ↔ P s a))
    {s : σ} {as : List α} (hj : J s) (h0 : I s) :
    Always step I s as ↔ Along step P s as := by
  induction as generalizing s with
  | nil => exact ⟨fun _ => trivial, fun _ => h0⟩
  | cons a as ih =>
      constructor
      -- the state after the step is good, so the step met `P`
      · intro h
        have hp : P s a := (hstep s a hj h0).mp h.2.head
        exact ⟨hp, (ih (hJ s a hj h0 hp) h.2.head).mp h.2⟩
      · intro h
        have hnext : I (step s a) := (hstep s a hj h0).mpr h.1
        exact ⟨h0, (ih (hJ s a hj h0 h.1) hnext).mpr h.2⟩

/-! ### Counting along a run -/

/-- How many operations of the run meet `p`, in the state each meets. -/
def tally (step : σ → α → σ) (p : σ → α → Bool) : σ → List α → Nat
  | _, [] => 0
  | s, a :: as => (p s a).toNat + tally step p (step s a) as

@[simp] theorem tally_cons (p : σ → α → Bool) (s : σ) (a : α) (as : List α) :
    tally step p s (a :: as) = (p s a).toNat + tally step p (step s a) as := rfl

/-- **The credit rule**: where every step that meets `p` spends a credit, and only those that meet
`q` earn one, a run spends no more than it had and earned. -/
theorem tally_le_tally (credit : σ → Nat) {J : σ → Prop} {p q : σ → α → Bool}
    (hJ : ∀ s a, J s → J (step s a))
    (hstep : ∀ s a, J s → credit (step s a) + (p s a).toNat ≤ credit s + (q s a).toNat)
    {s : σ} (hj : J s) (as : List α) :
    tally step p s as ≤ credit s + tally step q s as := by
  induction as generalizing s with
  | nil => exact Nat.zero_le _
  | cons a as ih =>
      have hone := hstep s a hj
      have hrest := ih (hJ s a hj)
      rw [tally_cons, tally_cons]
      omega

end Total

/-! ## Guarded steps -/

section Guarded

variable (step : σ → α → Option σ)

/-- The state after the labels `as`, if each is enabled in turn. -/
def gexec : σ → List α → Option σ
  | s, [] => some s
  | s, a :: as => (step s a).bind fun s' => gexec s' as

/-- `P` holds of every label of the run, in the state it meets. -/
def GAlong (P : σ → α → Prop) : σ → List α → Prop
  | _, [] => True
  | s, a :: as => P s a ∧ ∀ s', step s a = some s' → GAlong P s' as

instance GAlong.decidable (P : σ → α → Prop) [∀ s a, Decidable (P s a)] :
    ∀ s as, Decidable (GAlong step P s as)
  | _, [] => .isTrue trivial
  | s, a :: as =>
      match h : step s a with
      | none => decidable_of_iff (P s a) (by simp [GAlong, h])
      | some s' =>
          have := GAlong.decidable P s' as
          decidable_of_iff (P s a ∧ GAlong step P s' as) (by simp [GAlong, h])

variable {step}

@[simp] theorem gexec_nil (s : σ) : gexec step s [] = some s := rfl

theorem gexec_cons {s s'' : σ} {a : α} {as : List α} :
    gexec step s (a :: as) = some s''
      ↔ ∃ s', step s a = some s' ∧ gexec step s' as = some s'' := by
  simp [gexec, Option.bind_eq_some_iff]

/-- A condition on the labels alone. -/
theorem GAlong.of_forall {Q : α → Prop} {s : σ} {as : List α} (h : ∀ a ∈ as, Q a) :
    GAlong step (fun _ a => Q a) s as := by
  induction as generalizing s with
  | nil => trivial
  | cons a as ih =>
      exact ⟨h a List.mem_cons_self, fun _ _ => ih fun b hb => h b (List.mem_cons_of_mem _ hb)⟩

/-- The invariant rule for guarded steps. -/
theorem gexec_inv {I : σ → Prop} {P : σ → α → Prop}
    (hstep : ∀ s a s', I s → P s a → step s a = some s' → I s')
    {s s' : σ} {as : List α} (h0 : I s) (hp : GAlong step P s as)
    (hr : gexec step s as = some s') : I s' := by
  induction as generalizing s with
  | nil => cases hr; exact h0
  | cons a as ih =>
      obtain ⟨t, ht, hrest⟩ := gexec_cons.mp hr
      exact ih (hstep s a t h0 hp.1 ht) (hp.2 t ht) hrest

/-- What no step mends: if it holds in the end, it held before. -/
theorem gexec_back {I : σ → Prop} (hback : ∀ s a s', step s a = some s' → I s' → I s)
    {s s' : σ} {as : List α} (hr : gexec step s as = some s') (h : I s') : I s := by
  induction as generalizing s with
  | nil =>
      cases hr
      exact h
  | cons a as ih =>
      obtain ⟨t, ht, hrest⟩ := gexec_cons.mp hr
      exact hback s a t ht (ih hrest)

/-- **The exactness rule for guarded steps**: if no step mends `I`, and in the states `J`
allows a step that meets `Q` keeps it exactly when it meets `P`, then along a run that meets
`Q` it holds in the end exactly when all steps meet `P`. -/
theorem gexec_iff_galong {I J : σ → Prop} {P Q : σ → α → Prop}
    (hback : ∀ s a s', step s a = some s' → I s' → I s)
    (hiff : ∀ s a s', J s → Q s a → step s a = some s' → I s → (I s' ↔ P s a))
    (hkeep : ∀ s a s', J s → Q s a → P s a → step s a = some s' → J s')
    {s s' : σ} {as : List α} (hj : J s) (hi : I s) (hq : GAlong step Q s as)
    (hr : gexec step s as = some s') : I s' ↔ GAlong step P s as := by
  induction as generalizing s with
  | nil =>
      cases hr
      exact ⟨fun _ => trivial, fun _ => hi⟩
  | cons a as ih =>
      obtain ⟨t, ht, hrest⟩ := gexec_cons.mp hr
      constructor
      · intro hend
        have hnext : I t := gexec_back hback hrest hend
        have hp : P s a := (hiff s a t hj hq.1 ht hi).mp hnext
        refine ⟨hp, fun t' ht' => ?_⟩
        obtain rfl : t = t' := Option.some.inj (ht.symm.trans ht')
        exact (ih (hkeep s a t hj hq.1 hp ht) hnext (hq.2 t ht) hrest).mp hend
      · intro hp
        have hnext : I t := (hiff s a t hj hq.1 ht hi).mpr hp.1
        exact (ih (hkeep s a t hj hq.1 hp.1 ht) hnext (hq.2 t ht) hrest).mpr (hp.2 t ht)

/-- Steps that are marked, and do nothing in the state they meet, may be left out. -/
theorem gexec_filter {s : σ} {ts : List (α × Bool)}
    (h : GAlong (fun s (t : α × Bool) => step s t.1) (fun s t => t.2 = true → step s t.1 = some s)
      s ts) :
    gexec step s (ts.map Prod.fst) = gexec step s ((ts.filter fun t => !t.2).map Prod.fst) := by
  induction ts generalizing s with
  | nil => rfl
  | cons t ts ih =>
      obtain ⟨a, marked⟩ := t
      cases marked with
      | true =>
          have hstep : step s a = some s := h.1 rfl
          have hrest := ih (h.2 s hstep)
          show (step s a).bind _ = _
          rw [hstep]
          exact hrest
      | false =>
          show (step s a).bind _ = (step s a).bind _
          cases hstep : step s a with
          | none => rfl
          | some s' => exact ih (h.2 s' hstep)

end Guarded

end ExtDrv.Run
