import Mathlib.Logic.Function.Basic
import Mathlib.Data.List.Basic

/-!
# Programs of register accesses

A setup routine of a device is a list of accesses to a register file: a
register is written, or read, changed and written back. Such a routine acts on
each register by itself, so its meaning is one function a register: `effect`.
What two runs of it leave equal is decided there, register by register.
-/

namespace ExtDrv.RegFile

variable {A V : Type*}

/-- One access: a write, or a read-modify-write. -/
inductive Access (A V : Type*) where
  | write (a : A) (v : V)
  | update (a : A) (f : V → V)

namespace Access

/-- The register an access is to. -/
def addr : Access A V → A
  | write a _ => a
  | update a _ => a

/-- What an access makes of the register's value. -/
def fn : Access A V → V → V
  | write _ v => fun _ => v
  | update _ f => f

/-- The access is a plain write. -/
def isWrite : Access A V → Bool
  | write _ _ => true
  | update _ _ => false

@[simp] theorem addr_write (a : A) (v : V) : (write a v).addr = a := rfl
@[simp] theorem addr_update (a : A) (f : V → V) : (update a f).addr = a := rfl
@[simp] theorem fn_write (a : A) (v w : V) : (write a v).fn w = v := rfl
@[simp] theorem fn_update (a : A) (f : V → V) (w : V) : (update a f).fn w = f w := rfl

end Access

variable [DecidableEq A]

/-- The register file after one access. -/
def access (r : A → V) (x : Access A V) : A → V := Function.update r x.addr (x.fn (r x.addr))

theorem access_apply (r : A → V) (x : Access A V) (a : A) :
    access r x a = if x.addr = a then x.fn (r a) else r a := by
  by_cases h : x.addr = a
  · subst h
    simp [access]
  · rw [access, Function.update_of_ne (fun h' => h h'.symm), if_neg h]

/-- What the accesses `xs` make of the value of register `a`. -/
def effect : List (Access A V) → A → V → V
  | [], _, v => v
  | x :: xs, a, v => effect xs a (if x.addr = a then x.fn v else v)

@[simp] theorem effect_nil (a : A) (v : V) : effect [] a v = v := rfl

@[simp] theorem effect_cons (x : Access A V) (xs : List (Access A V)) (a : A) (v : V) :
    effect (x :: xs) a v = effect xs a (if x.addr = a then x.fn v else v) := rfl

/-- **A routine acts on each register by itself.** -/
theorem foldl_access (xs : List (Access A V)) (r : A → V) (a : A) :
    xs.foldl access r a = effect xs a (r a) := by
  induction xs generalizing r with
  | nil => rfl
  | cons x xs ih => rw [List.foldl_cons, ih, effect_cons, access_apply]

/-- A register no access is to keeps its value. -/
theorem effect_of_forall_ne {xs : List (Access A V)} {a : A} (h : ∀ x ∈ xs, x.addr ≠ a) (v : V) :
    effect xs a v = v := by
  induction xs generalizing v with
  | nil => rfl
  | cons x xs ih =>
      rw [effect_cons, if_neg (h x List.mem_cons_self)]
      exact ih (fun y hy => h y (List.mem_cons_of_mem _ hy)) v

/-- Some access of the routine overwrites the register, whatever it held. -/
def Written (xs : List (Access A V)) (a : A) : Prop := ∃ x ∈ xs, x.addr = a ∧ x.isWrite = true

instance Written.decidable (xs : List (Access A V)) (a : A) : Decidable (Written xs a) :=
  inferInstanceAs (Decidable (∃ x ∈ xs, x.addr = a ∧ x.isWrite = true))

/-- What a routine leaves in a register it overwrites does not depend on what
the register held. -/
theorem effect_eq_of_written {xs : List (Access A V)} {a : A} (h : Written xs a) (v w : V) :
    effect xs a v = effect xs a w := by
  induction xs generalizing v w with
  | nil =>
      obtain ⟨x, hx, -⟩ := h
      cases hx
  | cons x xs ih =>
      rw [effect_cons, effect_cons]
      obtain ⟨y, hy, hya, hyw⟩ := h
      rcases List.mem_cons.mp hy with rfl | hy
      · -- from the overwriting access on, the two runs are the same
        cases y with
        | write b u => rw [if_pos hya, if_pos hya, Access.fn_write, Access.fn_write]
        | update b f => cases hyw
      · exact ih ⟨y, hy, hya, hyw⟩ _ _

/-! ## Two runs -/

/-- The two register files hold the same values in the registers `as`. -/
def AgreeOn (as : List A) (r s : A → V) : Prop := ∀ a ∈ as, r a = s a

instance AgreeOn.decidable [DecidableEq V] (as : List A) (r s : A → V) : Decidable (AgreeOn as r s) :=
  inferInstanceAs (Decidable (∀ a ∈ as, r a = s a))

omit [DecidableEq A] in
@[simp] theorem agreeOn_nil (r s : A → V) : AgreeOn [] r s := by simp [AgreeOn]

omit [DecidableEq A] in
@[simp] theorem agreeOn_cons (a : A) (as : List A) (r s : A → V) :
    AgreeOn (a :: as) r s ↔ r a = s a ∧ AgreeOn as r s := by simp [AgreeOn]

/-- **Two runs of one routine** end with the same values in the registers `as`
exactly when they start with the same values in those among them, `bs`, that
the routine leaves alone; the other ones it overwrites. -/
theorem agreeOn_foldl_iff {xs : List (Access A V)} {as bs : List A}
    (hw : ∀ a ∈ as, a ∈ bs ∨ Written xs a) (hk : ∀ b ∈ bs, b ∈ as ∧ ∀ x ∈ xs, x.addr ≠ b)
    (r s : A → V) :
    AgreeOn as (xs.foldl access r) (xs.foldl access s) ↔ AgreeOn bs r s := by
  have hkept : ∀ b ∈ bs, ∀ v : V, effect xs b v = v := fun b hb v =>
    effect_of_forall_ne (hk b hb).2 v
  constructor
  · intro h b hb
    have hb' := h b (hk b hb).1
    rwa [foldl_access, foldl_access, hkept b hb, hkept b hb] at hb'
  · intro h a ha
    rw [foldl_access, foldl_access]
    rcases hw a ha with hb | hwritten
    · rw [h a hb]
    · exact effect_eq_of_written hwritten _ _

end ExtDrv.RegFile
