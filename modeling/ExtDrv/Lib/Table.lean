import Mathlib.Algebra.BigOperators.Fin
import Mathlib.Tactic.Abel

/-!
# Tables

Finite tables `ι → α` whose entries are overwritten one at a time, with what
is said about a table as a whole: sums over its entries (a count, the contents
together), and the two-way link between a table and an index into it.
-/

namespace ExtDrv.Table

variable {ι α κ M : Type*}

/-! ## Sums -/

section Sums

variable [Fintype ι] [DecidableEq ι] [AddCommMonoid M]

/-- Overwriting one entry trades its old summand for the new one. -/
theorem sum_update (g : α → M) (f : ι → α) (i : ι) (x : α) :
    (∑ j, g (Function.update f i x j)) + g (f i) = (∑ j, g (f j)) + g x := by
  rw [← Finset.add_sum_erase Finset.univ _ (Finset.mem_univ i),
    ← Finset.add_sum_erase Finset.univ (fun j => g (f j)) (Finset.mem_univ i)]
  have hrest : ∑ j ∈ Finset.univ.erase i, g (Function.update f i x j)
      = ∑ j ∈ Finset.univ.erase i, g (f j) :=
    Finset.sum_congr rfl fun j hj => by rw [Function.update_of_ne (Finset.ne_of_mem_erase hj)]
  rw [hrest, Function.update_self]
  abel

/-- An overwrite that keeps the summand keeps the sum. -/
theorem sum_update_of_eq {g : α → M} {f : ι → α} {i : ι} {x : α}
    (h : g x = g (f i)) : ∑ j, g (Function.update f i x j) = ∑ j, g (f j) := by
  refine Finset.sum_congr rfl fun j _ => ?_
  by_cases hj : j = i
  · subst hj
    rw [Function.update_self, h]
  · rw [Function.update_of_ne hj]

end Sums

/-! ## Two-way links -/

/-- The entries `ent` in use carry a key, and `slot` finds the entry of a key:
each of the two is the other's inverse. -/
def TwoWay (ent : ι → Option κ) (slot : κ → Option ι) : Prop :=
  ∀ i k, ent i = some k ↔ slot k = some i

variable {ent : ι → Option κ} {slot : κ → Option ι} {i : ι} {k : κ}

/-- Two entries never carry the same key. -/
theorem TwoWay.inj (h : TwoWay ent slot) {j : ι} (hi : ent i = some k) (hj : ent j = some k) :
    i = j :=
  Option.some.inj (((h i k).mp hi).symm.trans ((h j k).mp hj))

variable [DecidableEq ι] [DecidableEq κ]

/-- **Linking** a free entry and a free key. -/
theorem TwoWay.link (h : TwoWay ent slot) (hi : ent i = none) (hk : slot k = none) :
    TwoWay (Function.update ent i (some k)) (Function.update slot k (some i)) := by
  intro j l
  by_cases hj : j = i <;> by_cases hl : l = k
  · subst hj hl
    simp
  · subst hj
    rw [Function.update_self, Function.update_of_ne hl]
    refine ⟨fun heq => absurd (Option.some.inj heq).symm hl, fun hs => ?_⟩
    rw [(h j l).mpr hs] at hi
    cases hi
  · subst hl
    rw [Function.update_self, Function.update_of_ne hj]
    refine ⟨fun he => ?_, fun heq => absurd (Option.some.inj heq).symm hj⟩
    rw [(h j l).mp he] at hk
    cases hk
  · rw [Function.update_of_ne hj, Function.update_of_ne hl]
    exact h j l

/-- **Unlinking** an entry and its key. -/
theorem TwoWay.unlink (h : TwoWay ent slot) (hi : ent i = some k) :
    TwoWay (Function.update ent i none) (Function.update slot k none) := by
  intro j l
  by_cases hj : j = i <;> by_cases hl : l = k
  · subst hj hl
    simp
  · subst hj
    rw [Function.update_self, Function.update_of_ne hl]
    refine ⟨(fun heq => nomatch heq), fun hs => ?_⟩
    have := ((h j l).mpr hs).symm.trans hi
    exact absurd (Option.some.inj this) hl
  · subst hl
    rw [Function.update_self, Function.update_of_ne hj]
    exact ⟨fun he => absurd (h.inj he hi) hj, fun heq => nomatch heq⟩
  · rw [Function.update_of_ne hj, Function.update_of_ne hl]
    exact h j l

end ExtDrv.Table
