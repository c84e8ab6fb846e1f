import Mathlib.Data.List.Nodup
import Mathlib.Data.List.Perm.Basic
import Mathlib.Logic.Equiv.Basic
import Mathlib.Order.Lattice

/-!
# Exchange sort

The first `n` cells of an array are put in descending order of a key: every cell is compared
with each one behind it, and they are exchanged if the one behind has the larger key.
-/

namespace ExtDrv.ExchangeSort

variable {α κ : Type*} [LinearOrder κ] (key : α → κ)

def exchange (i : Nat) (a : Nat → α) (j : Nat) : Nat → α :=
  if key (a i) < key (a j) then a ∘ Equiv.swap i j else a

/-- The cell `i` against the `m` cells behind it. -/
def pass (i m : Nat) (a : Nat → α) : Nat → α := (List.range' (i + 1) m).foldl (exchange key i) a

def passes (n k : Nat) (a : Nat → α) : Nat → α :=
  (List.range k).foldl (fun a i => pass key i (n - (i + 1)) a) a

def exchangeSort (n : Nat) (a : Nat → α) : Nat → α := passes key n (n - 1) a

variable {key}

theorem pass_succ (i m : Nat) (a : Nat → α) :
    pass key i (m + 1) a = exchange key i (pass key i m a) (i + 1 + m) := by
  simp only [pass, List.range'_concat, List.foldl_append, List.foldl_cons, List.foldl_nil,
    Nat.one_mul]

theorem passes_succ (n k : Nat) (a : Nat → α) :
    passes key n (k + 1) a = pass key k (n - (k + 1)) (passes key n k a) := by
  simp only [passes, List.range_succ, List.foldl_append, List.foldl_cons, List.foldl_nil]

/-! ## The cells are permuted -/

/-- The first `n` cells are those of the other array in some order. -/
def Permuted (n : Nat) (a a' : Nat → α) : Prop :=
  ((List.range n).map a).Perm ((List.range n).map a')

theorem permuted_swap {n i j : Nat} (hi : i < n) (hj : j < n) (a : Nat → α) :
    Permuted n (a ∘ Equiv.swap i j) a := by
  have hrange : ((List.range n).map (Equiv.swap i j)).Perm (List.range n) := by
    refine (List.perm_ext_iff_of_nodup
      (List.Nodup.map (Equiv.swap i j).injective List.nodup_range) List.nodup_range).mpr
      fun k => ?_
    -- the two cells are both among the first `n`
    have hlt : ∀ k, k < n → Equiv.swap i j k < n := by
      intro k hk
      by_cases hki : k = i
      · rw [hki, Equiv.swap_apply_left]
        exact hj
      · by_cases hkj : k = j
        · rw [hkj, Equiv.swap_apply_right]
          exact hi
        · rwa [Equiv.swap_apply_of_ne_of_ne hki hkj]
    simp only [List.mem_map, List.mem_range]
    constructor
    · rintro ⟨l, hl, rfl⟩
      exact hlt l hl
    · intro hk
      exact ⟨Equiv.swap i j k, hlt k hk, Equiv.swap_apply_self i j k⟩
  have hmap := hrange.map a
  rwa [List.map_map] at hmap

theorem permuted_exchange {n i j : Nat} (hi : i < n) (hj : j < n) (a : Nat → α) :
    Permuted n (exchange key i a j) a := by
  unfold exchange
  split
  · exact permuted_swap hi hj a
  · exact List.Perm.refl _

theorem permuted_pass {n i m : Nat} (h : i + m < n) (a : Nat → α) :
    Permuted n (pass key i m a) a := by
  induction m with
  | zero => exact List.Perm.refl _
  | succ m ih =>
    rw [pass_succ]
    exact (permuted_exchange (by omega) (by omega) _).trans (ih (by omega))

theorem permuted_passes {n k : Nat} (h : k < n) (a : Nat → α) :
    Permuted n (passes key n k a) a := by
  induction k with
  | zero => exact List.Perm.refl _
  | succ k ih =>
    rw [passes_succ]
    exact (permuted_pass (by omega) _).trans (ih (by omega))

theorem permuted_exchangeSort (n : Nat) (a : Nat → α) : Permuted n (exchangeSort key n a) a := by
  cases n with
  | zero => exact List.Perm.refl _
  | succ n => exact permuted_passes (Nat.lt_succ_self n) a

/-! ## And in order -/

theorem exchange_le {i j : Nat} {a : Nat → α} :
    key (exchange key i a j j) ≤ key (exchange key i a j i) := by
  unfold exchange
  split
  · rename_i h
    simpa using h.le
  · rename_i h
    exact not_lt.mp h

theorem exchange_other {i j k : Nat} (hi : k ≠ i) (hj : k ≠ j) (a : Nat → α) :
    exchange key i a j k = a k := by
  unfold exchange
  split
  · rw [Function.comp_apply, Equiv.swap_apply_of_ne_of_ne hi hj]
  · rfl

/-- The key of the cell does not get smaller. -/
theorem le_exchange (i j : Nat) (a : Nat → α) : key (a i) ≤ key (exchange key i a j i) := by
  unfold exchange
  split
  · rename_i h
    simpa using h.le
  · exact le_refl _

/-- What bounds the cells from `i` on still does. -/
theorem exchange_bound {n i j : Nat} {b : κ} {a : Nat → α} (hi : i < n) (hij : i ≤ j) (hj : j < n)
    (h : ∀ k, i ≤ k → k < n → key (a k) ≤ b) :
    ∀ k, i ≤ k → k < n → key (exchange key i a j k) ≤ b := by
  intro k hik hkn
  by_cases hki : k = i
  · unfold exchange
    split
    · rw [hki, Function.comp_apply, Equiv.swap_apply_left]
      exact h j hij hj
    · exact h k hik hkn
  · by_cases hkj : k = j
    · unfold exchange
      split
      · rw [hkj, Function.comp_apply, Equiv.swap_apply_right]
        exact h i (Nat.le_refl i) hi
      · exact h k hik hkn
    · rw [exchange_other hki hkj]
      exact h k hik hkn

theorem pass_bound {n i m : Nat} {b : κ} {a : Nat → α} (hm : i + m < n)
    (h : ∀ k, i ≤ k → k < n → key (a k) ≤ b) :
    ∀ k, i ≤ k → k < n → key (pass key i m a k) ≤ b := by
  induction m with
  | zero => exact h
  | succ m ih =>
    rw [pass_succ]
    exact exchange_bound (by omega) (by omega) (by omega) (ih (by omega))

theorem pass_before {i m k : Nat} (hk : k < i) (a : Nat → α) : pass key i m a k = a k := by
  induction m with
  | zero => rfl
  | succ m ih => rw [pass_succ, exchange_other (by omega) (by omega), ih]

/-- After a pass the cell has the largest key of those compared. -/
theorem pass_le {i m k : Nat} (hik : i < k) (hk : k ≤ i + m) (a : Nat → α) :
    key (pass key i m a k) ≤ key (pass key i m a i) := by
  induction m with
  | zero => omega
  | succ m ih =>
    rw [pass_succ]
    by_cases hlast : k = i + 1 + m
    · rw [hlast]
      exact exchange_le
    · rw [exchange_other (by omega) hlast]
      exact (ih (by omega)).trans (le_exchange _ _ _)

/-- The cells that had their pass are in order, before all others. -/
theorem passes_le {n k : Nat} (hk : k < n) (a : Nat → α) :
    ∀ p < k, ∀ q, p < q → q < n → key (passes key n k a q) ≤ key (passes key n k a p) := by
  induction k with
  | zero =>
    intro p hp
    omega
  | succ k ih =>
    intro p hp q hpq hq
    rw [passes_succ]
    by_cases hpk : p = k
    · rw [hpk]
      exact pass_le (by omega) (by omega) _
    · have hp' : p < k := by omega
      rw [pass_before hp']
      by_cases hqk : q < k
      · rw [pass_before hqk]
        exact ih (by omega) p hp' q hpq hq
      · exact pass_bound (by omega) (fun l hl hln => ih (by omega) p hp' l (by omega) hln) q
          (by omega) hq

theorem exchangeSort_le {n : Nat} (a : Nat → α) {p q : Nat} (hpq : p < q) (hq : q < n) :
    key (exchangeSort key n a q) ≤ key (exchangeSort key n a p) :=
  passes_le (by omega) a p (by omega) q hpq hq

end ExtDrv.ExchangeSort
