import ExtDrv.Lib.ForLoop
import Mathlib.Logic.Function.Basic

/-!
# Key wrapping in rounds

A register `A` and `n` halves, numbered from one: six times over all halves a permutation
of register and half, each turn of which puts its number into the register. The permutation and the
way the number is put in are parameters.
-/

namespace ExtDrv.WrapRounds

variable {α β : Type*}

/-- The register and the halves. -/
@[ext]
structure Halves (α β : Type*) where
  A : α
  R : Nat → β

/-- The numbers of `n` halves. -/
def numbers (n : Nat) : List Nat := (List.range n).map (· + 1)

theorem mem_numbers {n i : Nat} (h : i ∈ numbers n) : 0 < i ∧ i ≤ n := by
  obtain ⟨k, hk, rfl⟩ := List.mem_map.mp h
  have hlt := List.mem_range.mp hk
  omega

section Turns

variable (E : α × β → α × β) (count : Nat → α → α) (n : Nat)

/-- The turn of half `i` in round `j`. -/
def turn (j : Nat) (s : Halves α β) (i : Nat) : Halves α β :=
  let b := E (s.A, s.R i)
  ⟨count (n * j + i) b.1, Function.update s.R i b.2⟩

/-- A turn back. -/
def unturn (j : Nat) (s : Halves α β) (i : Nat) : Halves α β :=
  let b := E (count (n * j + i) s.A, s.R i)
  ⟨b.1, Function.update s.R i b.2⟩

def wrap (s : Halves α β) : Halves α β :=
  (List.range 6).foldl (fun s j => (numbers n).foldl (turn E count n j) s) s

/-- From the last turn to the first. -/
def unwrap (s : Halves α β) : Halves α β :=
  (List.range 6).reverse.foldl (fun s j => (numbers n).reverse.foldl (unturn E count n j) s) s

end Turns

variable {E D : α × β → α × β} {count count' : Nat → α → α} {n : Nat}

/-- Folds whose turns agree on the numbers they are made with. -/
theorem foldl_congr {σ ι : Type*} {f g : σ → ι → σ} {is : List ι}
    (h : ∀ i ∈ is, ∀ s, f s i = g s i) (s : σ) : is.foldl f s = is.foldl g s := by
  induction is generalizing s with
  | nil => rfl
  | cons i is ih =>
      rw [List.foldl_cons, List.foldl_cons, h i (by simp)]
      exact ih (fun k hk => h k (by simp [hk])) _

/-- The number of a turn. -/
theorem number_le {j i : Nat} (hj : j ∈ List.range 6) (hi : i ∈ numbers n) : n * j + i ≤ 6 * n := by
  have hj := List.mem_range.mp hj
  have hi := (mem_numbers hi).2
  have hmul : n * j ≤ n * 5 := Nat.mul_le_mul_left n (by omega)
  omega

/-- Only the numbers up to `6 * n` count. -/
theorem wrap_congr (h : ∀ t, t ≤ 6 * n → count t = count' t) (s : Halves α β) :
    wrap E count n s = wrap E count' n s := by
  refine foldl_congr (fun j hj s => foldl_congr (fun i hi s => ?_) s) s
  rw [turn, turn, h _ (number_le hj hi)]

theorem unwrap_congr (h : ∀ t, t ≤ 6 * n → count t = count' t) (s : Halves α β) :
    unwrap D count n s = unwrap D count' n s := by
  refine foldl_congr (fun j hj s => foldl_congr (fun i hi s => ?_) s) s
  rw [unturn, unturn, h _ (number_le (List.mem_reverse.mp hj) (List.mem_reverse.mp hi))]

end ExtDrv.WrapRounds
