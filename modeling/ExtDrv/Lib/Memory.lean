import Mathlib.Data.BitVec
import Mathlib.Data.List.Basic

/-!
# Byte memory

A memory is a byte for every address. `segment` is what a range of it holds,
`store` puts bytes into it; a segment that a store does not reach stays as it is.
-/

namespace ExtDrv.Memory

abbrev Mem := Nat → BitVec 8

/-- The `n` bytes from `o` on. -/
def segment (m : Mem) (o n : Nat) : List (BitVec 8) := (List.range n).map fun i => m (o + i)

/-- The bytes `bs` are put from `o` on. -/
def store (m : Mem) (o : Nat) (bs : List (BitVec 8)) : Mem :=
  fun i => if o ≤ i ∧ i < o + bs.length then bs.getD (i - o) 0 else m i

@[simp] theorem length_segment (m : Mem) (o n : Nat) : (segment m o n).length = n := by
  simp [segment]

@[simp] theorem segment_zero (m : Mem) (o : Nat) : segment m o 0 = [] := rfl

theorem getElem?_segment (m : Mem) {o n i : Nat} (hi : i < n) :
    (segment m o n)[i]? = some (m (o + i)) := by
  simp [segment, hi]

theorem segment_congr {m m' : Mem} {o o' n : Nat} (h : ∀ i, i < n → m (o + i) = m' (o' + i)) :
    segment m o n = segment m' o' n :=
  List.map_congr_left fun i hi => h i (List.mem_range.mp hi)

/-- A segment is its first part and the rest. -/
theorem segment_add (m : Mem) (o a b : Nat) :
    segment m o (a + b) = segment m o a ++ segment m (o + a) b := by
  simp only [segment, List.range_add, List.map_append, List.map_map]
  congr 1
  refine List.map_congr_left fun i _ => ?_
  show m (o + (a + i)) = m (o + a + i)
  rw [Nat.add_assoc]

/-- What was stored is there. -/
theorem segment_store_self (m : Mem) (o : Nat) (bs : List (BitVec 8)) :
    segment (store m o bs) o bs.length = bs := by
  refine List.ext_getElem? fun i => ?_
  by_cases hi : i < bs.length
  · rw [getElem?_segment _ hi, store, if_pos ⟨Nat.le_add_right o i, by omega⟩,
      Nat.add_sub_cancel_left, List.getD_eq_getElem?_getD, List.getElem?_eq_getElem hi]
    rfl
  · rw [List.getElem?_eq_none (by simpa using hi), List.getElem?_eq_none (Nat.not_lt.mp hi)]

/-- A segment in front of a store stays. -/
theorem segment_store_of_le {m : Mem} {o o' n : Nat} {bs : List (BitVec 8)} (h : o' + n ≤ o) :
    segment (store m o bs) o' n = segment m o' n := by
  refine segment_congr fun i hi => ?_
  have hout : ¬ (o ≤ o' + i ∧ o' + i < o + bs.length) := by omega
  exact if_neg hout

/-- Bytes stored right behind a segment come after it. -/
theorem segment_store_behind (m : Mem) (o n : Nat) (bs : List (BitVec 8)) :
    segment (store m (o + n) bs) o (n + bs.length) = segment m o n ++ bs := by
  rw [segment_add, segment_store_of_le (Nat.le_refl _), segment_store_self]

/-- What stands behind stored bytes comes after them. -/
theorem segment_store_front (m : Mem) (o n : Nat) (bs : List (BitVec 8)) :
    segment (store m o bs) o (bs.length + n) = bs ++ segment m (o + bs.length) n := by
  rw [segment_add, segment_store_self]
  congr 1
  refine segment_congr fun i _ => ?_
  have hout : ¬ (o ≤ o + bs.length + i ∧ o + bs.length + i < o + bs.length) := by omega
  exact if_neg hout

theorem segment_store_append (m : Mem) (n : Nat) (bs : List (BitVec 8)) :
    segment (store m n bs) 0 (n + bs.length) = segment m 0 n ++ bs := by
  simpa using segment_store_behind m 0 n bs

/-! ## What a memory spells -/

section Spells

/-- The bytes `bs` stand in `m` from `o` on. It takes a list apart as the list is put together. -/
def Spells (m : Mem) : Nat → List (BitVec 8) → Prop
  | _, [] => True
  | o, b :: bs => m o = b ∧ Spells m (o + 1) bs

variable {m : Mem}

@[simp] theorem spells_nil (o : Nat) : Spells m o [] := trivial

@[simp] theorem spells_cons (o : Nat) (b : BitVec 8) (bs : List (BitVec 8)) :
    Spells m o (b :: bs) ↔ m o = b ∧ Spells m (o + 1) bs := Iff.rfl

theorem spells_append (o : Nat) (as bs : List (BitVec 8)) :
    Spells m o (as ++ bs) ↔ Spells m o as ∧ Spells m (o + as.length) bs := by
  induction as generalizing o with
  | nil => simp
  | cons a as ih =>
      rw [List.cons_append, spells_cons, spells_cons, ih, List.length_cons, and_assoc,
        show o + 1 + as.length = o + (as.length + 1) by omega]

/-- It is what a segment holds. -/
theorem spells_iff_segment {o : Nat} {bs : List (BitVec 8)} :
    Spells m o bs ↔ segment m o bs.length = bs := by
  induction bs generalizing o with
  | nil => simp
  | cons b bs ih =>
      have hhead : segment m o (1 + bs.length) = m o :: segment m (o + 1) bs.length :=
        segment_add m o 1 bs.length
      rw [spells_cons, List.length_cons, Nat.add_comm bs.length, hhead, List.cons.injEq, ih]

theorem spells_store (m : Mem) (o : Nat) (bs : List (BitVec 8)) : Spells (store m o bs) o bs :=
  spells_iff_segment.mpr (segment_store_self m o bs)

end Spells

end ExtDrv.Memory
