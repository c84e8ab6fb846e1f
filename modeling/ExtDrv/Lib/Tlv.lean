import ExtDrv.Lib.Memory

/-!
# Elements behind each other

A byte for the kind, a byte for the length, and as many bytes of content. `offsets m len o` are
the elements that lie within the first `len` bytes, from `o` on: the first one
that does not fit ends the walk.
-/

namespace ExtDrv.Tlv

open Memory

/-- The offset behind the element at `o`. -/
def after (m : Mem) (o : Nat) : Nat := o + 2 + (m (o + 1)).toNat

def offsets (m : Mem) (len o : Nat) : List Nat :=
  if after m o ≤ len then o :: offsets m len (after m o) else []
termination_by len - o
decreasing_by
  unfold after at *
  omega

theorem offsets_of_le {m : Mem} {len o : Nat} (h : after m o ≤ len) :
    offsets m len o = o :: offsets m len (after m o) := by
  rw [offsets, if_pos h]

theorem offsets_of_gt {m : Mem} {len o : Nat} (h : len < after m o) : offsets m len o = [] := by
  rw [offsets, if_neg (Nat.not_le.mpr h)]

/-- They lie within. -/
theorem after_le_of_mem {m : Mem} {len o i : Nat} : i ∈ offsets m len o → after m i ≤ len := by
  induction o using offsets.induct m len with
  | case1 o h ih =>
    rw [offsets_of_le h]
    intro hi
    rcases List.mem_cons.mp hi with rfl | hi
    · exact h
    · exact ih hi
  | case2 o h =>
    rw [offsets_of_gt (Nat.not_le.mp h)]
    intro hi
    cases hi

/-- They are found by the first `len` bytes. -/
theorem offsets_congr {m m' : Mem} {len : Nat} (hm : ∀ i < len, m' i = m i) (o : Nat) :
    offsets m' len o = offsets m len o := by
  induction o using offsets.induct m len with
  | case1 o h ih =>
    have hafter : after m' o = after m o := by
      unfold after at h ⊢
      rw [hm (o + 1) (by omega)]
    rw [offsets_of_le h, offsets_of_le (hafter ▸ h), hafter, ih]
  | case2 o h =>
    rw [offsets_of_gt (Nat.not_le.mp h)]
    refine offsets_of_gt (Nat.not_le.mp fun h' => h ?_)
    unfold after at h' ⊢
    rwa [← hm (o + 1) (by omega)]

/-- They are behind each other. -/
theorem le_of_mem {m : Mem} {len o i : Nat} : i ∈ offsets m len o → o ≤ i := by
  induction o using offsets.induct m len with
  | case1 o h ih =>
    rw [offsets_of_le h]
    intro hi
    rcases List.mem_cons.mp hi with rfl | hi
    · exact Nat.le_refl _
    · have hle := ih hi
      unfold after at hle
      omega
  | case2 o h =>
    rw [offsets_of_gt (Nat.not_le.mp h)]
    intro hi
    cases hi

theorem nodup_offsets (m : Mem) (len o : Nat) : (offsets m len o).Nodup := by
  induction o using offsets.induct m len with
  | case1 o h ih =>
    rw [offsets_of_le h, List.nodup_cons]
    refine ⟨fun hmem => ?_, ih⟩
    have hle := le_of_mem hmem
    unfold after at hle
    omega
  | case2 o h =>
    rw [offsets_of_gt (Nat.not_le.mp h)]
    exact List.nodup_nil

/-- From `o` on there are elements up to the end. -/
inductive Whole (m : Mem) (len : Nat) : Nat → Prop
  | done : Whole m len len
  | element {o : Nat} : after m o ≤ len → Whole m len (after m o) → Whole m len o

/-- One more element behind them. -/
theorem Whole.snoc {m m' : Mem} {len len' o : Nat} (hw : Whole m len o)
    (hm : ∀ i < len, m' i = m i) (hlen : after m' len = len') : Whole m' len' o := by
  induction hw with
  | done =>
    refine .element (Nat.le_of_eq hlen) ?_
    rw [hlen]
    exact .done
  | @element o hle _ ih =>
    have hafter : after m' o = after m o := by
      unfold after at hle ⊢
      rw [hm (o + 1) (by omega)]
    have hgrow : len ≤ len' := by
      unfold after at hlen
      omega
    refine .element (by omega) ?_
    rw [hafter]
    exact ih

end ExtDrv.Tlv
