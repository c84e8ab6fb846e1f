import Mathlib.Data.BitVec
import Mathlib.Tactic.Ring

/-!
# Bit fields of a register

A field is `len` bits from bit `lo` up. `setField` is the read-modify-write
idiom `reg &= ~(mask << lo); reg |= (v & mask) << lo`, `getField` reads the
field back. A field reads what was last written to it, and is not touched
by a write to a field that does not overlap it.
-/

namespace ExtDrv.RegField

variable {w : Nat}

/-- `len` low one bits. -/
def mask (w len : Nat) : BitVec w := BitVec.ofNat w (2 ^ len - 1)

/-- `(reg >> lo) & mask`. -/
def getField (lo len : Nat) (reg : BitVec w) : BitVec w := (reg >>> lo) &&& mask w len

/-- `reg &= ~(mask << lo); reg |= (v & mask) << lo`. -/
def setField (lo len : Nat) (v reg : BitVec w) : BitVec w :=
  (reg &&& ~~~(mask w len <<< lo)) ||| ((v &&& mask w len) <<< lo)

theorem getLsbD_mask (len i : Nat) :
    (mask w len).getLsbD i = (decide (i < w) && decide (i < len)) := by
  simp [mask, BitVec.getLsbD_ofNat, Nat.testBit_two_pow_sub_one]

@[simp] theorem getElem_mask (len i : Nat) (h : i < w) :
    (mask w len)[i] = decide (i < len) := by
  rw [← BitVec.getLsbD_eq_getElem, getLsbD_mask]
  simp [h]

theorem getLsbD_getField (lo len i : Nat) (reg : BitVec w) :
    (getField lo len reg).getLsbD i = (reg.getLsbD (lo + i) && decide (i < len)) := by
  by_cases hi : i < w
  · simp [getField, hi]
  · have h1 : (getField lo len reg).getLsbD i = false := BitVec.getLsbD_of_ge _ _ (by omega)
    have h2 : reg.getLsbD (lo + i) = false := BitVec.getLsbD_of_ge _ _ (by omega)
    rw [h1, h2, Bool.false_and]

theorem getLsbD_setField (lo len i : Nat) (v reg : BitVec w) :
    (setField lo len v reg).getLsbD i
      = if lo ≤ i ∧ i < lo + len then decide (i < w) && v.getLsbD (i - lo)
        else reg.getLsbD i := by
  by_cases hi : i < w
  · by_cases hlo : i < lo
    · have h1 : ¬ (lo ≤ i ∧ i < lo + len) := by omega
      simp [setField, hi, hlo]
    · by_cases hlen : i < lo + len
      · have h1 : lo ≤ i ∧ i < lo + len := by omega
        have h2 : i - lo < len := by omega
        have h3 : i - lo < w := by omega
        simp [setField, hi, hlo, h1, h2, h3]
      · have h1 : ¬ (lo ≤ i ∧ i < lo + len) := by omega
        have h2 : ¬ i - lo < len := by omega
        simp [setField, hi, hlo, h1, h2]
  · have h1 : (setField lo len v reg).getLsbD i = false := BitVec.getLsbD_of_ge _ _ (by omega)
    have h2 : reg.getLsbD i = false := BitVec.getLsbD_of_ge _ _ (by omega)
    simp [h1, h2, hi]

/-- A field reads back what was written to it. -/
theorem getField_setField_self {lo len : Nat} (h : lo + len ≤ w) (v reg : BitVec w) :
    getField lo len (setField lo len v reg) = v &&& mask w len := by
  apply BitVec.eq_of_getLsbD_eq
  intro i hi
  rw [getLsbD_getField, getLsbD_setField, BitVec.getLsbD_and, getLsbD_mask]
  -- bits past the field read as zero on both sides
  by_cases hlen : i < len
  · have h1 : lo ≤ lo + i ∧ lo + i < lo + len := by omega
    have h2 : lo + i < w := by omega
    have h3 : lo + i - lo = i := by omega
    simp [h1, h2, h3, hi, hlen]
  · simp [hlen]

/-- A write to one field leaves a disjoint field alone. -/
theorem getField_setField_of_disjoint {lo len lo' len' : Nat}
    (h : lo + len ≤ lo' ∨ lo' + len' ≤ lo) (v reg : BitVec w) :
    getField lo len (setField lo' len' v reg) = getField lo len reg := by
  apply BitVec.eq_of_getLsbD_eq
  intro i hi
  rw [getLsbD_getField, getLsbD_getField, getLsbD_setField]
  by_cases hlen : i < len
  · have h1 : ¬ (lo' ≤ lo + i ∧ lo + i < lo' + len') := by omega
    rw [if_neg h1]
  · simp [hlen]

/-! ## Fields of a narrower register -/

/-- The low bits of a word are all of it exactly when it is small. -/
theorem and_mask_eq_self_iff {n : Nat} (h : n < w) (reg : BitVec w) :
    reg &&& mask w n = reg ↔ reg.toNat < 2 ^ n := by
  have hmask : (mask w n).toNat = 2 ^ n - 1 := by
    have hlt : 2 ^ n < 2 ^ w := Nat.pow_lt_pow_right (by decide) h
    rw [mask, BitVec.toNat_ofNat, Nat.mod_eq_of_lt ((Nat.sub_le _ _).trans_lt hlt)]
  rw [← BitVec.toNat_inj, BitVec.toNat_and, hmask, Nat.and_two_pow_sub_one_eq_mod]
  constructor
  · intro heq
    rw [← heq]
    exact Nat.mod_lt _ (Nat.two_pow_pos n)
  · exact Nat.mod_eq_of_lt

/-- A field among the low bits is set in them. -/
theorem setField_and_mask {lo len n : Nat} (h : lo + len ≤ n) (v reg : BitVec w) :
    setField lo len v (reg &&& mask w n) = setField lo len v reg &&& mask w n := by
  apply BitVec.eq_of_getLsbD_eq
  intro i hi
  rw [BitVec.getLsbD_and, getLsbD_setField, getLsbD_setField, BitVec.getLsbD_and, getLsbD_mask]
  by_cases hfield : lo ≤ i ∧ i < lo + len
  · have hlow : i < n := by omega
    simp [hfield, hi, hlow]
  · rw [if_neg hfield, if_neg hfield]

/-- Setting a field among the low bits keeps a register within them. -/
theorem setField_lt_iff {lo len n : Nat} (h : lo + len ≤ n) (hn : n < w) (v reg : BitVec w) :
    (setField lo len v reg).toNat < 2 ^ n ↔ reg.toNat < 2 ^ n := by
  rw [← and_mask_eq_self_iff hn, ← and_mask_eq_self_iff hn, ← setField_and_mask h,
    BitVec.eq_of_getLsbD_eq_iff, BitVec.eq_of_getLsbD_eq_iff]
  apply forall_congr'
  intro i
  apply imp_congr_right
  intro hi
  rw [getLsbD_setField, getLsbD_setField, BitVec.getLsbD_and, getLsbD_mask]
  by_cases hfield : lo ≤ i ∧ i < lo + len
  · have hlow : i < n := by omega
    simp [hfield, hi, hlow]
  · rw [if_neg hfield, if_neg hfield]

/-- `reg = (reg & K) | (v << lo)`, where `K` keeps the low `n` bits but those of
the field: the field is set, and the bits above are lost. -/
theorem and_or_eq_setField (lo len n : Nat) {K v : BitVec w} (h : lo + len ≤ n)
    (hK : K = mask w n &&& ~~~(mask w len <<< lo)) (hv : v &&& mask w len = v) (reg : BitVec w) :
    reg &&& K ||| v <<< lo = setField lo len v reg &&& mask w n := by
  rw [← setField_and_mask h, setField, hv, hK, BitVec.and_assoc]

/-- `reg |= 1 << lo`. -/
theorem or_bit_eq_setField (lo : Nat) (reg : BitVec w) :
    reg ||| 1#w <<< lo = setField lo 1 1#w reg := by
  apply BitVec.eq_of_getLsbD_eq
  intro i hi
  rw [BitVec.getLsbD_or, BitVec.getLsbD_shiftLeft, getLsbD_setField, BitVec.getLsbD_one]
  by_cases hfield : lo ≤ i ∧ i < lo + 1
  · have hz : i = lo := by omega
    have hw : 0 < w := by omega
    simp [hz, hz ▸ hi, hw]
  · rw [if_neg hfield]
    by_cases hlo : i < lo
    · simp [hlo]
    · have hne : i - lo ≠ 0 := by omega
      simp [hlo, hne]

/-- `reg &= ~(1 << lo)`. -/
theorem and_not_bit_eq_setField (lo : Nat) (reg : BitVec w) :
    reg &&& ~~~(1#w <<< lo) = setField lo 1 0#w reg := by
  have hone : mask w 1 = 1#w := rfl
  rw [setField, hone, BitVec.zero_and, BitVec.zero_shiftLeft, BitVec.or_zero]

/-! ## Single bits -/

theorem getLsbD_or_bit (lo : Nat) {i : Nat} (hi : i < w) (reg : BitVec w) :
    (reg ||| 1#w <<< lo).getLsbD i = if i = lo then true else reg.getLsbD i := by
  rw [or_bit_eq_setField, getLsbD_setField, BitVec.getLsbD_one]
  by_cases heq : i = lo
  · subst heq
    have hpos : 0 < w := by omega
    simp [hi, hpos]
  · have hout : ¬ (lo ≤ i ∧ i < lo + 1) := by omega
    rw [if_neg hout, if_neg heq]

theorem getLsbD_and_not_bit (lo i : Nat) (reg : BitVec w) :
    (reg &&& ~~~(1#w <<< lo)).getLsbD i = if i = lo then false else reg.getLsbD i := by
  rw [and_not_bit_eq_setField, getLsbD_setField, BitVec.getLsbD_zero, Bool.and_false]
  by_cases heq : i = lo
  · simp [heq]
  · have hout : ¬ (lo ≤ i ∧ i < lo + 1) := by omega
    rw [if_neg hout, if_neg heq]

/-- `(reg & mask) == 0`. -/
theorem and_mask_eq_zero_iff (len : Nat) (reg : BitVec w) :
    reg &&& mask w len = 0#w ↔ ∀ i, i < len → reg.getLsbD i = false := by
  rw [BitVec.eq_of_getLsbD_eq_iff]
  constructor
  · intro h i hlen
    by_cases hw : i < w
    · have hbit := h i hw
      rw [BitVec.getLsbD_and, getLsbD_mask] at hbit
      simpa [hw, hlen] using hbit
    · exact BitVec.getLsbD_of_ge reg i (by omega)
  · intro h i _
    rw [BitVec.getLsbD_and, getLsbD_mask, BitVec.getLsbD_zero]
    by_cases hlen : i < len
    · simp [h i hlen]
    · simp [hlen]

/-! ## Masked writes -/

/-- `reg &= ~mask; reg |= v & mask`. -/
def maskWrite (mask v reg : BitVec w) : BitVec w := reg &&& ~~~mask ||| v &&& mask

/-- A masked write leaves the bits outside its mask alone. -/
theorem maskWrite_and_of_disjoint {mask other : BitVec w} (h : mask &&& other = 0#w)
    (v reg : BitVec w) : maskWrite mask v reg &&& other = reg &&& other := by
  apply BitVec.eq_of_getLsbD_eq
  intro i hi
  have hbit : (mask.getLsbD i && other.getLsbD i) = false := by
    rw [← BitVec.getLsbD_and, h, BitVec.getLsbD_zero]
  simp only [maskWrite, BitVec.getLsbD_and, BitVec.getLsbD_or, BitVec.getLsbD_not, hi]
  -- a bit of the mask is none of the others, so it is masked out on both sides
  cases hm : mask.getLsbD i
  · simp
  · rw [hm, Bool.true_and] at hbit
    simp [hbit]

/-- The bits inside the mask read back. -/
theorem maskWrite_and_of_subset {mask part : BitVec w} (h : mask &&& part = part)
    (v reg : BitVec w) : maskWrite mask v reg &&& part = v &&& part := by
  apply BitVec.eq_of_getLsbD_eq
  intro i hi
  have hbit : (mask.getLsbD i && part.getLsbD i) = part.getLsbD i := by
    rw [← BitVec.getLsbD_and, h]
  simp only [maskWrite, BitVec.getLsbD_and, BitVec.getLsbD_or, BitVec.getLsbD_not, hi]
  cases hm : mask.getLsbD i
  · rw [hm, Bool.false_and] at hbit
    simp [← hbit]
  · simp

/-- A field or-ed into a register reads back exactly when no other bit of it is
set. -/
theorem or_and_eq_iff (v e b : BitVec w) :
    (v ||| e) &&& b = e &&& b ↔ v &&& b &&& ~~~e = 0#w := by
  rw [BitVec.eq_of_getLsbD_eq_iff, BitVec.eq_of_getLsbD_eq_iff]
  apply forall_congr'
  intro i
  apply imp_congr_right
  intro hi
  simp only [BitVec.getLsbD_and, BitVec.getLsbD_or, BitVec.getLsbD_not, hi, BitVec.getLsbD_zero]
  cases v.getLsbD i <;> cases e.getLsbD i <;> cases b.getLsbD i <;> decide

end ExtDrv.RegField
