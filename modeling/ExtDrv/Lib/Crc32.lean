import Mathlib.Data.BitVec
import Mathlib.Tactic.Common

/-!
# The 32-bit cyclic redundancy check

The remainder of a byte string, bit by bit, and by a table of 256 words: a division
step is linear, so that eight of them are a table entry for the low byte over the
other three bytes, moved down.
-/

namespace ExtDrv.Crc32

abbrev Byte := BitVec 8
abbrev Word := BitVec 32

/-! ## Bit by bit -/

/-- The generator, its coefficients reversed. -/
def generator : Word := 0xedb88320#32

/-- A division step. -/
def divide (r : Word) : Word := (r >>> 1) ^^^ if r.getLsbD 0 then generator else 0#32

def divides : Nat → Word → Word
  | 0, r => r
  | n + 1, r => divide (divides n r)

/-- The remainder after one byte more. -/
def take (r : Word) (b : Byte) : Word := divides 8 (r ^^^ b.setWidth 32)

/-- The check of a byte string: it starts with ones and is complemented. -/
def crc32 (bs : List Byte) : Word := bs.foldl take 0xffffffff#32 ^^^ 0xffffffff#32

/-! ## By a table -/

theorem divide_xor (a b : Word) : divide (a ^^^ b) = divide a ^^^ divide b := by
  have hlow : ∀ p q : Bool, (if (p != q) = true then generator else 0#32)
      = (if p then generator else 0#32) ^^^ if q then generator else 0#32 := by decide
  rw [divide, divide, divide, BitVec.getLsbD_xor, hlow, BitVec.ushiftRight_xor_distrib]
  ac_rfl

theorem divides_xor (n : Nat) (a b : Word) : divides n (a ^^^ b) = divides n a ^^^ divides n b := by
  induction n with
  | zero => rfl
  | succ n ih => rw [divides, divides, divides, ih, divide_xor]

/-- Where the low bits are clear the remainder only moves down. -/
theorem divides_of_clear {r : Word} {n : Nat} (h : ∀ i, i < n → r.getLsbD i = false) :
    divides n r = r >>> n := by
  induction n with
  | zero => simp [divides]
  | succ n ih =>
    have hbit : (r >>> n).getLsbD 0 = false := by
      rw [BitVec.getLsbD_ushiftRight]
      exact h n (Nat.lt_succ_self n)
    rw [divides, ih fun i hi => h i (Nat.lt_succ_of_lt hi), divide, hbit, if_neg Bool.false_ne_true,
      BitVec.xor_zero, ← BitVec.shiftRight_add]

/-- The low byte, and the rest. -/
theorem eq_low_xor_high (r : Word) : r = (r &&& 0xff#32) ^^^ (r &&& 0xffffff00#32) := by
  have hmask : 0xffffff00#32 = ~~~0xff#32 := by decide
  rw [hmask]
  ext i hi
  rw [BitVec.getElem_xor, BitVec.getElem_and, BitVec.getElem_and, BitVec.getElem_not]
  cases r[i] <;> cases (0xff#32)[i] <;> rfl

theorem high_clear (r : Word) {i : Nat} (hi : i < 8) : (r &&& 0xffffff00#32).getLsbD i = false := by
  have hmask : ∀ i, i < 8 → (0xffffff00#32).getLsbD i = false := by decide
  rw [BitVec.getLsbD_and, hmask i hi, Bool.and_false]

theorem high_shift (r : Word) : (r &&& 0xffffff00#32) >>> 8 = r >>> 8 := by
  have hmask : 0xffffff00#32 >>> 8 = BitVec.allOnes 32 >>> 8 := by decide
  rw [BitVec.ushiftRight_and_distrib, hmask, ← BitVec.ushiftRight_and_distrib, BitVec.and_allOnes]

/-- **A byte by the table**: the entry for the low byte of the sum, over the rest. -/
theorem divides_eight (r : Word) : divides 8 r = (r >>> 8) ^^^ divides 8 (r &&& 0xff#32) := by
  have hhigh := divides_of_clear fun i (hi : i < 8) => high_clear r hi
  calc divides 8 r
      = divides 8 ((r &&& 0xff#32) ^^^ (r &&& 0xffffff00#32)) := by rw [← eq_low_xor_high]
    _ = divides 8 (r &&& 0xff#32) ^^^ (r >>> 8) := by rw [divides_xor, hhigh, high_shift]
    _ = (r >>> 8) ^^^ divides 8 (r &&& 0xff#32) := BitVec.xor_comm _ _

/-- The byte that is taken does not reach the rest. -/
theorem take_eq (r : Word) (b : Byte) :
    take r b = (r >>> 8) ^^^ divides 8 ((r ^^^ b.setWidth 32) &&& 0xff#32) := by
  have hbyte : b.setWidth 32 >>> 8 = 0#32 := by
    apply BitVec.eq_of_toNat_eq
    simp only [BitVec.toNat_ushiftRight, BitVec.toNat_setWidth, Nat.shiftRight_eq_div_pow,
      BitVec.toNat_ofNat]
    have hb := b.isLt
    omega
  rw [take, divides_eight, BitVec.ushiftRight_xor_distrib, hbyte, BitVec.xor_zero]

end ExtDrv.Crc32
