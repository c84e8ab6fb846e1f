import Mathlib.Data.List.Basic
import Mathlib.Data.List.TakeWhile

/-!
# Numerals

The numerals of a base over any alphabet: `digit` gives the value of a
character that is a digit. The grammar adds a digit at the end, as numerals
are defined; a program reads them from the front with an accumulator
(`Extends`), and the two agree.

The conversion `%0wd` of C: the decimal digits of an integer, with zeros in
front up to a width `w` and the sign before them. A number that is not negative is
read back from its digits, so where it is followed by a character that is no
digit, the text determines it.
-/

namespace ExtDrv.Numerals

variable {β : Type*} (digit : β → Option ℕ) (base : ℕ)

/-- `s` is a non-empty numeral that denotes `n`. -/
inductive Numeral : List β → ℕ → Prop
  | single {c : β} {d : ℕ} (hc : digit c = some d) : Numeral [c] d
  | snoc {s : List β} {n : ℕ} {c : β} {d : ℕ} (hs : Numeral s n) (hc : digit c = some d) :
      Numeral (s ++ [c]) (base * n + d)

/-- Reading the digits `s` from the front takes an accumulator from `a` to `v`. -/
inductive Extends : ℕ → List β → ℕ → Prop
  | nil (a : ℕ) : Extends a [] a
  | cons {a d v : ℕ} {c : β} {s : List β} (hc : digit c = some d)
      (hs : Extends (base * a + d) s v) : Extends a (c :: s) v

variable {digit base} {a d v n : ℕ} {c : β} {s t : List β}

@[simp] theorem extends_nil : Extends digit base a [] v ↔ a = v := by
  constructor
  · rintro ⟨⟩
    rfl
  · rintro rfl
    exact .nil a

theorem extends_cons : Extends digit base a (c :: s) v ↔
    ∃ d, digit c = some d ∧ Extends digit base (base * a + d) s v := by
  constructor
  · rintro (_ | ⟨hc, hs⟩)
    exact ⟨_, hc, hs⟩
  · rintro ⟨d, hc, hs⟩
    exact .cons hc hs

theorem Extends.snoc (h : Extends digit base a s v) (hc : digit c = some d) :
    Extends digit base a (s ++ [c]) (base * v + d) := by
  induction h with
  | nil a => exact .cons hc (.nil _)
  | cons hd _ ih => exact .cons hd ih

/-- The accumulator never goes down, so one that is too large stays so. -/
theorem Extends.le (hbase : 0 < base) (h : Extends digit base a s v) : a ≤ v := by
  induction h with
  | nil a => exact Nat.le_refl a
  | @cons a d v c s hc hs ih =>
    have hmul : a ≤ base * a := Nat.le_mul_of_pos_left a hbase
    omega

/-- A numeral with more digits read after it. -/
theorem Numeral.extend (h : Numeral digit base s n) (ht : Extends digit base n t v) :
    Numeral digit base (s ++ t) v := by
  induction ht generalizing s with
  | nil n => rwa [List.append_nil]
  | @cons n d v c t hc ht ih =>
    have hnext := ih (h.snoc hc)
    rwa [List.append_assoc, List.singleton_append] at hnext

/-- **Reading from the front accepts the numerals**, each with its value. -/
theorem numeral_iff : Numeral digit base s v ↔ s ≠ [] ∧ Extends digit base 0 s v := by
  constructor
  · intro h
    induction h with
    | single hc => exact ⟨by simp, .cons hc (by simp)⟩
    | snoc _ hc ih => exact ⟨by simp, ih.2.snoc hc⟩
  · rintro ⟨hne, h⟩
    cases h with
    | nil => exact absurd rfl hne
    | @cons a d v c s hc hs =>
      rw [Nat.mul_zero, Nat.zero_add] at hs
      exact (Numeral.single hc).extend hs

end ExtDrv.Numerals

namespace ExtDrv.Decimal

/-- `%0wd`. -/
def fmtD (w : ℕ) (i : Int) : List Char :=
  let ds := Nat.toDigits 10 i.natAbs
  if i < 0 then '-' :: (List.replicate (w - 1 - ds.length) '0' ++ ds)
  else List.replicate (w - ds.length) '0' ++ ds

variable {w v n m : ℕ}

theorem fmtD_natCast : fmtD w n =
    List.replicate (w - (Nat.toDigits 10 n).length) '0' ++ Nat.toDigits 10 n := by
  simp only [fmtD, Int.natAbs_natCast]
  rw [if_neg (Int.not_lt.mpr (Int.natCast_nonneg n))]

theorem isDigit_of_mem_fmtD {c : Char} (h : c ∈ fmtD w n) : c.isDigit := by
  rw [fmtD_natCast, List.mem_append] at h
  rcases h with hzero | hdigit
  · rw [List.eq_of_mem_replicate hzero]
    decide
  · exact Nat.isDigit_of_mem_toDigits (by decide) (by decide) hdigit

@[simp] theorem ofDigitChars_fmtD : Nat.ofDigitChars 10 (fmtD w n) 0 = n := by
  simp [fmtD_natCast, Nat.ofDigitChars_append]

/-- The digits in front of a character that is none. -/
theorem takeWhile_fmtD {c : Char} (hc : c.isDigit = false) (rest : List Char) :
    (fmtD w n ++ c :: rest).takeWhile Char.isDigit = fmtD w n := by
  rw [List.takeWhile_append_of_pos fun d hd => isDigit_of_mem_fmtD hd,
    List.takeWhile_cons_of_neg (by simp [hc]), List.append_nil]

/-- **The text determines the number.** -/
theorem eq_of_fmtD_append {c : Char} (hc : c.isDigit = false) {r s : List Char}
    (h : fmtD w n ++ c :: r = fmtD v m ++ c :: s) : n = m := by
  have hd : fmtD w n = fmtD v m := by
    rw [← takeWhile_fmtD hc r, h, takeWhile_fmtD hc s]
  rw [← ofDigitChars_fmtD (w := w) (n := n), hd, ofDigitChars_fmtD]

end ExtDrv.Decimal
