import ExtDrv.Lib.Numerals
import Mathlib.Data.BitVec

/-!
# The number argument of the test tools (`strfunc.c`)

`StrToNumber` turns a command line argument into a 32-bit number: a decimal
one, or one in hexadecimal digits after `0x` or `0X`. Its two loops differ in
the digits they take and in how they find that there is room for one more, so
they are instances of one loop, and what makes the loop exact is asked of the
instance.
-/

namespace ExtDrv.GpioI2c

open Numerals

/-- A character constant as a byte. -/
def chr (c : Char) : BitVec 8 := BitVec.ofNat 8 c.toNat

/-- The characters of a C string, up to the terminator. -/
def cstr (str : List (BitVec 8)) : List (BitVec 8) := str.takeWhile (· ≠ 0)

/-! ## The source -/

def isdigit (c : BitVec 8) : Bool := chr '0' ≤ c && c ≤ chr '9'

def toupper (c : BitVec 8) : BitVec 8 :=
  if chr 'a' ≤ c ∧ c ≤ chr 'z' then c - 0x20 else c

/-- The loop of `atoul` and `atoulx`: the return value and what is stored in
`*pulValue`. The end of the list is a terminator too. -/
def digitLoop (takes : BitVec 8 → Bool) (fits : BitVec 32 → BitVec 8 → Bool)
    (next : BitVec 32 → BitVec 8 → BitVec 32) : List (BitVec 8) → BitVec 32 → Int × BitVec 32
  | [], ulResult => (0, ulResult)
  | c :: str, ulResult =>
      if c = 0 then (0, ulResult)
      else if takes c then
        if fits ulResult c then digitLoop takes fits next str (next ulResult c)
        else (-1, ulResult)
      else (-1, ulResult)

def atoul (str : List (BitVec 8)) : Int × BitVec 32 :=
  digitLoop isdigit
    (fun ulResult c => ulResult < 429496729 || (ulResult == 429496729 && c < chr '6'))
    (fun ulResult c => ulResult * 10 + c.zeroExtend 32 - 48) str 0

/-- `ASC2NUM` or `HEXASC2NUM` of an upper case digit. -/
def hexNum (ch : BitVec 8) : BitVec 32 :=
  if ch ≤ chr '9' then ch.zeroExtend 32 - (chr '0').zeroExtend 32
  else ch.zeroExtend 32 - (chr 'A').zeroExtend 32 + 10

def atoulx (str : List (BitVec 8)) : Int × BitVec 32 :=
  digitLoop
    (fun c => isdigit (toupper c) || (chr 'A' ≤ toupper c && toupper c ≤ chr 'F'))
    (fun ulResult _ => ulResult < 0x10000000)
    (fun ulResult c => ulResult <<< 4 + hexNum (toupper c)) str 0

/-- The return value, and what is stored in `*pulValue` if anything is. -/
def StrToNumber (str : List (BitVec 8)) : Int × Option (BitVec 32) :=
  if str.getD 0 0 = chr '0' ∧ (str.getD 1 0 = chr 'x' ∨ str.getD 1 0 = chr 'X') then
    if str.getD 2 0 = 0 then (-1, none)
    else ((atoulx (str.drop 2)).1, some (atoulx (str.drop 2)).2)
  else ((atoul str).1, some (atoul str).2)

/-! ## The grammar -/

/-- The value of a decimal digit. -/
def decDigit (c : BitVec 8) : Option ℕ :=
  if chr '0' ≤ c ∧ c ≤ chr '9' then some (c.toNat - '0'.toNat) else none

/-- The value of a hexadecimal digit. -/
def hexDigit (c : BitVec 8) : Option ℕ :=
  if chr '0' ≤ c ∧ c ≤ chr '9' then some (c.toNat - '0'.toNat)
  else if chr 'a' ≤ c ∧ c ≤ chr 'f' then some (c.toNat - 'a'.toNat + 10)
  else if chr 'A' ≤ c ∧ c ≤ chr 'F' then some (c.toNat - 'A'.toNat + 10)
  else none

/-- The strings that denote a 32-bit number, each with its number. -/
inductive Literal : List (BitVec 8) → ℕ → Prop
  | dec {s : List (BitVec 8)} {n : ℕ} (hs : Numeral decDigit 10 s n) (hn : n ≤ 2 ^ 32 - 1) :
      Literal s n
  | hex {x : BitVec 8} {s : List (BitVec 8)} {n : ℕ} (hx : x = chr 'x' ∨ x = chr 'X')
      (hs : Numeral hexDigit 16 s n) (hn : n ≤ 2 ^ 32 - 1) : Literal (chr '0' :: x :: s) n

/-- `StrToNumber` succeeds on `str` with the value `n`. -/
def Succeeds (str : List (BitVec 8)) (n : ℕ) : Prop :=
  ∃ v : BitVec 32, StrToNumber str = (0, some v) ∧ v.toNat = n

/-- On `str` the grammar is met exactly: success with the value denoted, and
failure where none is. -/
structure Exact (str : List (BitVec 8)) : Prop where
  succeeds (n : ℕ) : Succeeds str n ↔ Literal (cstr str) n
  fails : (¬ ∃ n, Literal (cstr str) n) → (StrToNumber str).1 = -1

/-! ## The loop -/

/-- What makes the loop exact for the digits `digit` of `base`: it takes the
digits, finds room exactly where the next value fits 32 bits, and computes it
then. -/
structure ReadsDigits (digit : BitVec 8 → Option ℕ) (base : ℕ) (takes : BitVec 8 → Bool)
    (fits : BitVec 32 → BitVec 8 → Bool) (next : BitVec 32 → BitVec 8 → BitVec 32) : Prop where
  base_pos : 0 < base
  takes (c : BitVec 8) : takes c = (digit c).isSome
  fits {c : BitVec 8} {d : ℕ} (r : BitVec 32) : digit c = some d →
    (fits r c = true ↔ base * r.toNat + d < 2 ^ 32)
  next {c : BitVec 8} {d : ℕ} {r : BitVec 32} : digit c = some d →
    base * r.toNat + d < 2 ^ 32 → (next r c).toNat = base * r.toNat + d

variable {digit : BitVec 8 → Option ℕ} {base : ℕ} {takes : BitVec 8 → Bool}
  {fits : BitVec 32 → BitVec 8 → Bool} {next : BitVec 32 → BitVec 8 → BitVec 32}

theorem cstr_cons {c : BitVec 8} (hc : c ≠ 0) (str : List (BitVec 8)) :
    cstr (c :: str) = c :: cstr str :=
  List.takeWhile_cons_of_pos (by simpa using hc)

/-- **The loop reads the digits**: it succeeds exactly where they extend the
accumulator to the value stored. -/
theorem digitLoop_iff (h : ReadsDigits digit base takes fits next) (str : List (BitVec 8))
    (r v : BitVec 32) : digitLoop takes fits next str r = (0, v) ↔
      Extends digit base r.toNat (cstr str) v.toNat := by
  induction str generalizing r with
  | nil => simp [digitLoop, cstr, BitVec.toNat_inj]
  | cons c str ih =>
    by_cases hc : c = 0
    · simp [digitLoop, cstr, hc, BitVec.toNat_inj]
    rw [digitLoop, if_neg hc, cstr_cons hc, extends_cons, h.takes]
    cases hd : digit c with
    | none => simp
    | some d =>
      rw [if_pos (by simp)]
      by_cases hfit : base * r.toNat + d < 2 ^ 32
      · rw [if_pos ((h.fits r hd).mpr hfit), ih, h.next hd hfit]
        simp
      · -- no value of 32 bits comes after one that is too large
        rw [if_neg (mt (h.fits r hd).mp hfit)]
        simp only [Option.some.injEq, exists_eq_left', Prod.mk.injEq]
        constructor
        · rintro ⟨hret, -⟩
          exact absurd hret (by decide)
        · intro hs
          exact absurd ((hs.le h.base_pos).trans_lt v.isLt) hfit

theorem digitLoop_ret (takes : BitVec 8 → Bool) (fits : BitVec 32 → BitVec 8 → Bool)
    (next : BitVec 32 → BitVec 8 → BitVec 32) (str : List (BitVec 8)) (r : BitVec 32) :
    (digitLoop takes fits next str r).1 = 0 ∨ (digitLoop takes fits next str r).1 = -1 := by
  induction str generalizing r with
  | nil => exact .inl rfl
  | cons c str ih =>
    unfold digitLoop
    split_ifs
    · exact .inl rfl
    · exact ih _
    · exact .inr rfl
    · exact .inr rfl

/-- Read from 0, with the value as a natural number. -/
theorem digitLoop_zero_iff (h : ReadsDigits digit base takes fits next) (str : List (BitVec 8))
    (n : ℕ) : (∃ v : BitVec 32, digitLoop takes fits next str 0 = (0, v) ∧ v.toNat = n) ↔
      Extends digit base 0 (cstr str) n ∧ n ≤ 2 ^ 32 - 1 := by
  constructor
  · rintro ⟨v, hv, rfl⟩
    have hlt := v.isLt
    exact ⟨(digitLoop_iff h str 0 v).mp hv, by omega⟩
  · rintro ⟨hs, hn⟩
    have hv : (BitVec.ofNat 32 n).toNat = n := by
      rw [BitVec.toNat_ofNat]
      omega
    refine ⟨BitVec.ofNat 32 n, (digitLoop_iff h str 0 _).mpr ?_, hv⟩
    rwa [hv]

/-! ## The two instances -/

theorem decDigit_eq_some {c : BitVec 8} {d : ℕ} (h : decDigit c = some d) :
    d < 10 ∧ c.toNat = d + 48 := by
  unfold decDigit at h
  split at h
  · rename_i hc
    have hlo : (chr '0').toNat ≤ c.toNat := hc.1
    have hhi : c.toNat ≤ (chr '9').toNat := hc.2
    have h0 : (chr '0').toNat = 48 := by decide
    have h9 : (chr '9').toNat = 57 := by decide
    have hz : '0'.toNat = 48 := by decide
    have hd := Option.some.inj h
    omega
  · exact absurd h (by simp)

theorem readsDigits_dec : ReadsDigits decDigit 10 isdigit
    (fun ulResult c => ulResult < 429496729 || (ulResult == 429496729 && c < chr '6'))
    (fun ulResult c => ulResult * 10 + c.zeroExtend 32 - 48) where
  base_pos := by decide
  takes c := by
    unfold isdigit decDigit
    split <;> simp_all
  fits {c d} r hd := by
    obtain ⟨hlt, hc⟩ := decDigit_eq_some hd
    have h6 : (chr '6').toNat = 54 := by decide
    have hmax : (429496729 : BitVec 32).toNat = 429496729 := by decide
    simp only [Bool.or_eq_true, Bool.and_eq_true, decide_eq_true_eq, beq_iff_eq,
      BitVec.lt_def, ← BitVec.toNat_inj, h6, hmax]
    omega
  next {c d r} hd hfit := by
    obtain ⟨hlt, hc⟩ := decDigit_eq_some hd
    have h10 : (10 : BitVec 32).toNat = 10 := by decide
    have h48 : (48 : BitVec 32).toNat = 48 := by decide
    -- the sum may wrap before 48 is taken off again
    simp only [BitVec.toNat_sub, BitVec.toNat_add, BitVec.toNat_mul, BitVec.truncate_eq_setWidth,
      BitVec.toNat_setWidth, h10, h48]
    omega

theorem hexDigit_hexNum : ∀ c : BitVec 8, ∀ d ∈ hexDigit c,
    d < 16 ∧ (hexNum (toupper c)).toNat = d := by
  decide

theorem takes_hex : ∀ c : BitVec 8,
    (isdigit (toupper c) || (chr 'A' ≤ toupper c && toupper c ≤ chr 'F')) = (hexDigit c).isSome := by
  decide

theorem readsDigits_hex : ReadsDigits hexDigit 16
    (fun c => isdigit (toupper c) || (chr 'A' ≤ toupper c && toupper c ≤ chr 'F'))
    (fun ulResult _ => ulResult < 0x10000000)
    (fun ulResult c => ulResult <<< 4 + hexNum (toupper c)) where
  base_pos := by decide
  takes := takes_hex
  fits {c d} r hd := by
    have hlt := (hexDigit_hexNum c d hd).1
    have hmax : (0x10000000 : BitVec 32).toNat = 268435456 := by decide
    simp only [decide_eq_true_eq, BitVec.lt_def, hmax]
    omega
  next {c d r} hd hfit := by
    have hnum := (hexDigit_hexNum c d hd).2
    rw [BitVec.toNat_add, hnum, BitVec.toNat_shiftLeft, Nat.shiftLeft_eq]
    omega

/-! ## The two kinds of argument -/

/-- The argument is one of `0x…` or `0X…`. -/
def HexPrefix (str : List (BitVec 8)) : Prop :=
  str.getD 0 0 = chr '0' ∧ (str.getD 1 0 = chr 'x' ∨ str.getD 1 0 = chr 'X')

instance (str : List (BitVec 8)) : Decidable (HexPrefix str) :=
  inferInstanceAs (Decidable (_ ∧ _))

theorem cstr_eq_nil_iff {str : List (BitVec 8)} : cstr str = [] ↔ str.getD 0 0 = 0 := by
  cases str with
  | nil => simp [cstr]
  | cons c str =>
    by_cases hc : c = 0
    · simp [cstr, hc]
    · rw [cstr_cons hc]
      exact iff_of_false (List.cons_ne_nil _ _) hc

/-- A string in hexadecimal begins with its prefix. -/
theorem HexPrefix.cstr_eq {str : List (BitVec 8)} (h : HexPrefix str) :
    ∃ x, (x = chr 'x' ∨ x = chr 'X') ∧ cstr str = chr '0' :: x :: cstr (str.drop 2) := by
  obtain ⟨h0, hx⟩ := h
  match str, h0, hx with
  | c :: x :: str, h0, hx =>
    have hc : c = chr '0' := h0
    have hx' : x = chr 'x' ∨ x = chr 'X' := hx
    have hxne : x ≠ 0 := by
      rcases hx' with rfl | rfl <;> decide
    exact ⟨x, hx', by rw [hc, cstr_cons (by decide), cstr_cons hxne]; rfl⟩
  | [c], _, hx =>
    have hno : ¬ ((0 : BitVec 8) = chr 'x' ∨ (0 : BitVec 8) = chr 'X') := by decide
    exact absurd hx hno
  | [], h0, _ => exact absurd h0 (by decide)

theorem hexPrefix_of_cstr {str s : List (BitVec 8)} {x : BitVec 8}
    (hx : x = chr 'x' ∨ x = chr 'X') (h : cstr str = chr '0' :: x :: s) : HexPrefix str := by
  obtain ⟨rest, hrest⟩ := List.takeWhile_prefix (l := str) (fun c : BitVec 8 => c ≠ 0)
  have hstr : str = chr '0' :: x :: (s ++ rest) := by
    rw [← hrest]
    exact congrArg (· ++ rest) h
  rw [hstr]
  exact ⟨rfl, hx⟩

/-- A string with the prefix is no decimal numeral. -/
theorem literal_hex_iff {s : List (BitVec 8)} {x : BitVec 8} {n : ℕ}
    (hx : x = chr 'x' ∨ x = chr 'X') :
    Literal (chr '0' :: x :: s) n ↔ s ≠ [] ∧ Extends hexDigit 16 0 s n ∧ n ≤ 2 ^ 32 - 1 := by
  have hnone : decDigit x = none := by
    rcases hx with rfl | rfl <;> decide
  constructor
  · intro h
    cases h with
    | dec hs hn =>
      obtain ⟨_, hs⟩ := numeral_iff.mp hs
      obtain ⟨d, -, hs⟩ := extends_cons.mp hs
      obtain ⟨e, he, -⟩ := extends_cons.mp hs
      rw [hnone] at he
      cases he
    | hex _ hs hn =>
      obtain ⟨hne, hs⟩ := numeral_iff.mp hs
      exact ⟨hne, hs, hn⟩
  · rintro ⟨hne, hs, hn⟩
    exact .hex hx (numeral_iff.mpr ⟨hne, hs⟩) hn

theorem literal_dec_iff {str : List (BitVec 8)} {n : ℕ} (hno : ¬ HexPrefix str) :
    Literal (cstr str) n ↔
      cstr str ≠ [] ∧ Extends decDigit 10 0 (cstr str) n ∧ n ≤ 2 ^ 32 - 1 := by
  constructor
  · intro h
    generalize hs : cstr str = s at h
    cases h with
    | dec hs' hn =>
      obtain ⟨hne, hs'⟩ := numeral_iff.mp hs'
      exact ⟨hne, hs', hn⟩
    | hex hx _ _ => exact absurd (hexPrefix_of_cstr hx hs) hno
  · rintro ⟨hne, hs, hn⟩
    exact .dec (numeral_iff.mpr ⟨hne, hs⟩) hn

/-! ## What `StrToNumber` accepts -/

theorem stored_iff {r : Int × BitVec 32} {v : BitVec 32} :
    (r.1, some r.2) = ((0 : Int), some v) ↔ r = (0, v) := by
  simp [Prod.ext_iff]

theorem strToNumber_of_hex {str : List (BitVec 8)} (h : HexPrefix str) :
    StrToNumber str = if str.getD 2 0 = 0 then (-1, none)
      else ((atoulx (str.drop 2)).1, some (atoulx (str.drop 2)).2) :=
  if_pos h

theorem strToNumber_of_dec {str : List (BitVec 8)} (h : ¬ HexPrefix str) :
    StrToNumber str = ((atoul str).1, some (atoul str).2) :=
  if_neg h

theorem succeeds_hex_iff {str : List (BitVec 8)} {n : ℕ} (h : HexPrefix str) :
    Succeeds str n ↔ Literal (cstr str) n := by
  obtain ⟨x, hx, hcstr⟩ := h.cstr_eq
  have hsecond : cstr (str.drop 2) = [] ↔ str.getD 2 0 = 0 := by
    rw [cstr_eq_nil_iff]
    simp
  rw [hcstr, literal_hex_iff hx, ← digitLoop_zero_iff readsDigits_hex, ne_eq, hsecond, Succeeds,
    strToNumber_of_hex h]
  split_ifs with hnil
  · constructor
    · rintro ⟨v, hv, -⟩
      have hret : (-1 : Int) = 0 := congrArg Prod.fst hv
      exact absurd hret (by decide)
    · rintro ⟨hne, -⟩
      exact absurd hnil hne
  · rw [and_iff_right hnil]
    simp only [stored_iff, atoulx]

/-- Without the prefix the loop decides alone. -/
theorem succeeds_dec_iff {str : List (BitVec 8)} {n : ℕ} (h : ¬ HexPrefix str) :
    Succeeds str n ↔ Extends decDigit 10 0 (cstr str) n ∧ n ≤ 2 ^ 32 - 1 := by
  rw [← digitLoop_zero_iff readsDigits_dec, Succeeds, strToNumber_of_dec h]
  simp only [stored_iff, atoul]

/-- What fails returns -1, and what does not succeeds with some value. -/
theorem strToNumber_ret (str : List (BitVec 8)) :
    (StrToNumber str).1 = -1 ∨ ∃ n, Succeeds str n := by
  unfold Succeeds StrToNumber
  split_ifs
  · exact .inl rfl
  · rcases digitLoop_ret _ _ _ (str.drop 2) 0 with hok | hfail
    · exact .inr ⟨_, _, Prod.ext hok rfl, rfl⟩
    · exact .inl hfail
  · rcases digitLoop_ret _ _ _ str 0 with hok | hfail
    · exact .inr ⟨_, _, Prod.ext hok rfl, rfl⟩
    · exact .inl hfail

/-- **The grammar is met on every string but the empty one.** -/
theorem strToNumber_exact_iff (str : List (BitVec 8)) : Exact str ↔ cstr str ≠ [] := by
  constructor
  · intro h hnil
    have hno : ¬ HexPrefix str := by
      rintro hpre
      obtain ⟨x, -, hcstr⟩ := hpre.cstr_eq
      rw [hnil] at hcstr
      cases hcstr
    have hzero : Succeeds str 0 := (succeeds_dec_iff hno).mpr (by simp [hnil])
    exact ((literal_dec_iff hno).mp ((h.succeeds 0).mp hzero)).1 hnil
  · intro hne
    have hsucc : ∀ n, Succeeds str n ↔ Literal (cstr str) n := by
      intro n
      by_cases hpre : HexPrefix str
      · exact succeeds_hex_iff hpre
      · rw [succeeds_dec_iff hpre, literal_dec_iff hpre]
        simp [hne]
    refine ⟨hsucc, fun hnone => ?_⟩
    rcases strToNumber_ret str with hfail | ⟨n, hn⟩
    · exact hfail
    · exact absurd ⟨n, (hsucc n).mp hn⟩ hnone

/-- The empty argument is taken for the number 0. -/
theorem strToNumber_exact_broken : ¬ ∀ str, Exact str := by
  intro h
  have hlit : Literal (cstr []) 0 := ((h []).succeeds 0).mp ⟨0, by decide, by decide⟩
  have hne := (literal_dec_iff (by decide)).mp hlit
  exact hne.1 rfl

end ExtDrv.GpioI2c
