import Mathlib.Data.BitVec
import Mathlib.Tactic.Common
import Mathlib.Tactic.FinCases

/-!
# Substitution networks

A block cipher of rounds: each substitutes, shifts and mixes a state and adds a
round key, and the last one does not mix. Whatever the steps are, decryption by
their inverses, in the opposite order, undoes encryption under the same round keys.

The network over a square of bytes has rows that are turned and columns that are
multiplied by a circulant matrix over the field of 256 elements.

A table is packed into one number, so that a look-up is a division: a check over all bytes
runs on that.
-/

namespace ExtDrv.Rijndael

abbrev Byte := BitVec 8

/-! ## Tables -/

section Tables

variable {w : Nat}

/-- The entries of a table in one number, the first one lowest. -/
def packed (t : List (BitVec w)) : Nat := t.foldr (fun a n => a.toNat + 2 ^ w * n) 0

theorem packed_cons (a : BitVec w) (t : List (BitVec w)) :
    packed (a :: t) = a.toNat + 2 ^ w * packed t := rfl

theorem getD_packed (t : List (BitVec w)) (i : Nat) :
    t.getD i 0 = BitVec.ofNat w (packed t / 2 ^ (w * i)) := by
  induction t generalizing i with
  | nil => simp [packed]
  | cons a t ih =>
    cases i with
    | zero =>
      apply BitVec.eq_of_toNat_eq
      rw [packed_cons, List.getD_cons_zero, BitVec.toNat_ofNat, Nat.mul_zero, Nat.pow_zero,
        Nat.div_one, Nat.add_mul_mod_self_left, Nat.mod_eq_of_lt a.isLt]
    | succ i =>
      have hdiv : packed (a :: t) / 2 ^ (w * (i + 1)) = packed t / 2 ^ (w * i) := by
        rw [packed_cons, Nat.mul_succ, Nat.add_comm (w * i), Nat.pow_add, ← Nat.div_div_eq_div_mul,
          Nat.add_mul_div_left _ _ (Nat.two_pow_pos w), Nat.div_eq_of_lt a.isLt, Nat.zero_add]
      rw [List.getD_cons_succ, ih, hdiv]

end Tables

/-! ## Networks -/

/-- The steps of a round, and what undoes each. -/
structure Network (S : Type) where
  add : S → S → S
  sub : S → S
  shift : S → S
  mix : S → S
  unsub : S → S
  unshift : S → S
  unmix : S → S
  add_add : ∀ k s, add k (add k s) = s
  unsub_sub : ∀ s, unsub (sub s) = s
  unshift_shift : ∀ s, unshift (shift s) = s
  unmix_mix : ∀ s, unmix (mix s) = s

namespace Network

variable {S : Type} (N : Network S)

/-- The first `n` rounds that mix. -/
def rounds (k : Nat → S) (s : S) : Nat → S
  | 0 => s
  | n + 1 => N.add (k (n + 1)) (N.mix (N.shift (N.sub (rounds k s n))))

/-- `n + 1` rounds. -/
def encrypt (k : Nat → S) (n : Nat) (s : S) : S :=
  N.add (k (n + 1)) (N.shift (N.sub (N.rounds k (N.add (k 0) s) n)))

/-- The rounds that mix, undone from the last one on. -/
def unrounds (k : Nat → S) : Nat → S → S
  | 0, s => s
  | n + 1, s => unrounds k n (N.unmix (N.add (k (n + 1)) (N.unsub (N.unshift s))))

def decrypt (k : Nat → S) (n : Nat) (s : S) : S :=
  N.add (k 0) (N.unsub (N.unshift (N.unrounds k n (N.add (k (n + 1)) s))))

@[simp] theorem rounds_zero (k : Nat → S) (s : S) : N.rounds k s 0 = s := rfl

theorem rounds_succ (k : Nat → S) (s : S) (n : Nat) :
    N.rounds k s (n + 1) = N.add (k (n + 1)) (N.mix (N.shift (N.sub (N.rounds k s n)))) := rfl

/-- **A round is undone**: decryption meets the state of encryption, substituted and shifted. -/
theorem unrounds_rounds (k : Nat → S) (s : S) (n : Nat) :
    N.unrounds k n (N.shift (N.sub (N.rounds k s n))) = N.shift (N.sub s) := by
  induction n with
  | zero => rfl
  | succ n ih =>
    rw [unrounds, N.unshift_shift, N.unsub_sub, rounds_succ, N.add_add, N.unmix_mix, ih]

/-- **Decryption undoes encryption.** -/
theorem decrypt_encrypt (k : Nat → S) (n : Nat) (s : S) :
    N.decrypt k n (N.encrypt k n s) = s := by
  rw [decrypt, encrypt, N.add_add, unrounds_rounds, N.unshift_shift, N.unsub_sub, N.add_add]

/-- Only the keys of the rounds are read. -/
theorem rounds_congr {k k' : Nat → S} {n : Nat} (h : ∀ i, i ≤ n → k i = k' i) (s : S) :
    N.rounds k s n = N.rounds k' s n := by
  induction n with
  | zero => rfl
  | succ n ih =>
    rw [rounds_succ, rounds_succ, h (n + 1) le_rfl, ih fun i hi => h i (Nat.le_succ_of_le hi)]

theorem encrypt_congr {k k' : Nat → S} {n : Nat} (h : ∀ i, i ≤ n + 1 → k i = k' i) (s : S) :
    N.encrypt k n s = N.encrypt k' n s := by
  rw [encrypt, encrypt, h 0 (Nat.zero_le _), h (n + 1) le_rfl,
    N.rounds_congr fun i hi => h i (Nat.le_succ_of_le hi)]

end Network

/-! ## The field -/

/-- The product with `x`, reduced. -/
def xtime (a : Byte) : Byte := (a <<< 1) ^^^ if a.getLsbD 7 then 0x1b#8 else 0#8

/-- The product with a polynomial, its coefficients from the lowest on. -/
def mulBits : List Bool → Byte → Byte
  | [], _ => 0#8
  | b :: bs, a => (if b then a else 0#8) ^^^ mulBits bs (xtime a)

/-- The product of two elements. -/
def mul (c a : Byte) : Byte := mulBits ((List.range 8).map c.getLsbD) a

theorem xtime_xor (a b : Byte) : xtime (a ^^^ b) = xtime a ^^^ xtime b := by
  have htop : ∀ p q : Bool, (if (p != q) = true then 0x1b#8 else 0#8)
      = (if p then 0x1b#8 else 0#8) ^^^ if q then 0x1b#8 else 0#8 := by decide
  rw [xtime, xtime, xtime, BitVec.getLsbD_xor, htop, BitVec.shiftLeft_xor_distrib]
  ac_rfl

theorem mulBits_xor (bs : List Bool) (a b : Byte) :
    mulBits bs (a ^^^ b) = mulBits bs a ^^^ mulBits bs b := by
  induction bs generalizing a b with
  | nil => simp [mulBits]
  | cons c bs ih =>
    rw [mulBits, mulBits, mulBits, xtime_xor, ih]
    cases c
    · simp
    · simp only [if_true]
      ac_rfl

theorem mul_xor (c a b : Byte) : mul c (a ^^^ b) = mul c a ^^^ mul c b := mulBits_xor _ a b

/-- The sum of the powers whose coefficients are set. -/
theorem mul_eq (c a : Byte) : mul c a = (if c.getLsbD 0 then a else 0#8)
    ^^^ (if c.getLsbD 1 then xtime a else 0#8) ^^^ (if c.getLsbD 2 then xtime (xtime a) else 0#8)
    ^^^ (if c.getLsbD 3 then xtime (xtime (xtime a)) else 0#8)
    ^^^ (if c.getLsbD 4 then xtime (xtime (xtime (xtime a))) else 0#8)
    ^^^ (if c.getLsbD 5 then xtime (xtime (xtime (xtime (xtime a)))) else 0#8)
    ^^^ (if c.getLsbD 6 then xtime (xtime (xtime (xtime (xtime (xtime a))))) else 0#8)
    ^^^ (if c.getLsbD 7 then xtime (xtime (xtime (xtime (xtime (xtime (xtime a)))))) else 0#8) := by
  have hbits : (List.range 8).map c.getLsbD = [c.getLsbD 0, c.getLsbD 1, c.getLsbD 2, c.getLsbD 3,
      c.getLsbD 4, c.getLsbD 5, c.getLsbD 6, c.getLsbD 7] := rfl
  simp only [mul, hbits, mulBits, BitVec.xor_zero, BitVec.xor_assoc]

theorem ite_xor (p q : Bool) (a : Byte) : (if (p != q) = true then a else 0#8)
    = (if p then a else 0#8) ^^^ if q then a else 0#8 := by
  cases p <;> cases q <;> simp

theorem xor_mul (c d a : Byte) : mul (c ^^^ d) a = mul c a ^^^ mul d a := by
  simp only [mul_eq, BitVec.getLsbD_xor, ite_xor]
  ac_rfl

theorem one_mul (a : Byte) : mul 1#8 a = a := by
  simp [mul_eq]

theorem zero_mul (a : Byte) : mul 0#8 a = 0#8 := by
  simp [mul_eq]

/-- The reduction: the eighth power of `x`. -/
theorem xtime_eight : ∀ a,
    xtime (xtime (xtime (xtime (xtime (xtime (xtime (xtime a))))))) = mul 0x1b a := by
  decide +kernel

theorem xtime_ite (p : Bool) (a : Byte) :
    xtime (if p then a else 0#8) = if p then xtime a else 0#8 := by
  have hzero : xtime 0#8 = 0#8 := by decide
  cases p <;> simp [hzero]

theorem xtime_mul (c a : Byte) : xtime (mul c a) = mul (xtime c) a := by
  have hshift : ∀ i, (c <<< 1).getLsbD (i + 1) = (decide (i + 1 < 8) && c.getLsbD i) := by
    simp
  have hlow : (c <<< 1).getLsbD 0 = false := by simp
  have htop : mul (if c.getLsbD 7 then 0x1b#8 else 0#8) a
      = if c.getLsbD 7 then mul 0x1b a else 0#8 := by
    split
    · rfl
    · exact zero_mul a
  have hpowers : mul (c <<< 1) a ^^^ (if c.getLsbD 7 then mul 0x1b a else 0#8)
      = xtime (mul c a) := by
    rw [← xtime_eight, mul_eq (c <<< 1), mul_eq c]
    simp only [xtime_xor, xtime_ite, hlow, hshift 0, hshift 1, hshift 2, hshift 3, hshift 4,
      hshift 5, hshift 6]
    simp
  rw [← hpowers, xtime, xor_mul, htop]

theorem mulBits_mul (bs : List Bool) (d a : Byte) :
    mulBits bs (mul d a) = mul (mulBits bs d) a := by
  induction bs generalizing d with
  | nil => exact (zero_mul a).symm
  | cons b bs ih =>
    rw [mulBits, mulBits, xtime_mul, ih, xor_mul]
    cases b
    · simp [zero_mul]
    · rfl

theorem mul_mul (c d a : Byte) : mul c (mul d a) = mul (mul c d) a := mulBits_mul _ d a

/-! ## Columns -/

/-- A column. -/
abbrev Column := Fin 4 → Byte

/-- The column under a circulant matrix, the first row of which is `c`. -/
def circulant (c : Column) (v : Column) : Column := fun r =>
  mul (c 0) (v r) ^^^ mul (c 1) (v (r + 1)) ^^^ mul (c 2) (v (r + 2)) ^^^ mul (c 3) (v (r + 3))

/-- The product of two circulant matrices is the identity: the sums that make its first row. -/
structure Inverse (c d : Column) : Prop where
  zero : mul (c 0) (d 0) ^^^ mul (c 1) (d 3) ^^^ mul (c 2) (d 2) ^^^ mul (c 3) (d 1) = 1#8
  one : mul (c 0) (d 1) ^^^ mul (c 1) (d 0) ^^^ mul (c 2) (d 3) ^^^ mul (c 3) (d 2) = 0#8
  two : mul (c 0) (d 2) ^^^ mul (c 1) (d 1) ^^^ mul (c 2) (d 0) ^^^ mul (c 3) (d 3) = 0#8
  three : mul (c 0) (d 3) ^^^ mul (c 1) (d 2) ^^^ mul (c 2) (d 1) ^^^ mul (c 3) (d 0) = 0#8

theorem circulant_circulant {c d : Column} (h : Inverse c d) (v : Column) :
    circulant c (circulant d v) = v := by
  funext r
  have h11 : r + 1 + 1 = r + 2 := by rw [add_assoc]; rfl
  have h12 : r + 1 + 2 = r + 3 := by rw [add_assoc]; rfl
  have h13 : r + 1 + 3 = r := by rw [add_assoc]; exact add_zero r
  have h21 : r + 2 + 1 = r + 3 := by rw [add_assoc]; rfl
  have h22 : r + 2 + 2 = r := by rw [add_assoc]; exact add_zero r
  have h23 : r + 2 + 3 = r + 1 := by rw [add_assoc]; rfl
  have h31 : r + 3 + 1 = r := by rw [add_assoc]; exact add_zero r
  have h32 : r + 3 + 2 = r + 1 := by rw [add_assoc]; rfl
  have h33 : r + 3 + 3 = r + 2 := by rw [add_assoc]; rfl
  -- the terms, sorted by the byte of the column
  have h0 := congrArg (mul · (v r)) h.zero
  have h1 := congrArg (mul · (v (r + 1))) h.one
  have h2 := congrArg (mul · (v (r + 2))) h.two
  have h3 := congrArg (mul · (v (r + 3))) h.three
  simp only [xor_mul, one_mul, zero_mul] at h0 h1 h2 h3
  have hsum := congrArg₂ (· ^^^ ·) (congrArg₂ (· ^^^ ·) h0 h1) (congrArg₂ (· ^^^ ·) h2 h3)
  simp only [BitVec.xor_zero] at hsum
  simp only [circulant, mul_xor, mul_mul, h11, h12, h13, h21, h22, h23, h31, h32, h33]
  refine Eq.trans ?_ hsum
  ac_rfl

/-! ## The square of bytes -/

/-- A byte for each row and column. -/
abbrev State := Fin 4 → Fin 4 → Byte

def addState (k s : State) : State := fun r c => s r c ^^^ k r c

def subState (box : Byte → Byte) (s : State) : State := fun r c => box (s r c)

/-- Each row is turned to the left by its number. -/
def shiftState (s : State) : State := fun r c => s r (c + r)

def unshiftState (s : State) : State := fun r c => s r (c - r)

def mixState (m : Column) (s : State) : State := fun r c => circulant m (fun i => s i c) r

/-- The network of a substitution and of a matrix that have inverses. -/
def squareNetwork (box unbox : Byte → Byte) (hbox : ∀ a, unbox (box a) = a) (m u : Column)
    (hmix : Inverse u m) : Network State where
  add := addState
  sub := subState box
  shift := shiftState
  mix := mixState m
  unsub := subState unbox
  unshift := unshiftState
  unmix := mixState u
  add_add k s := by
    funext r c
    rw [addState, addState, BitVec.xor_assoc, BitVec.xor_self, BitVec.xor_zero]
  unsub_sub s := funext fun r => funext fun c => hbox (s r c)
  unshift_shift s := by
    funext r c
    rw [unshiftState, shiftState, sub_add_cancel]
  unmix_mix s := funext fun r => funext fun c =>
    congrFun (circulant_circulant hmix fun i => s i c) r

end ExtDrv.Rijndael
