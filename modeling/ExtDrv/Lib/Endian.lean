import Mathlib.Data.BitVec
import Mathlib.Tactic.Common

/-!
# Numbers as bytes

The number that bytes are, the most significant one first: of two strings of one
length the first byte that differs decides which number is larger. And words of
four bytes, the lowest first.
-/

namespace ExtDrv.BigEndian

/-- The number `bs` is. -/
def beNat : List (BitVec 8) → Nat
  | [] => 0
  | b :: bs => b.toNat * 256 ^ bs.length + beNat bs

theorem beNat_cons (b : BitVec 8) (bs : List (BitVec 8)) :
    beNat (b :: bs) = b.toNat * 256 ^ bs.length + beNat bs := rfl

theorem beNat_lt (bs : List (BitVec 8)) : beNat bs < 256 ^ bs.length := by
  induction bs with
  | nil => exact Nat.one_pos
  | cons b bs ih =>
      have hb : b.toNat + 1 ≤ 256 := b.isLt
      have hmul := Nat.mul_le_mul_right (256 ^ bs.length) hb
      rw [beNat_cons, List.length_cons, Nat.pow_succ, Nat.mul_comm _ 256]
      rw [Nat.add_mul, Nat.one_mul] at hmul
      omega

/-- The first byte decides. -/
theorem beNat_cons_lt {a b : BitVec 8} {as bs : List (BitVec 8)} (hlen : as.length = bs.length)
    (h : a.toNat < b.toNat) : beNat (a :: as) < beNat (b :: bs) := by
  have has := beNat_lt as
  have hmul := Nat.mul_le_mul_right (256 ^ bs.length) (Nat.succ_le_of_lt h)
  rw [Nat.succ_mul] at hmul
  rw [beNat_cons, beNat_cons, hlen]
  rw [hlen] at has
  omega

/-- Strings of one length are the same if their numbers are. -/
theorem beNat_inj {as bs : List (BitVec 8)} (hlen : as.length = bs.length)
    (h : beNat as = beNat bs) : as = bs := by
  induction as generalizing bs with
  | nil => exact (List.length_eq_zero_iff.mp hlen.symm).symm
  | cons a as ih =>
      cases bs with
      | nil => cases hlen
      | cons b bs =>
          have hlen' : as.length = bs.length := Nat.succ_inj.mp hlen
          rcases Nat.lt_trichotomy a.toNat b.toNat with hlt | heq | hgt
          · exact absurd h (Nat.ne_of_lt (beNat_cons_lt hlen' hlt))
          · obtain rfl := BitVec.eq_of_toNat_eq heq
            rw [beNat_cons, beNat_cons, hlen', Nat.add_left_cancel_iff] at h
            rw [ih hlen' h]
          · exact absurd h.symm (Nat.ne_of_lt (beNat_cons_lt hlen'.symm hgt))

/-- A number in `q` bytes. -/
def beBytes : Nat → Nat → List (BitVec 8)
  | 0, _ => []
  | q + 1, n => BitVec.ofNat 8 (n / 256 ^ q) :: beBytes q n

@[simp] theorem length_beBytes (q n : Nat) : (beBytes q n).length = q := by
  induction q with
  | zero => rfl
  | succ q ih => rw [beBytes, List.length_cons, ih]

theorem beNat_beBytes (q n : Nat) : beNat (beBytes q n) = n % 256 ^ q := by
  induction q with
  | zero => rw [beBytes, beNat, Nat.pow_zero, Nat.mod_one]
  | succ q ih =>
    have hbyte : (BitVec.ofNat 8 (n / 256 ^ q)).toNat = n / 256 ^ q % 256 := BitVec.toNat_ofNat _ _
    rw [beBytes, beNat_cons, ih, length_beBytes, hbyte, Nat.mod_pow_succ, Nat.add_comm,
      Nat.mul_comm]

/-- **Different numbers have different bytes**, as long as they fit. -/
theorem beBytes_inj {q m n : Nat} (hm : m < 256 ^ q) (hn : n < 256 ^ q)
    (h : beBytes q m = beBytes q n) : m = n := by
  have hnat := congrArg beNat h
  rwa [beNat_beBytes, beNat_beBytes, Nat.mod_eq_of_lt hm, Nat.mod_eq_of_lt hn] at hnat

end ExtDrv.BigEndian

namespace ExtDrv.LittleEndian

def leWord (bs : List (BitVec 8)) : BitVec 32 :=
  bs.getD 3 0 ++ bs.getD 2 0 ++ bs.getD 1 0 ++ bs.getD 0 0

def leBytes (w : BitVec 32) : List (BitVec 8) :=
  [w.setWidth 8, (w >>> 8).setWidth 8, (w >>> 16).setWidth 8, (w >>> 24).setWidth 8]

theorem toNat_append (a : BitVec 8) {n : Nat} (b : BitVec n) :
    (b ++ a).toNat = 256 * b.toNat + a.toNat := by
  have ha := a.isLt
  rw [BitVec.toNat_append, ← Nat.shiftLeft_add_eq_or_of_lt ha, Nat.shiftLeft_eq]
  omega

theorem leWord_leBytes (w : BitVec 32) : leWord (leBytes w) = w := by
  apply BitVec.eq_of_toNat_eq
  have hw := w.isLt
  show ((w >>> 24).setWidth 8 ++ (w >>> 16).setWidth 8 ++ (w >>> 8).setWidth 8
    ++ w.setWidth 8).toNat = w.toNat
  simp only [toNat_append, BitVec.toNat_setWidth, BitVec.toNat_ushiftRight,
    Nat.shiftRight_eq_div_pow]
  omega

end ExtDrv.LittleEndian
