import ExtDrv.Rt3370.RtAes

/-!
# TKIP key mixing

`tkip_sbox`, `rotr1` and `RTMPTkipMixKey` of `common/cmm_tkip.c`, with unsigned
words of 32 bits that the second phase never reduces, against the two phases of the
standard, on words of sixteen bits that wrap. The low sixteen bits of every word of the
code are the word of the standard: nothing above them comes back.
-/

namespace ExtDrv.Rt3370.Tkip

open Rijndael (Byte mul)
open RtAes (aesSboxEnc tableAt)

/-- `UINT`. -/
abbrev UINT := BitVec 32

/-! ## The tables -/

/-- `Tkip_Sbox_Lower`. -/
def TkipSboxLower : List UINT := [
  0xA5, 0x84, 0x99, 0x8D, 0x0D, 0xBD, 0xB1, 0x54, 0x50, 0x03, 0xA9, 0x7D, 0x19, 0x62, 0xE6,
  0x9A, 0x45, 0x9D, 0x40, 0x87, 0x15, 0xEB, 0xC9, 0x0B, 0xEC, 0x67, 0xFD, 0xEA, 0xBF, 0xF7,
  0x96, 0x5B, 0xC2, 0x1C, 0xAE, 0x6A, 0x5A, 0x41, 0x02, 0x4F, 0x5C, 0xF4, 0x34, 0x08, 0x93,
  0x73, 0x53, 0x3F, 0x0C, 0x52, 0x65, 0x5E, 0x28, 0xA1, 0x0F, 0xB5, 0x09, 0x36, 0x9B, 0x3D,
  0x26, 0x69, 0xCD, 0x9F, 0x1B, 0x9E, 0x74, 0x2E, 0x2D, 0xB2, 0xEE, 0xFB, 0xF6, 0x4D, 0x61,
  0xCE, 0x7B, 0x3E, 0x71, 0x97, 0xF5, 0x68, 0x00, 0x2C, 0x60, 0x1F, 0xC8, 0xED, 0xBE, 0x46,
  0xD9, 0x4B, 0xDE, 0xD4, 0xE8, 0x4A, 0x6B, 0x2A, 0xE5, 0x16, 0xC5, 0xD7, 0x55, 0x94, 0xCF,
  0x10, 0x06, 0x81, 0xF0, 0x44, 0xBA, 0xE3, 0xF3, 0xFE, 0xC0, 0x8A, 0xAD, 0xBC, 0x48, 0x04,
  0xDF, 0xC1, 0x75, 0x63, 0x30, 0x1A, 0x0E, 0x6D, 0x4C, 0x14, 0x35, 0x2F, 0xE1, 0xA2, 0xCC,
  0x39, 0x57, 0xF2, 0x82, 0x47, 0xAC, 0xE7, 0x2B, 0x95, 0xA0, 0x98, 0xD1, 0x7F, 0x66, 0x7E,
  0xAB, 0x83, 0xCA, 0x29, 0xD3, 0x3C, 0x79, 0xE2, 0x1D, 0x76, 0x3B, 0x56, 0x4E, 0x1E, 0xDB,
  0x0A, 0x6C, 0xE4, 0x5D, 0x6E, 0xEF, 0xA6, 0xA8, 0xA4, 0x37, 0x8B, 0x32, 0x43, 0x59, 0xB7,
  0x8C, 0x64, 0xD2, 0xE0, 0xB4, 0xFA, 0x07, 0x25, 0xAF, 0x8E, 0xE9, 0x18, 0xD5, 0x88, 0x6F,
  0x72, 0x24, 0xF1, 0xC7, 0x51, 0x23, 0x7C, 0x9C, 0x21, 0xDD, 0xDC, 0x86, 0x85, 0x90, 0x42,
  0xC4, 0xAA, 0xD8, 0x05, 0x01, 0x12, 0xA3, 0x5F, 0xF9, 0xD0, 0x91, 0x58, 0x27, 0xB9, 0x38,
  0x13, 0xB3, 0x33, 0xBB, 0x70, 0x89, 0xA7, 0xB6, 0x22, 0x92, 0x20, 0x49, 0xFF, 0x78, 0x7A,
  0x8F, 0xF8, 0x80, 0x17, 0xDA, 0x31, 0xC6, 0xB8, 0xC3, 0xB0, 0x77, 0x11, 0xCB, 0xFC, 0xD6,
  0x3A]

/-- `Tkip_Sbox_Upper`. -/
def TkipSboxUpper : List UINT := [
  0xC6, 0xF8, 0xEE, 0xF6, 0xFF, 0xD6, 0xDE, 0x91, 0x60, 0x02, 0xCE, 0x56, 0xE7, 0xB5, 0x4D,
  0xEC, 0x8F, 0x1F, 0x89, 0xFA, 0xEF, 0xB2, 0x8E, 0xFB, 0x41, 0xB3, 0x5F, 0x45, 0x23, 0x53,
  0xE4, 0x9B, 0x75, 0xE1, 0x3D, 0x4C, 0x6C, 0x7E, 0xF5, 0x83, 0x68, 0x51, 0xD1, 0xF9, 0xE2,
  0xAB, 0x62, 0x2A, 0x08, 0x95, 0x46, 0x9D, 0x30, 0x37, 0x0A, 0x2F, 0x0E, 0x24, 0x1B, 0xDF,
  0xCD, 0x4E, 0x7F, 0xEA, 0x12, 0x1D, 0x58, 0x34, 0x36, 0xDC, 0xB4, 0x5B, 0xA4, 0x76, 0xB7,
  0x7D, 0x52, 0xDD, 0x5E, 0x13, 0xA6, 0xB9, 0x00, 0xC1, 0x40, 0xE3, 0x79, 0xB6, 0xD4, 0x8D,
  0x67, 0x72, 0x94, 0x98, 0xB0, 0x85, 0xBB, 0xC5, 0x4F, 0xED, 0x86, 0x9A, 0x66, 0x11, 0x8A,
  0xE9, 0x04, 0xFE, 0xA0, 0x78, 0x25, 0x4B, 0xA2, 0x5D, 0x80, 0x05, 0x3F, 0x21, 0x70, 0xF1,
  0x63, 0x77, 0xAF, 0x42, 0x20, 0xE5, 0xFD, 0xBF, 0x81, 0x18, 0x26, 0xC3, 0xBE, 0x35, 0x88,
  0x2E, 0x93, 0x55, 0xFC, 0x7A, 0xC8, 0xBA, 0x32, 0xE6, 0xC0, 0x19, 0x9E, 0xA3, 0x44, 0x54,
  0x3B, 0x0B, 0x8C, 0xC7, 0x6B, 0x28, 0xA7, 0xBC, 0x16, 0xAD, 0xDB, 0x64, 0x74, 0x14, 0x92,
  0x0C, 0x48, 0xB8, 0x9F, 0xBD, 0x43, 0xC4, 0x39, 0x31, 0xD3, 0xF2, 0xD5, 0x8B, 0x6E, 0xDA,
  0x01, 0xB1, 0x9C, 0x49, 0xD8, 0xAC, 0xF3, 0xCF, 0xCA, 0xF4, 0x47, 0x10, 0x6F, 0xF0, 0x4A,
  0x5C, 0x38, 0x57, 0x73, 0x97, 0xCB, 0xA1, 0xE8, 0x3E, 0x96, 0x61, 0x0D, 0x0F, 0xE0, 0x7C,
  0x71, 0xCC, 0x90, 0x06, 0xF7, 0x1C, 0xC2, 0x6A, 0xAE, 0x69, 0x17, 0x99, 0x3A, 0x27, 0xD9,
  0xEB, 0x2B, 0x22, 0xD2, 0xA9, 0x07, 0x33, 0x2D, 0x3C, 0x15, 0xC9, 0x87, 0xAA, 0x50, 0xA5,
  0x03, 0x59, 0x09, 0x1A, 0x65, 0xD7, 0x84, 0xD0, 0x82, 0x29, 0x5A, 0x1E, 0x7B, 0xA8, 0x6D,
  0x2C]

/-! ## The code -/

/-- `tkip_sbox`. -/
def tkipSbox (index : UINT) : UINT :=
  let indexLow := (index % 256#32).toNat
  let indexHigh := ((index >>> 8) % 256#32).toNat
  let left := TkipSboxLower.getD indexLow 0 + TkipSboxUpper.getD indexLow 0 * 256#32
  let right := TkipSboxUpper.getD indexHigh 0 + TkipSboxLower.getD indexHigh 0 * 256#32
  left ^^^ right

/-- `rotr1`. -/
def rotr1 (a : UINT) : UINT :=
  let b := if a &&& 0x01#32 = 0x01#32 then (a >>> 1) ||| 0x8000#32 else (a >>> 1) &&& 0x7fff#32
  b % 65536#32

/-- `(256*key[i+1]) + key[i]`. -/
def pair (key : Nat → Byte) (i : Nat) : UINT :=
  256#32 * (key (i + 1)).setWidth 32 + (key i).setWidth 32

/-- `p1k`. -/
structure P1k where
  p0 : UINT
  p1 : UINT
  p2 : UINT
  p3 : UINT
  p4 : UINT

/-- Phase 1, step 1: `tsc1` and `tsc0` are the halves of `pnh`. -/
def p1kStart (ta : Nat → Byte) (pnh : Nat) : P1k where
  p0 := BitVec.ofNat 32 (pnh % 65536)
  p1 := BitVec.ofNat 32 (pnh / 65536 % 65536)
  p2 := pair ta 0
  p3 := pair ta 2
  p4 := pair ta 4

/-- A turn of phase 1, step 2. -/
def p1kTurn (key : Nat → Byte) (p : P1k) (i : Nat) : P1k :=
  let j := 2 * (i % 2)
  let p0 := (p.p0 + tkipSbox ((p.p4 ^^^ pair key j) % 65536#32)) % 65536#32
  let p1 := (p.p1 + tkipSbox ((p0 ^^^ pair key (4 + j)) % 65536#32)) % 65536#32
  let p2 := (p.p2 + tkipSbox ((p1 ^^^ pair key (8 + j)) % 65536#32)) % 65536#32
  let p3 := (p.p3 + tkipSbox ((p2 ^^^ pair key (12 + j)) % 65536#32)) % 65536#32
  let p4 := (p.p4 + tkipSbox ((p3 ^^^ pair key j) % 65536#32)) % 65536#32
  ⟨p0, p1, p2, p3, (p4 + BitVec.ofNat 32 i) % 65536#32⟩

/-- `ppk0` to `ppk5`. -/
structure Ppk where
  p0 : UINT
  p1 : UINT
  p2 : UINT
  p3 : UINT
  p4 : UINT
  p5 : UINT

/-- Phase 2, steps 1 and 2. -/
def ppkSteps (key : Nat → Byte) (p1k : P1k) (tsc2 : UINT) : Ppk :=
  let ppk5 := (p1k.p4 + tsc2) % 65536#32
  let ppk0 := p1k.p0 + tkipSbox ((ppk5 ^^^ pair key 0) % 65536#32)
  let ppk1 := p1k.p1 + tkipSbox ((ppk0 ^^^ pair key 2) % 65536#32)
  let ppk2 := p1k.p2 + tkipSbox ((ppk1 ^^^ pair key 4) % 65536#32)
  let ppk3 := p1k.p3 + tkipSbox ((ppk2 ^^^ pair key 6) % 65536#32)
  let ppk4 := p1k.p4 + tkipSbox ((ppk3 ^^^ pair key 8) % 65536#32)
  let ppk5 := ppk5 + tkipSbox ((ppk4 ^^^ pair key 10) % 65536#32)
  let ppk0 := ppk0 + rotr1 (ppk5 ^^^ pair key 12)
  let ppk1 := ppk1 + rotr1 (ppk0 ^^^ pair key 14)
  let ppk2 := ppk2 + rotr1 ppk1
  let ppk3 := ppk3 + rotr1 ppk2
  let ppk4 := ppk4 + rotr1 ppk3
  let ppk5 := ppk5 + rotr1 ppk4
  ⟨ppk0, ppk1, ppk2, ppk3, ppk4, ppk5⟩

/-- What is assigned to an unsigned char. -/
def uchar (a : UINT) : Byte := (a % 256#32).setWidth 8

/-- Phase 2, step 3: `rc4key`. -/
def rc4Key (key : Nat → Byte) (tsc2 : UINT) (p : Ppk) : List Byte :=
  [uchar (tsc2 >>> 8), ((((tsc2 >>> 8) % 256#32) ||| 0x20#32) &&& 0x7f#32).setWidth 8, uchar tsc2,
    uchar ((p.p5 ^^^ pair key 0) >>> 1),
    uchar p.p0, uchar (p.p0 >>> 8), uchar p.p1, uchar (p.p1 >>> 8),
    uchar p.p2, uchar (p.p2 >>> 8), uchar p.p3, uchar (p.p3 >>> 8),
    uchar p.p4, uchar (p.p4 >>> 8), uchar p.p5, uchar (p.p5 >>> 8)]

/-- `RTMPTkipMixKey`: `rc4key` and `p1k`. -/
def rtmpTkipMixKey (key ta : Nat → Byte) (pnl pnh : Nat) : List Byte × P1k :=
  let tsc2 := BitVec.ofNat 32 (pnl % 65536)
  let p1k := (List.range 8).foldl (p1kTurn key) (p1kStart ta pnh)
  (rc4Key key tsc2 (ppkSteps key p1k tsc2), p1k)

/-! ## The standard -/

/-- A word of two bytes, the high one first. -/
def mk16 (hi lo : Byte) : BitVec 16 := hi ++ lo

def lo8 (v : BitVec 16) : Byte := v.setWidth 8

def hi8 (v : BitVec 16) : Byte := (v >>> 8).setWidth 8

/-- The substitution, made of the box of the block cipher and products in its field. -/
def box16 (v : BitVec 16) : BitVec 16 :=
  let lo := tableAt aesSboxEnc (lo8 v)
  let hi := tableAt aesSboxEnc (hi8 v)
  mk16 (mul 2#8 lo) (mul 3#8 lo) ^^^ mk16 (mul 3#8 hi) (mul 2#8 hi)

/-- A word of the temporal key. -/
def tk16 (tk : Nat → Byte) (i : Nat) : BitVec 16 := mk16 (tk (i + 1)) (tk i)

/-- `TTAK`. -/
@[ext] structure Ttak where
  t0 : BitVec 16
  t1 : BitVec 16
  t2 : BitVec 16
  t3 : BitVec 16
  t4 : BitVec 16

def ttakStart (ta : Nat → Byte) (iv32 : BitVec 32) : Ttak where
  t0 := iv32.setWidth 16
  t1 := (iv32 >>> 16).setWidth 16
  t2 := tk16 ta 0
  t3 := tk16 ta 2
  t4 := tk16 ta 4

def ttakTurn (tk : Nat → Byte) (t : Ttak) (i : Nat) : Ttak :=
  let j := 2 * (i % 2)
  let t0 := t.t0 + box16 (t.t4 ^^^ tk16 tk j)
  let t1 := t.t1 + box16 (t0 ^^^ tk16 tk (4 + j))
  let t2 := t.t2 + box16 (t1 ^^^ tk16 tk (8 + j))
  let t3 := t.t3 + box16 (t2 ^^^ tk16 tk (12 + j))
  let t4 := t.t4 + box16 (t3 ^^^ tk16 tk j) + BitVec.ofNat 16 i
  ⟨t0, t1, t2, t3, t4⟩

/-- The first phase. -/
def phase1 (tk ta : Nat → Byte) (iv32 : BitVec 32) : Ttak :=
  (List.range 8).foldl (ttakTurn tk) (ttakStart ta iv32)

/-- `PPK`. -/
@[ext] structure Ppk16 where
  p0 : BitVec 16
  p1 : BitVec 16
  p2 : BitVec 16
  p3 : BitVec 16
  p4 : BitVec 16
  p5 : BitVec 16

def ppk16Steps (tk : Nat → Byte) (t : Ttak) (iv16 : BitVec 16) : Ppk16 :=
  let p5 := t.t4 + iv16
  let p0 := t.t0 + box16 (p5 ^^^ tk16 tk 0)
  let p1 := t.t1 + box16 (p0 ^^^ tk16 tk 2)
  let p2 := t.t2 + box16 (p1 ^^^ tk16 tk 4)
  let p3 := t.t3 + box16 (p2 ^^^ tk16 tk 6)
  let p4 := t.t4 + box16 (p3 ^^^ tk16 tk 8)
  let p5 := p5 + box16 (p4 ^^^ tk16 tk 10)
  let p0 := p0 + (p5 ^^^ tk16 tk 12).rotateRight 1
  let p1 := p1 + (p0 ^^^ tk16 tk 14).rotateRight 1
  let p2 := p2 + p1.rotateRight 1
  let p3 := p3 + p2.rotateRight 1
  let p4 := p4 + p3.rotateRight 1
  let p5 := p5 + p4.rotateRight 1
  ⟨p0, p1, p2, p3, p4, p5⟩

/-- The seed, from the words of the second phase. -/
def wepSeed (tk : Nat → Byte) (iv16 : BitVec 16) (p : Ppk16) : List Byte :=
  [hi8 iv16, (hi8 iv16 ||| 0x20#8) &&& 0x7f#8, lo8 iv16, lo8 ((p.p5 ^^^ tk16 tk 0) >>> 1),
    lo8 p.p0, hi8 p.p0, lo8 p.p1, hi8 p.p1, lo8 p.p2, hi8 p.p2, lo8 p.p3, hi8 p.p3,
    lo8 p.p4, hi8 p.p4, lo8 p.p5, hi8 p.p5]

/-- The second phase. -/
def phase2 (tk : Nat → Byte) (t : Ttak) (iv16 : BitVec 16) : List Byte :=
  wepSeed tk iv16 (ppk16Steps tk t iv16)

/-! ## The low sixteen bits -/

/-- The word of the standard that a word of the code holds. -/
def low (a : UINT) : BitVec 16 := a.setWidth 16

@[simp] theorem low_add (a b : UINT) : low (a + b) = low a + low b :=
  BitVec.setWidth_add a b (by decide)

@[simp] theorem low_xor (a b : UINT) : low (a ^^^ b) = low a ^^^ low b := BitVec.setWidth_xor

@[simp] theorem low_mod (a : UINT) : low (a % 65536#32) = low a := by
  have hword : (65536#32).toNat = 65536 := rfl
  apply BitVec.eq_of_toNat_eq
  simp only [low, BitVec.toNat_setWidth, BitVec.toNat_umod, hword]
  omega

@[simp] theorem low_ofNat (n : Nat) : low (BitVec.ofNat 32 n) = BitVec.ofNat 16 n := by
  apply BitVec.eq_of_toNat_eq
  simp only [low, BitVec.toNat_setWidth, BitVec.toNat_ofNat]
  omega

theorem toNat_mk16 (hi lo : Byte) : (mk16 hi lo).toNat = 256 * hi.toNat + lo.toNat := by
  have hlt := lo.isLt
  rw [mk16, BitVec.toNat_append, ← Nat.shiftLeft_add_eq_or_of_lt hlt, Nat.shiftLeft_eq]
  omega

/-- Two bytes, put together by a product and a sum. -/
theorem low_bytes (hi lo : Byte) :
    low (256#32 * hi.setWidth 32 + lo.setWidth 32) = mk16 hi lo := by
  have hhi := hi.isLt
  have hlo := lo.isLt
  apply BitVec.eq_of_toNat_eq
  simp only [low, toNat_mk16, BitVec.toNat_setWidth, BitVec.toNat_add, BitVec.toNat_mul,
    BitVec.toNat_ofNat]
  omega

@[simp] theorem low_pair (key : Nat → Byte) (i : Nat) : low (pair key i) = tk16 key i :=
  low_bytes (key (i + 1)) (key i)

/-- The bit that is tested. -/
theorem and_one_iff (a : UINT) : a &&& 0x01#32 = 0x01#32 ↔ a.getLsbD 0 = true := by
  rw [BitVec.and_one_eq_setWidth_ofBool_getLsbD]
  cases a.getLsbD 0 <;> decide

/-- **The rotation** brings back no bit from above. -/
@[simp] theorem low_rotr1 (a : UINT) : low (rotr1 a) = (low a).rotateRight 1 := by
  have htop : ∀ i, i < 16 → (0x8000#32).getLsbD i = decide (i = 15) := by decide
  have hmask : ∀ i, i < 16 → (0x7fff#32).getLsbD i = decide (i < 15) := by decide
  rw [rotr1, low_mod]
  apply BitVec.eq_of_getLsbD_eq
  intro i hi
  rw [BitVec.getLsbD_rotateRight, low, low, BitVec.getLsbD_setWidth, decide_eq_true hi,
    Bool.true_and]
  simp only [BitVec.getLsbD_setWidth]
  by_cases h15 : i < 15
  · have hlt : 1 % 16 + i < 16 := by omega
    have hne : i ≠ 15 := by omega
    rw [decide_eq_true h15, cond_true, decide_eq_true hlt, Bool.true_and]
    split
    · rw [BitVec.getLsbD_or, htop i hi, decide_eq_false hne, Bool.or_false,
        BitVec.getLsbD_ushiftRight]
    · rw [BitVec.getLsbD_and, hmask i hi, decide_eq_true h15, Bool.and_true,
        BitVec.getLsbD_ushiftRight]
  · obtain rfl : i = 15 := by omega
    split
    next h =>
      rw [BitVec.getLsbD_or, htop 15 hi, decide_eq_true rfl, Bool.or_true]
      exact ((and_one_iff a).mp h).symm
    next h =>
      have hbit : a.getLsbD 0 = false := by
        rw [← Bool.not_eq_true]
        exact fun hb => h ((and_one_iff a).mpr hb)
      rw [BitVec.getLsbD_and, hmask 15 hi, decide_eq_false h15, Bool.and_false]
      exact hbit.symm

/-! ## The substitution -/

theorem sboxLower_eq :
    TkipSboxLower = aesSboxEnc.map fun b => (mul 3#8 b).setWidth 32 := by
  decide +kernel

theorem sboxUpper_eq :
    TkipSboxUpper = aesSboxEnc.map fun b => (mul 2#8 b).setWidth 32 := by
  decide +kernel

/-- An entry of a table that is made of the box. -/
theorem getD_map_box (f : Byte → UINT) (b : Byte) :
    (aesSboxEnc.map f).getD b.toNat 0 = f (tableAt aesSboxEnc b) := by
  have hb : b.toNat < aesSboxEnc.length := by
    rw [RtAes.length_aesSboxEnc]
    exact b.isLt
  rw [tableAt, List.getD_eq_getElem?_getD, List.getElem?_map, List.getElem?_eq_getElem hb,
    Option.map_some, Option.getD_some, List.getD_eq_getElem?_getD, List.getElem?_eq_getElem hb,
    Option.getD_some]

theorem indexLow_eq (a : UINT) : (a % 65536#32 % 256#32).toNat = (lo8 (low a)).toNat := by
  have hword : (65536#32).toNat = 65536 := rfl
  have hbyte : (256#32).toNat = 256 := rfl
  simp only [lo8, low, BitVec.toNat_setWidth, BitVec.toNat_umod, hword, hbyte]

theorem indexHigh_eq (a : UINT) :
    (((a % 65536#32) >>> 8) % 256#32).toNat = (hi8 (low a)).toNat := by
  have hword : (65536#32).toNat = 65536 := rfl
  have hbyte : (256#32).toNat = 256 := rfl
  simp only [hi8, low, BitVec.toNat_setWidth, BitVec.toNat_ushiftRight, BitVec.toNat_umod, hword,
    hbyte, Nat.shiftRight_eq_div_pow]

/-- **The substitution** of the tables is the one of the standard. -/
@[simp] theorem low_tkipSbox (a : UINT) : low (tkipSbox (a % 65536#32)) = box16 (low a) := by
  have hbytes (hi lo : Byte) : low (lo.setWidth 32 + hi.setWidth 32 * 256#32) = mk16 hi lo := by
    rw [BitVec.add_comm, BitVec.mul_comm, low_bytes]
  rw [tkipSbox, indexLow_eq, indexHigh_eq, sboxLower_eq, sboxUpper_eq]
  simp only [getD_map_box, low_xor, hbytes]
  rfl

/-! ## The phases -/

/-- The words of the standard that the words of phase 1 hold. -/
def P1k.low (p : P1k) : Ttak :=
  ⟨Tkip.low p.p0, Tkip.low p.p1, Tkip.low p.p2, Tkip.low p.p3, Tkip.low p.p4⟩

def Ppk.low (p : Ppk) : Ppk16 :=
  ⟨Tkip.low p.p0, Tkip.low p.p1, Tkip.low p.p2, Tkip.low p.p3, Tkip.low p.p4, Tkip.low p.p5⟩

theorem p1kStart_low (ta : Nat → Byte) (pnh : Nat) :
    (p1kStart ta pnh).low = ttakStart ta (BitVec.ofNat 32 pnh) := by
  have hlow : BitVec.ofNat 16 (pnh % 65536) = (BitVec.ofNat 32 pnh).setWidth 16 := by
    apply BitVec.eq_of_toNat_eq
    simp only [BitVec.toNat_ofNat, BitVec.toNat_setWidth]
    omega
  have hhigh : BitVec.ofNat 16 (pnh / 65536 % 65536)
      = (BitVec.ofNat 32 pnh >>> 16).setWidth 16 := by
    apply BitVec.eq_of_toNat_eq
    simp only [BitVec.toNat_ofNat, BitVec.toNat_setWidth, BitVec.toNat_ushiftRight,
      Nat.shiftRight_eq_div_pow]
    omega
  simp only [P1k.low, p1kStart, ttakStart, low_ofNat, low_pair, hlow, hhigh]

/-- **A turn** of phase 1. -/
theorem p1kTurn_low (key : Nat → Byte) (p : P1k) (i : Nat) :
    (p1kTurn key p i).low = ttakTurn key p.low i := by
  simp only [P1k.low, p1kTurn, ttakTurn, low_mod, low_add, low_tkipSbox, low_xor, low_pair,
    low_ofNat]

theorem foldl_p1kTurn_low (key : Nat → Byte) (is : List Nat) (p : P1k) :
    (is.foldl (p1kTurn key) p).low = is.foldl (ttakTurn key) p.low := by
  induction is generalizing p with
  | nil => rfl
  | cons i is ih => rw [List.foldl_cons, List.foldl_cons, ih, p1kTurn_low]

/-- **Phase 2**: sums grow past sixteen bits, and the words below are the standard's. -/
theorem ppkSteps_low (key : Nat → Byte) (p : P1k) (tsc2 : UINT) :
    (ppkSteps key p tsc2).low = ppk16Steps key p.low (low tsc2) := by
  simp only [Ppk.low, P1k.low, ppkSteps, ppk16Steps, low_mod, low_add, low_tkipSbox, low_rotr1,
    low_xor, low_pair]

/-! ## The seed -/

theorem uchar_eq (a : UINT) : uchar a = lo8 (low a) := by
  have hbyte : (256#32).toNat = 256 := rfl
  apply BitVec.eq_of_toNat_eq
  simp only [uchar, lo8, low, BitVec.toNat_setWidth, BitVec.toNat_umod, hbyte]
  omega

theorem uchar_shift_eq (a : UINT) : uchar (a >>> 8) = hi8 (low a) := by
  have hbyte : (256#32).toNat = 256 := rfl
  apply BitVec.eq_of_toNat_eq
  simp only [uchar, hi8, low, BitVec.toNat_setWidth, BitVec.toNat_ushiftRight, BitVec.toNat_umod,
    hbyte, Nat.shiftRight_eq_div_pow]
  omega

/-- The shift by one reads the bits one to eight. -/
theorem uchar_half_eq (a : UINT) : uchar (a >>> 1) = lo8 (low a >>> 1) := by
  have hbyte : (256#32).toNat = 256 := rfl
  apply BitVec.eq_of_toNat_eq
  simp only [uchar, lo8, low, BitVec.toNat_setWidth, BitVec.toNat_ushiftRight, BitVec.toNat_umod,
    hbyte, Nat.shiftRight_eq_div_pow]
  omega

theorem rc4Key_eq (key : Nat → Byte) (tsc2 : UINT) (p : Ppk) :
    rc4Key key tsc2 p = wepSeed key (low tsc2) p.low := by
  have hmarked : ((((tsc2 >>> 8) % 256#32) ||| 0x20#32) &&& 0x7f#32).setWidth 8
      = (hi8 (low tsc2) ||| 0x20#8) &&& 0x7f#8 := by
    rw [← uchar_shift_eq, uchar, BitVec.setWidth_and, BitVec.setWidth_or]
    rfl
  simp only [rc4Key, wepSeed, Ppk.low, uchar_shift_eq, uchar_half_eq, hmarked]
  simp only [uchar_eq, low_xor, low_pair]

/-- **The mixing function**, for any two parts of a counter. -/
theorem rtmpTkipMixKey_eq (key ta : Nat → Byte) (pnl pnh : Nat) :
    (rtmpTkipMixKey key ta pnl pnh).1
      = phase2 key (phase1 key ta (BitVec.ofNat 32 pnh)) (BitVec.ofNat 16 pnl) := by
  have hiv16 : BitVec.ofNat 16 (pnl % 65536) = BitVec.ofNat 16 pnl := by
    apply BitVec.eq_of_toNat_eq
    simp only [BitVec.toNat_ofNat]
    omega
  rw [rtmpTkipMixKey, rc4Key_eq, ppkSteps_low, foldl_p1kTurn_low, p1kStart_low, low_ofNat, hiv16]
  rfl

/-- **The seed of the code is the seed of the standard**, for every temporal key, transmitter
address and packet counter. -/
theorem tkipMixing_exact (key ta : Nat → Byte) (pn : BitVec 48) :
    (rtmpTkipMixKey key ta (pn.toNat % 2 ^ 16) (pn.toNat / 2 ^ 16)).1
      = phase2 key (phase1 key ta ((pn >>> 16).setWidth 32)) (pn.setWidth 16) := by
  have hpnh : BitVec.ofNat 32 (pn.toNat / 2 ^ 16) = (pn >>> 16).setWidth 32 := by
    apply BitVec.eq_of_toNat_eq
    simp only [BitVec.toNat_ofNat, BitVec.toNat_setWidth, BitVec.toNat_ushiftRight,
      Nat.shiftRight_eq_div_pow]
  have hpnl : BitVec.ofNat 16 (pn.toNat % 2 ^ 16) = pn.setWidth 16 := by
    apply BitVec.eq_of_toNat_eq
    simp only [BitVec.toNat_ofNat, BitVec.toNat_setWidth, Nat.mod_mod]
  rw [rtmpTkipMixKey_eq, hpnh, hpnl]

end ExtDrv.Rt3370.Tkip
