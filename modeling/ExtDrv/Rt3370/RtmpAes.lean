import ExtDrv.Rt3370.EvpAesInverse

/-!
# The AES of the key wrap

`rtmp_aes_set_key`, `rtmp_aes_encrypt` and `rtmp_aes_decrypt`, for keys of 128 bits. The tables
`FT0` … `FT3` and `RT0` … `RT3` of this cipher are those of the EVP layer, word for word; the
S-boxes stand apart. Its decryption schedule is written from the end of the other one.
-/

namespace ExtDrv.Rt3370.RtmpAes

open Ccm EvpAes

/-! ## Tables -/

/-- The forward S-box. -/
def FSb : List Word := [
  0x63, 0x7c, 0x77, 0x7b, 0xf2, 0x6b, 0x6f, 0xc5, 0x30, 0x01, 0x67, 0x2b, 0xfe, 0xd7, 0xab, 0x76,
  0xca, 0x82, 0xc9, 0x7d, 0xfa, 0x59, 0x47, 0xf0, 0xad, 0xd4, 0xa2, 0xaf, 0x9c, 0xa4, 0x72, 0xc0,
  0xb7, 0xfd, 0x93, 0x26, 0x36, 0x3f, 0xf7, 0xcc, 0x34, 0xa5, 0xe5, 0xf1, 0x71, 0xd8, 0x31, 0x15,
  0x04, 0xc7, 0x23, 0xc3, 0x18, 0x96, 0x05, 0x9a, 0x07, 0x12, 0x80, 0xe2, 0xeb, 0x27, 0xb2, 0x75,
  0x09, 0x83, 0x2c, 0x1a, 0x1b, 0x6e, 0x5a, 0xa0, 0x52, 0x3b, 0xd6, 0xb3, 0x29, 0xe3, 0x2f, 0x84,
  0x53, 0xd1, 0x00, 0xed, 0x20, 0xfc, 0xb1, 0x5b, 0x6a, 0xcb, 0xbe, 0x39, 0x4a, 0x4c, 0x58, 0xcf,
  0xd0, 0xef, 0xaa, 0xfb, 0x43, 0x4d, 0x33, 0x85, 0x45, 0xf9, 0x02, 0x7f, 0x50, 0x3c, 0x9f, 0xa8,
  0x51, 0xa3, 0x40, 0x8f, 0x92, 0x9d, 0x38, 0xf5, 0xbc, 0xb6, 0xda, 0x21, 0x10, 0xff, 0xf3, 0xd2,
  0xcd, 0x0c, 0x13, 0xec, 0x5f, 0x97, 0x44, 0x17, 0xc4, 0xa7, 0x7e, 0x3d, 0x64, 0x5d, 0x19, 0x73,
  0x60, 0x81, 0x4f, 0xdc, 0x22, 0x2a, 0x90, 0x88, 0x46, 0xee, 0xb8, 0x14, 0xde, 0x5e, 0x0b, 0xdb,
  0xe0, 0x32, 0x3a, 0x0a, 0x49, 0x06, 0x24, 0x5c, 0xc2, 0xd3, 0xac, 0x62, 0x91, 0x95, 0xe4, 0x79,
  0xe7, 0xc8, 0x37, 0x6d, 0x8d, 0xd5, 0x4e, 0xa9, 0x6c, 0x56, 0xf4, 0xea, 0x65, 0x7a, 0xae, 0x08,
  0xba, 0x78, 0x25, 0x2e, 0x1c, 0xa6, 0xb4, 0xc6, 0xe8, 0xdd, 0x74, 0x1f, 0x4b, 0xbd, 0x8b, 0x8a,
  0x70, 0x3e, 0xb5, 0x66, 0x48, 0x03, 0xf6, 0x0e, 0x61, 0x35, 0x57, 0xb9, 0x86, 0xc1, 0x1d, 0x9e,
  0xe1, 0xf8, 0x98, 0x11, 0x69, 0xd9, 0x8e, 0x94, 0x9b, 0x1e, 0x87, 0xe9, 0xce, 0x55, 0x28, 0xdf,
  0x8c, 0xa1, 0x89, 0x0d, 0xbf, 0xe6, 0x42, 0x68, 0x41, 0x99, 0x2d, 0x0f, 0xb0, 0x54, 0xbb, 0x16]

/-- The reverse S-box. -/
def RSb : List Word := [
  0x52, 0x09, 0x6a, 0xd5, 0x30, 0x36, 0xa5, 0x38, 0xbf, 0x40, 0xa3, 0x9e, 0x81, 0xf3, 0xd7, 0xfb,
  0x7c, 0xe3, 0x39, 0x82, 0x9b, 0x2f, 0xff, 0x87, 0x34, 0x8e, 0x43, 0x44, 0xc4, 0xde, 0xe9, 0xcb,
  0x54, 0x7b, 0x94, 0x32, 0xa6, 0xc2, 0x23, 0x3d, 0xee, 0x4c, 0x95, 0x0b, 0x42, 0xfa, 0xc3, 0x4e,
  0x08, 0x2e, 0xa1, 0x66, 0x28, 0xd9, 0x24, 0xb2, 0x76, 0x5b, 0xa2, 0x49, 0x6d, 0x8b, 0xd1, 0x25,
  0x72, 0xf8, 0xf6, 0x64, 0x86, 0x68, 0x98, 0x16, 0xd4, 0xa4, 0x5c, 0xcc, 0x5d, 0x65, 0xb6, 0x92,
  0x6c, 0x70, 0x48, 0x50, 0xfd, 0xed, 0xb9, 0xda, 0x5e, 0x15, 0x46, 0x57, 0xa7, 0x8d, 0x9d, 0x84,
  0x90, 0xd8, 0xab, 0x00, 0x8c, 0xbc, 0xd3, 0x0a, 0xf7, 0xe4, 0x58, 0x05, 0xb8, 0xb3, 0x45, 0x06,
  0xd0, 0x2c, 0x1e, 0x8f, 0xca, 0x3f, 0x0f, 0x02, 0xc1, 0xaf, 0xbd, 0x03, 0x01, 0x13, 0x8a, 0x6b,
  0x3a, 0x91, 0x11, 0x41, 0x4f, 0x67, 0xdc, 0xea, 0x97, 0xf2, 0xcf, 0xce, 0xf0, 0xb4, 0xe6, 0x73,
  0x96, 0xac, 0x74, 0x22, 0xe7, 0xad, 0x35, 0x85, 0xe2, 0xf9, 0x37, 0xe8, 0x1c, 0x75, 0xdf, 0x6e,
  0x47, 0xf1, 0x1a, 0x71, 0x1d, 0x29, 0xc5, 0x89, 0x6f, 0xb7, 0x62, 0x0e, 0xaa, 0x18, 0xbe, 0x1b,
  0xfc, 0x56, 0x3e, 0x4b, 0xc6, 0xd2, 0x79, 0x20, 0x9a, 0xdb, 0xc0, 0xfe, 0x78, 0xcd, 0x5a, 0xf4,
  0x1f, 0xdd, 0xa8, 0x33, 0x88, 0x07, 0xc7, 0x31, 0xb1, 0x12, 0x10, 0x59, 0x27, 0x80, 0xec, 0x5f,
  0x60, 0x51, 0x7f, 0xa9, 0x19, 0xb5, 0x4a, 0x0d, 0x2d, 0xe5, 0x7a, 0x9f, 0x93, 0xc9, 0x9c, 0xef,
  0xa0, 0xe0, 0x3b, 0x4d, 0xae, 0x2a, 0xf5, 0xb0, 0xc8, 0xeb, 0xbb, 0x3c, 0x83, 0x53, 0x99, 0x61,
  0x17, 0x2b, 0x04, 0x7e, 0xba, 0x77, 0xd6, 0x26, 0xe1, 0x69, 0x14, 0x63, 0x55, 0x21, 0x0c, 0x7d]

def FT0 : List Word := Te0
def FT1 : List Word := Te1
def FT2 : List Word := Te2
def FT3 : List Word := Te3

def RT0 : List Word := Td0
def RT1 : List Word := Td1
def RT2 : List Word := Td2
def RT3 : List Word := Td3

/-- The key schedule tables, as in `KT0[i] = RT0[FSb[i]]`. -/
def kt (t : List Word) (x : Byte) : Word := entry t (look FSb x)

/-! ## Schedules -/

/-- `aes_context`. -/
structure AesContext where
  erk : Nat → Word
  drk : Nat → Word
  nr : Nat

/-- One byte each of four words, through a box, as in `FSb[(uint8)(Y0 >> 24)] << 24`. -/
def boxWord (t : List Word) (a b c d : Word) : Word :=
  (look t (byteOf a 0) <<< 24) ^^^ (look t (byteOf b 1) <<< 16) ^^^ (look t (byteOf c 2) <<< 8) ^^^
    look t (byteOf d 3)

/-- Four more words of the encryption schedule, behind those at `n`. -/
def scheduleTurn (rk : Nat → Word) (n i : Nat) : Nat → Word :=
  let w := rk (n + 3)
  let w4 := rk n ^^^ rcon.getD i 0 ^^^ (look FSb (byteOf w 1) <<< 24) ^^^
    (look FSb (byteOf w 2) <<< 16) ^^^ (look FSb (byteOf w 3) <<< 8) ^^^ look FSb (byteOf w 0)
  let w5 := rk (n + 1) ^^^ w4
  let w6 := rk (n + 2) ^^^ w5
  let w7 := rk (n + 3) ^^^ w6
  Function.update (Function.update (Function.update (Function.update rk
    (n + 4) w4) (n + 5) w5) (n + 6) w6) (n + 7) w7

/-- A word of the schedule through the key schedule tables. -/
def ktWord (w : Word) : Word :=
  kt RT0 (byteOf w 0) ^^^ kt RT1 (byteOf w 1) ^^^ kt RT2 (byteOf w 2) ^^^ kt RT3 (byteOf w 3)

/-- `rtmp_aes_set_key`. -/
def rtmpAesSetKey (key : Block) : AesContext :=
  let erk := (List.range 10).foldl (fun rk i => scheduleTurn rk (4 * i) i)
    fun j => if h : j < 4 then getU32 key ⟨j, h⟩ else 0
  { erk := erk
    drk := fun x =>
      if x < 4 then erk (40 + x)
      else if x < 40 then ktWord (erk (4 * (10 - x / 4) + x % 4))
      else erk (x - 40)
    nr := 10 }

/-! ## One block -/

def froundWord (k a b c d : Word) : Word :=
  k ^^^ look FT0 (byteOf a 0) ^^^ look FT1 (byteOf b 1) ^^^ look FT2 (byteOf c 2) ^^^
    look FT3 (byteOf d 3)

/-- `AES_FROUND`, with the round key at `n`. -/
def aesFround (rk : Nat → Word) (n : Nat) (y : State) : State :=
  { s0 := froundWord (rk n) y.s0 y.s1 y.s2 y.s3
    s1 := froundWord (rk (n + 1)) y.s1 y.s2 y.s3 y.s0
    s2 := froundWord (rk (n + 2)) y.s2 y.s3 y.s0 y.s1
    s3 := froundWord (rk (n + 3)) y.s3 y.s0 y.s1 y.s2 }

/-- `rtmp_aes_encrypt`: nine rounds, and the last one with the S-box. -/
def rtmpAesEncrypt (ctx : AesContext) (input : Block) : Block :=
  let y := (List.range 9).foldl (fun y r => aesFround ctx.erk (4 * (r + 1)) y)
    (State.first input ctx.erk)
  State.put
    { s0 := ctx.erk 40 ^^^ boxWord FSb y.s0 y.s1 y.s2 y.s3
      s1 := ctx.erk 41 ^^^ boxWord FSb y.s1 y.s2 y.s3 y.s0
      s2 := ctx.erk 42 ^^^ boxWord FSb y.s2 y.s3 y.s0 y.s1
      s3 := ctx.erk 43 ^^^ boxWord FSb y.s3 y.s0 y.s1 y.s2 }

def rroundWord (k a b c d : Word) : Word :=
  k ^^^ look RT0 (byteOf a 0) ^^^ look RT1 (byteOf b 1) ^^^ look RT2 (byteOf c 2) ^^^
    look RT3 (byteOf d 3)

/-- `AES_RROUND`. -/
def aesRround (rk : Nat → Word) (n : Nat) (y : State) : State :=
  { s0 := rroundWord (rk n) y.s0 y.s3 y.s2 y.s1
    s1 := rroundWord (rk (n + 1)) y.s1 y.s0 y.s3 y.s2
    s2 := rroundWord (rk (n + 2)) y.s2 y.s1 y.s0 y.s3
    s3 := rroundWord (rk (n + 3)) y.s3 y.s2 y.s1 y.s0 }

/-- `rtmp_aes_decrypt`. -/
def rtmpAesDecrypt (ctx : AesContext) (input : Block) : Block :=
  let y := (List.range 9).foldl (fun y r => aesRround ctx.drk (4 * (r + 1)) y)
    (State.first input ctx.drk)
  State.put
    { s0 := ctx.drk 40 ^^^ boxWord RSb y.s0 y.s3 y.s2 y.s1
      s1 := ctx.drk 41 ^^^ boxWord RSb y.s1 y.s0 y.s3 y.s2
      s2 := ctx.drk 42 ^^^ boxWord RSb y.s2 y.s1 y.s0 y.s3
      s3 := ctx.drk 43 ^^^ boxWord RSb y.s3 y.s2 y.s1 y.s0 }

/-! ## The rounds are those of the EVP layer -/

theorem fsb_shifted : ∀ (x : Byte) (i : Fin 4),
    look FSb x <<< (24 - 8 * i.val) = look Te4 x &&& mask i := by
  rw [look_packed]
  decide +kernel

theorem rsb_shifted : ∀ (x : Byte) (i : Fin 4),
    look RSb x <<< (24 - 8 * i.val) = look Td4 x &&& mask i := by
  rw [look_packed]
  decide +kernel

theorem boxWord_eq {box t : List Word}
    (h : ∀ (x : Byte) (i : Fin 4), look box x <<< (24 - 8 * i.val) = look t x &&& mask i)
    (a b c d : Word) : boxWord box a b c d = lastWord t a b c d := by
  have h3 := h (byteOf d 3) 3
  rw [show 24 - 8 * (3 : Fin 4).val = 0 from rfl, BitVec.shiftLeft_zero] at h3
  unfold boxWord lastWord
  rw [show look box (byteOf a 0) <<< 24 = _ from h _ 0,
    show look box (byteOf b 1) <<< 16 = _ from h _ 1,
    show look box (byteOf c 2) <<< 8 = _ from h _ 2, h3]

theorem aesFround_eq (rk : Nat → Word) (n : Nat) (y : State) :
    aesFround rk n y = encRound rk n y := by
  have hword : ∀ k a b c d, froundWord k a b c d = encWord a b c d k := by
    intro k a b c d
    rw [encWord_eq, froundWord, BitVec.xor_comm _ k, ← BitVec.xor_assoc, ← BitVec.xor_assoc,
      ← BitVec.xor_assoc]
    rfl
  simp only [aesFround, encRound, hword]

theorem aesRround_eq (rk : Nat → Word) (n : Nat) (y : State) :
    aesRround rk n y = decRound rk n y := by
  have hword : ∀ k a b c d, rroundWord k a b c d = decWord a b c d k := by
    intro k a b c d
    rw [decWord_eq, rroundWord, BitVec.xor_comm _ k, ← BitVec.xor_assoc, ← BitVec.xor_assoc,
      ← BitVec.xor_assoc]
    rfl
  simp only [aesRround, decRound, hword]

theorem foldl_fround (rk : Nat → Word) (y : State) (m : Nat) :
    (List.range m).foldl (fun y r => aesFround rk (4 * (r + 1)) y) y = encRounds rk y m := by
  induction m with
  | zero => rfl
  | succ m ih =>
    rw [List.range_succ, List.foldl_append, ih, List.foldl_cons, List.foldl_nil, aesFround_eq]
    rfl

theorem foldl_rround (rk : Nat → Word) (y : State) (m : Nat) :
    (List.range m).foldl (fun y r => aesRround rk (4 * (r + 1)) y) y = decRounds rk y m := by
  induction m with
  | zero => rfl
  | succ m ih =>
    rw [List.range_succ, List.foldl_append, ih, List.foldl_cons, List.foldl_nil, aesRround_eq]
    rfl

theorem rtmpAesEncrypt_eq (ctx : AesContext) (b : Block) : rtmpAesEncrypt ctx b
    = (encLast ctx.erk 40 (encRounds ctx.erk (State.first b ctx.erk) 9)).put := by
  unfold rtmpAesEncrypt
  rw [foldl_fround]
  simp only [encLast, encLastWord_eq, boxWord_eq fsb_shifted, BitVec.xor_comm (ctx.erk _)]

theorem rtmpAesDecrypt_eq (ctx : AesContext) (b : Block) : rtmpAesDecrypt ctx b
    = (decLast ctx.drk 40 (decRounds ctx.drk (State.first b ctx.drk) 9)).put := by
  unfold rtmpAesDecrypt
  rw [foldl_rround]
  simp only [decLast, decLastWord_eq, boxWord_eq rsb_shifted, BitVec.xor_comm (ctx.drk _)]

/-! ## Decryption undoes encryption -/

/-- The key schedule tables hold the inverse MixColumn transform. -/
theorem ktWord_eq (w : Word) : ktWord w = invMixColumn w := by
  have hindex : ∀ x : Byte, (look FSb x).toNat = (sBox x).toNat := by
    unfold sBox
    rw [look_packed]
    decide +kernel
  have hkt : ∀ (t : List Word) (x : Byte), kt t x = look t (sBox x) := by
    intro t x
    show t.getD (look FSb x).toNat 0 = _
    rw [hindex]
    rfl
  rw [ktWord, invMixColumn_eq, hkt, hkt, hkt, hkt]
  rfl

theorem rtmpAesSetKey_inverted (key : Block) :
    Inverted (rtmpAesSetKey key).erk (rtmpAesSetKey key).drk := by
  obtain ⟨erk, herk⟩ : ∃ erk, (rtmpAesSetKey key).erk = erk := ⟨_, rfl⟩
  have hdrk : ∀ x, (rtmpAesSetKey key).drk x = if x < 4 then erk (40 + x)
      else if x < 40 then ktWord (erk (4 * (10 - x / 4) + x % 4)) else erk (x - 40) := by
    intro x
    rw [← herk]
    rfl
  rw [herk]
  constructor
  · intro c hc
    rw [hdrk, if_pos hc]
  · intro g c hg hlt hc
    rw [hdrk, if_neg (by omega), if_pos (by omega), ktWord_eq,
      show (4 * g + c) / 4 = g by omega, show (4 * g + c) % 4 = c by omega]
  · intro c hc
    rw [hdrk, if_neg (by omega), if_neg (by omega), Nat.add_sub_cancel_left]

/-- **Decryption undoes encryption**, for every key and block. -/
theorem rtmpAesDecrypt_rtmpAesEncrypt (key b : Block) :
    rtmpAesDecrypt (rtmpAesSetKey key) (rtmpAesEncrypt (rtmpAesSetKey key) b) = b := by
  rw [rtmpAesEncrypt_eq, rtmpAesDecrypt_eq]
  exact decLast_encLast (rtmpAesSetKey_inverted key) b

end ExtDrv.Rt3370.RtmpAes
