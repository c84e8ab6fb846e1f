import ExtDrv.Lib.Rijndael
import ExtDrv.Rt3370.EvpAes
import Mathlib.Tactic.FinCases

/-!
# Decryption undoes encryption

The decryption key schedule is the encryption schedule in the other order, under the inverse
MixColumn transform, and a decryption round of the substituted and shifted state is that
transform of the state. The tables enter by five facts, each one checked for all bytes.
-/

namespace ExtDrv.Rt3370.EvpAes

open Ccm
open Rijndael (packed getD_packed)

/-! ## Bytes of words -/

/-- A table look-up by a byte. -/
def look (t : List Word) (x : Byte) : Word := t.getD x.toNat 0

theorem toNat_and_ff (w : Word) : (w &&& 0xff#32).toNat = w.toNat % 256 := by
  rw [BitVec.toNat_and]
  exact Nat.and_two_pow_sub_one_eq_mod w.toNat 8

theorem toNat_byteOf (w : Word) (i : Fin 4) :
    (byteOf w i).toNat = w.toNat / 2 ^ (24 - 8 * i.val) % 256 := by
  simp only [byteOf, BitVec.toNat_ushiftRight, BitVec.toNat_setWidth, Nat.shiftRight_eq_div_pow]

theorem entry_top (t : List Word) (w : Word) : entry t (w >>> 24) = look t (byteOf w 0) := by
  have h : (w >>> 24).toNat = (byteOf w 0).toNat := by
    have hw := w.isLt
    rw [toNat_byteOf, BitVec.toNat_ushiftRight, Nat.shiftRight_eq_div_pow]
    simp only [Fin.val_zero]
    omega
  rw [entry, look, h]

theorem entry_and (t : List Word) (w : Word) (i : Fin 4) :
    entry t ((w >>> (24 - 8 * i.val)) &&& 0xff#32) = look t (byteOf w i) := by
  rw [entry, look, toNat_and_ff, toNat_byteOf, BitVec.toNat_ushiftRight,
    Nat.shiftRight_eq_div_pow]

theorem entry_1 (t : List Word) (w : Word) : entry t ((w >>> 16) &&& 0xff#32) = look t (byteOf w 1) :=
  entry_and t w 1

theorem entry_2 (t : List Word) (w : Word) : entry t ((w >>> 8) &&& 0xff#32) = look t (byteOf w 2) :=
  entry_and t w 2

theorem entry_3 (t : List Word) (w : Word) : entry t (w &&& 0xff#32) = look t (byteOf w 3) := by
  have h := entry_and t w 3
  rwa [show 24 - 8 * (3 : Fin 4).val = 0 from rfl, BitVec.ushiftRight_zero] at h

theorem byteOf_xor (w v : Word) (i : Fin 4) : byteOf (w ^^^ v) i = byteOf w i ^^^ byteOf v i := by
  rw [byteOf, byteOf, byteOf, BitVec.ushiftRight_xor_distrib, BitVec.setWidth_xor]

/-- Words with the same bytes. -/
theorem word_ext {w v : Word} (h : ∀ i, byteOf w i = byteOf v i) : w = v := by
  have hw := w.isLt
  have hv := v.isLt
  have hb : ∀ i : Fin 4, w.toNat / 2 ^ (24 - 8 * i.val) % 256 = v.toNat / 2 ^ (24 - 8 * i.val) % 256 :=
    fun i => by rw [← toNat_byteOf, ← toNat_byteOf, h i]
  have h0 := hb 0
  have h1 := hb 1
  have h2 := hb 2
  have h3 := hb 3
  simp only [Fin.val_zero, Fin.val_one, Fin.val_two, show (3 : Fin 4).val = 3 from rfl] at h0 h1 h2 h3
  apply BitVec.eq_of_toNat_eq
  omega

/-- The byte of a word under a mask that keeps one byte. -/
theorem byteOf_and (w m : Word) (i : Fin 4) : byteOf (w &&& m) i = byteOf w i &&& byteOf m i := by
  rw [byteOf, byteOf, byteOf, BitVec.ushiftRight_and_distrib, BitVec.setWidth_and]

/-! ## The tables -/

theorem look_packed : look = fun t x => BitVec.ofNat 32 (packed t / 2 ^ (32 * x.toNat)) :=
  funext fun t => funext fun x => getD_packed t x.toNat

/-- The S-box, as the low bytes of `Te4` have it. -/
def sBox (x : Byte) : Byte := (look Te4 x).setWidth 8

theorem te4_bytes : ∀ (x : Byte) (i : Fin 4), byteOf (look Te4 x) i = sBox x := by
  unfold sBox
  rw [look_packed]
  decide +kernel

theorem td4_bytes : ∀ (x : Byte) (i : Fin 4), byteOf (look Td4 (sBox x)) i = x := by
  unfold sBox
  rw [look_packed]
  decide +kernel

/-- The four inverse columns a byte can be in. -/
def td : Fin 4 → List Word
  | 0 => Td0
  | 1 => Td1
  | 2 => Td2
  | 3 => Td3

def te : Fin 4 → List Word
  | 0 => Te0
  | 1 => Te1
  | 2 => Te2
  | 3 => Te3

/-- A byte's share in the inverse MixColumn transform. -/
def unmixByte (i : Fin 4) (x : Byte) : Word := look (td i) (sBox x)

/-- The sum of the columns that the set bits of a byte stand for. -/
def lin (c : Fin 8 → Word) (x : Byte) : Word :=
  (if x.getLsbD 0 then c 0 else 0) ^^^ (if x.getLsbD 1 then c 1 else 0) ^^^
  (if x.getLsbD 2 then c 2 else 0) ^^^ (if x.getLsbD 3 then c 3 else 0) ^^^
  (if x.getLsbD 4 then c 4 else 0) ^^^ (if x.getLsbD 5 then c 5 else 0) ^^^
  (if x.getLsbD 6 then c 6 else 0) ^^^ (if x.getLsbD 7 then c 7 else 0)

theorem ite_xor (p q : Bool) (c : Word) :
    (if (p ^^ q) = true then c else 0) = (if p then c else 0) ^^^ (if q then c else 0) := by
  cases p <;> cases q <;> simp

theorem lin_xor (c : Fin 8 → Word) (x y : Byte) : lin c (x ^^^ y) = lin c x ^^^ lin c y := by
  simp only [lin, BitVec.getLsbD_xor, ite_xor]
  ac_rfl

/-- The inverse column of each bit of the byte on top: the first one is 0e 09 0d 0b, the
others are its multiples. -/
def column : Fin 8 → Word
  | 0 => 0x0e090d0b
  | 1 => 0x1c121a16
  | 2 => 0x3824342c
  | 3 => 0x70486858
  | 4 => 0xe090d0b0
  | 5 => 0xdb3bbb7b
  | 6 => 0xad766df6
  | 7 => 0x41ecdaf7

theorem unmixByte_lin : ∀ (i : Fin 4) (x : Byte),
    unmixByte i x = lin (fun j => (column j).rotateRight (8 * i.val)) x := by
  unfold unmixByte sBox
  rw [look_packed]
  intro i
  fin_cases i <;> decide +kernel

theorem unmixByte_xor (i : Fin 4) (x y : Byte) :
    unmixByte i (x ^^^ y) = unmixByte i x ^^^ unmixByte i y := by
  rw [unmixByte_lin, lin_xor, ← unmixByte_lin, ← unmixByte_lin]

/-! ## The inverse MixColumn transform -/

theorem invMixColumn_eq (w : Word) : invMixColumn w =
    unmixByte 0 (byteOf w 0) ^^^ unmixByte 1 (byteOf w 1) ^^^ unmixByte 2 (byteOf w 2) ^^^
      unmixByte 3 (byteOf w 3) := by
  have hlow : ∀ (t : List Word) (v : Word), entry t (v &&& 0xff#32) = look t (v.setWidth 8) := by
    intro t v
    rw [entry, look, toNat_and_ff, BitVec.toNat_setWidth]
  rw [invMixColumn, entry_top, entry_1, entry_2, entry_3, hlow, hlow, hlow, hlow]
  rfl

theorem invMixColumn_xor (w v : Word) :
    invMixColumn (w ^^^ v) = invMixColumn w ^^^ invMixColumn v := by
  simp only [invMixColumn_eq, byteOf_xor, unmixByte_xor]
  ac_rfl

/-- The mask that keeps one byte. -/
def mask : Fin 4 → Word
  | 0 => 0xff000000#32
  | 1 => 0x00ff0000#32
  | 2 => 0x0000ff00#32
  | 3 => 0x000000ff#32

/-- The transform undoes the column of a byte in a full round. -/
theorem invMixColumn_te : ∀ (i : Fin 4) (x : Byte),
    invMixColumn (look (te i) x) = look Te4 x &&& mask i := by
  simp only [invMixColumn_eq, unmixByte, sBox]
  rw [look_packed]
  intro i
  fin_cases i <;> decide +kernel

theorem byteOf_masked (t : List Word) (x : Byte) (i j : Fin 4) :
    byteOf (look t x &&& mask i) j = if j = i then byteOf (look t x) j else 0 := by
  have hmask : ∀ i j : Fin 4, byteOf (mask i) j = if j = i then 0xff else 0 := by decide
  rw [byteOf_and, hmask]
  split
  · exact BitVec.and_allOnes
  · exact BitVec.and_zero

/-! ## The words of a round -/

theorem encWord_eq (a b c d k : Word) : encWord a b c d k =
    look Te0 (byteOf a 0) ^^^ look Te1 (byteOf b 1) ^^^ look Te2 (byteOf c 2) ^^^
      look Te3 (byteOf d 3) ^^^ k := by
  rw [encWord, entry_top, entry_1, entry_2, entry_3]

theorem decWord_eq (a b c d k : Word) : decWord a b c d k =
    look Td0 (byteOf a 0) ^^^ look Td1 (byteOf b 1) ^^^ look Td2 (byteOf c 2) ^^^
      look Td3 (byteOf d 3) ^^^ k := by
  rw [decWord, entry_top, entry_1, entry_2, entry_3]

/-- The words of the last rounds: one byte each of four table entries. -/
def lastWord (t : List Word) (a b c d : Word) : Word :=
  (look t (byteOf a 0) &&& mask 0) ^^^ (look t (byteOf b 1) &&& mask 1) ^^^
    (look t (byteOf c 2) &&& mask 2) ^^^ (look t (byteOf d 3) &&& mask 3)

theorem encLastWord_eq (a b c d k : Word) :
    encLastWord a b c d k = lastWord Te4 a b c d ^^^ k := by
  rw [encLastWord, entry_top, entry_1, entry_2, entry_3]
  rfl

theorem decLastWord_eq (a b c d k : Word) :
    decLastWord a b c d k = lastWord Td4 a b c d ^^^ k := by
  rw [decLastWord, entry_top, entry_1, entry_2, entry_3]
  rfl

theorem byteOf_lastWord (t : List Word) (a b c d : Word) (i : Fin 4) :
    byteOf (lastWord t a b c d) i = match i with
      | 0 => byteOf (look t (byteOf a 0)) 0
      | 1 => byteOf (look t (byteOf b 1)) 1
      | 2 => byteOf (look t (byteOf c 2)) 2
      | 3 => byteOf (look t (byteOf d 3)) 3 := by
  rw [lastWord, byteOf_xor, byteOf_xor, byteOf_xor, byteOf_masked, byteOf_masked, byteOf_masked,
    byteOf_masked]
  match i with
  | 0 => simp
  | 1 => simp
  | 2 => simp
  | 3 => simp

/-! ## States -/

/-- A round key laid over the state. -/
def State.add (s : State) (rk : Nat → Word) (n : Nat) : State :=
  { s0 := s.s0 ^^^ rk n
    s1 := s.s1 ^^^ rk (n + 1)
    s2 := s.s2 ^^^ rk (n + 2)
    s3 := s.s3 ^^^ rk (n + 3) }

/-- Substituted and shifted: the last round without its key. -/
def State.shift (s : State) : State :=
  { s0 := lastWord Te4 s.s0 s.s1 s.s2 s.s3
    s1 := lastWord Te4 s.s1 s.s2 s.s3 s.s0
    s2 := lastWord Te4 s.s2 s.s3 s.s0 s.s1
    s3 := lastWord Te4 s.s3 s.s0 s.s1 s.s2 }

/-- The inverse MixColumn transform of every word. -/
def State.unmix (s : State) : State :=
  { s0 := invMixColumn s.s0
    s1 := invMixColumn s.s1
    s2 := invMixColumn s.s2
    s3 := invMixColumn s.s3 }

theorem State.add_add (s : State) {rk rk' : Nat → Word} {n n' : Nat}
    (h : ∀ c < 4, rk (n + c) = rk' (n' + c)) : (s.add rk n).add rk' n' = s := by
  have h0 := h 0 (by decide)
  have h1 := h 1 (by decide)
  have h2 := h 2 (by decide)
  have h3 := h 3 (by decide)
  simp only [Nat.add_zero] at h0
  simp only [State.add, h0, h1, h2, h3, BitVec.xor_assoc, BitVec.xor_self, BitVec.xor_zero]

theorem encLast_eq (rk : Nat → Word) (n : Nat) (s : State) : encLast rk n s = s.shift.add rk n := by
  simp only [encLast, encLastWord_eq, State.shift, State.add]

/-- The bytes of four substituted words that stand in the diagonal of one word of the state
make up its inverse transform. -/
theorem decWord_lastWord (a b c d w k : Word) (ha : byteOf a 0 = sBox (byteOf w 0))
    (hb : byteOf b 1 = sBox (byteOf w 1)) (hc : byteOf c 2 = sBox (byteOf w 2))
    (hd : byteOf d 3 = sBox (byteOf w 3)) : decWord a b c d k = invMixColumn w ^^^ k := by
  rw [decWord_eq, ha, hb, hc, hd, invMixColumn_eq]
  simp only [unmixByte, td]

/-- **A decryption round** of the substituted and shifted state. -/
theorem decRound_shift (rk : Nat → Word) (n : Nat) (s : State) :
    decRound rk n s.shift = s.unmix.add rk n := by
  simp only [decRound, State.add, State.unmix, State.mk.injEq]
  refine ⟨?_, ?_, ?_, ?_⟩ <;>
    apply decWord_lastWord <;>
    simp only [State.shift, byteOf_lastWord, te4_bytes]

/-- **The transform undoes** the mixing of a full round. -/
theorem unmix_encRound (rk : Nat → Word) (n : Nat) (s : State) :
    (encRound rk n s).unmix = s.shift.add (fun x => invMixColumn (rk x)) n := by
  have hword : ∀ a b c d k : Word, invMixColumn (encWord a b c d k) =
      lastWord Te4 a b c d ^^^ invMixColumn k := by
    intro a b c d k
    rw [encWord_eq, invMixColumn_xor, invMixColumn_xor, invMixColumn_xor, invMixColumn_xor,
      lastWord, ← invMixColumn_te 0, ← invMixColumn_te 1, ← invMixColumn_te 2,
      ← invMixColumn_te 3]
    rfl
  simp only [encRound, State.unmix, State.shift, State.add, hword]

theorem decLastWord_shift (a b c d w k : Word) (ha : byteOf a 0 = sBox (byteOf w 0))
    (hb : byteOf b 1 = sBox (byteOf w 1)) (hc : byteOf c 2 = sBox (byteOf w 2))
    (hd : byteOf d 3 = sBox (byteOf w 3)) : decLastWord a b c d k = w ^^^ k := by
  rw [decLastWord_eq]
  congr 1
  refine word_ext fun i => ?_
  rw [byteOf_lastWord, ha, hb, hc, hd]
  match i with
  | 0 => exact td4_bytes _ 0
  | 1 => exact td4_bytes _ 1
  | 2 => exact td4_bytes _ 2
  | 3 => exact td4_bytes _ 3

/-- The last decryption round gets the state back. -/
theorem decLast_shift (rk : Nat → Word) (n : Nat) (s : State) :
    decLast rk n s.shift = s.add rk n := by
  simp only [decLast, State.add, State.mk.injEq]
  refine ⟨?_, ?_, ?_, ?_⟩ <;>
    apply decLastWord_shift <;>
    simp only [State.shift, byteOf_lastWord, te4_bytes]

/-! ## Blocks in and out -/

theorem byteOf_getU32 (b : Block) (i j : Fin 4) :
    byteOf (getU32 b i) j = b ⟨4 * i + j, by omega⟩ := by
  apply BitVec.eq_of_toNat_eq
  have h0 := (b ⟨4 * i, by omega⟩).isLt
  have h1 := (b ⟨4 * i + 1, by omega⟩).isLt
  have h2 := (b ⟨4 * i + 2, by omega⟩).isLt
  have h3 := (b ⟨4 * i + 3, by omega⟩).isLt
  have hword : (getU32 b i).toNat = (b ⟨4 * i, by omega⟩).toNat * 2 ^ 24 +
      (b ⟨4 * i + 1, by omega⟩).toNat * 2 ^ 16 + (b ⟨4 * i + 2, by omega⟩).toNat * 2 ^ 8 +
      (b ⟨4 * i + 3, by omega⟩).toNat := by
    rw [getU32, BitVec.toNat_append, BitVec.toNat_append, BitVec.toNat_append,
      ← Nat.shiftLeft_add_eq_or_of_lt h3, ← Nat.shiftLeft_add_eq_or_of_lt h2,
      ← Nat.shiftLeft_add_eq_or_of_lt h1]
    simp only [Nat.shiftLeft_eq]
    omega
  rw [toNat_byteOf, hword]
  obtain ⟨j, hj⟩ := j
  rcases (by omega : j = 0 ∨ j = 1 ∨ j = 2 ∨ j = 3) with rfl | rfl | rfl | rfl
  · simp only [Nat.add_zero]
    omega
  · simp only
    omega
  · simp only
    omega
  · simp only
    omega

theorem byteOf_put (s : State) (i j : Fin 4) :
    s.put ⟨4 * i + j, by omega⟩ = byteOf (s.word i) j := by
  have hi : (4 * i.val + j.val) / 4 = i := by omega
  have hj : (4 * i.val + j.val) % 4 = j := by omega
  simp only [State.put, hi, hj]

theorem getU32_put (s : State) (i : Fin 4) : getU32 s.put i = s.word i :=
  word_ext fun j => by rw [byteOf_getU32, byteOf_put]

/-- The words of a block, without a key. -/
def load (b : Block) : State :=
  { s0 := getU32 b 0
    s1 := getU32 b 1
    s2 := getU32 b 2
    s3 := getU32 b 3 }

@[simp] theorem load_put (s : State) : load s.put = s := by
  simp only [load, getU32_put, State.word]

@[simp] theorem put_load (b : Block) : (load b).put = b := by
  funext i
  have hi : i = ⟨4 * (⟨i / 4, by omega⟩ : Fin 4).val + (⟨i % 4, by omega⟩ : Fin 4).val,
      by simp; omega⟩ := by
    apply Fin.ext
    simp only
    omega
  have hword : ∀ k, (load b).word k = getU32 b k := by
    intro k
    fin_cases k <;> rfl
  rw [hi, byteOf_put, hword, byteOf_getU32]

theorem first_eq (b : Block) (rk : Nat → Word) : State.first b rk = (load b).add rk 0 := rfl

/-! ## The loops -/

/-- The state after some full rounds. -/
def encRounds (rk : Nat → Word) (s : State) : Nat → State
  | 0 => s
  | m + 1 => encRound rk (4 * (m + 1)) (encRounds rk s m)

def decRounds (rk : Nat → Word) (s : State) : Nat → State
  | 0 => s
  | m + 1 => decRound rk (4 * (m + 1)) (decRounds rk s m)

theorem encLoop_eq (rk : Nat → Word) (s : State) (r m : Nat) :
    encLoop rk (r + 1) (8 * m) (encRounds rk s (2 * m)) =
      (encRounds rk s (2 * (m + r) + 1), 8 * (m + r + 1)) := by
  induction r generalizing m with
  | zero =>
    rw [encLoop, encRounds, show 4 * (2 * (m + 0) + 1) = 8 * m + 4 from by omega]
    rfl
  | succ r ih =>
    have hturn : encRound rk (8 * m + 8) (encRound rk (8 * m + 4) (encRounds rk s (2 * m))) =
        encRounds rk s (2 * (m + 1)) := by
      rw [show 2 * (m + 1) = 2 * m + 1 + 1 from rfl, encRounds, encRounds]
      congr 1
      · omega
      · congr 1
        omega
    rw [encLoop, hturn, show 8 * m + 8 = 8 * (m + 1) from rfl, ih (m + 1),
      show m + 1 + r = m + (r + 1) from by omega]

theorem decLoop_eq (rk : Nat → Word) (s : State) (r m : Nat) :
    decLoop rk (r + 1) (8 * m) (decRounds rk s (2 * m)) =
      (decRounds rk s (2 * (m + r) + 1), 8 * (m + r + 1)) := by
  induction r generalizing m with
  | zero =>
    rw [decLoop, decRounds, show 4 * (2 * (m + 0) + 1) = 8 * m + 4 from by omega]
    rfl
  | succ r ih =>
    have hturn : decRound rk (8 * m + 8) (decRound rk (8 * m + 4) (decRounds rk s (2 * m))) =
        decRounds rk s (2 * (m + 1)) := by
      rw [show 2 * (m + 1) = 2 * m + 1 + 1 from rfl, decRounds, decRounds]
      congr 1
      · omega
      · congr 1
        omega
    rw [decLoop, hturn, show 8 * m + 8 = 8 * (m + 1) from rfl, ih (m + 1),
      show m + 1 + r = m + (r + 1) from by omega]

theorem evpAesEncrypt_eq (b : Block) (key : AesKey) (h : key.rounds = 10) :
    evpAesEncrypt b key =
      (encLast key.rdKey 40 (encRounds key.rdKey (State.first b key.rdKey) 9)).put := by
  have hloop : encLoop key.rdKey (10 / 2) 0 (State.first b key.rdKey) =
      (encRounds key.rdKey (State.first b key.rdKey) 9, 40) :=
    encLoop_eq key.rdKey (State.first b key.rdKey) 4 0
  rw [evpAesEncrypt, h, hloop]

theorem evpAesDecrypt_eq (b : Block) (key : AesKey) (h : key.rounds = 10) :
    evpAesDecrypt b key =
      (decLast key.rdKey 40 (decRounds key.rdKey (State.first b key.rdKey) 9)).put := by
  have hloop : decLoop key.rdKey (10 / 2) 0 (State.first b key.rdKey) =
      (decRounds key.rdKey (State.first b key.rdKey) 9, 40) :=
    decLoop_eq key.rdKey (State.first b key.rdKey) 4 0
  rw [evpAesDecrypt, h, hloop]

/-! ## The decryption key schedule -/

/-- Round keys in the other order, those in between under the inverse transform. -/
structure Inverted (ek dk : Nat → Word) : Prop where
  first : ∀ c < 4, dk c = ek (40 + c)
  between : ∀ g c, 1 ≤ g → g < 10 → c < 4 → dk (4 * g + c) = invMixColumn (ek (4 * (10 - g) + c))
  last : ∀ c < 4, dk (40 + c) = ek c

theorem swapLoop_eq (rk : Nat → Word) (a d x : Nat) :
    swapLoop rk (4 * a) (4 * (a + d)) x =
      if 4 * a ≤ x ∧ x < 4 * (a + d + 1) then rk (4 * (2 * a + d - x / 4) + x % 4) else rk x := by
  induction d using Nat.strongRecOn generalizing a rk with
  | _ d ih =>
  rw [swapLoop]
  match d with
  | 0 =>
    rw [if_neg (by omega)]
    split
    · congr 1
      omega
    · rfl
  | 1 =>
    rw [if_pos (by omega), swapLoop, if_neg (by omega)]
    simp only [swapGroup]
    split
    · rw [if_pos (by omega)]
      congr 1
      omega
    · split
      · rw [if_pos (by omega)]
        congr 1
        omega
      · rw [if_neg (by omega)]
  | d + 2 =>
    have hrec := ih d (by omega) (swapGroup rk (4 * a) (4 * (a + (d + 2)))) (a + 1)
    rw [if_pos (by omega), show 4 * a + 4 = 4 * (a + 1) from by omega,
      show 4 * (a + (d + 2)) - 4 = 4 * (a + 1 + d) from by omega, hrec]
    simp only [swapGroup]
    grind

theorem aesSetDecryptKey_inverted (userKey : Block) :
    Inverted (aesSetEncryptKey userKey).rdKey (aesSetDecryptKey userKey).rdKey := by
  have hrounds : (aesSetEncryptKey userKey).rounds = 10 := rfl
  generalize hek : aesSetEncryptKey userKey = key at hrounds
  have hswap : ∀ g c, g ≤ 10 → c < 4 →
      swapLoop key.rdKey 0 (4 * 10) (4 * g + c) = key.rdKey (4 * (10 - g) + c) := by
    intro g c hg hc
    have h := swapLoop_eq key.rdKey 0 10 (4 * g + c)
    rw [if_pos (by omega)] at h
    rw [show 4 * 0 = 0 from rfl, show 4 * (0 + 10) = 4 * 10 from rfl] at h
    rw [h]
    congr 1
    omega
  constructor
  · intro c hc
    have h := hswap 0 c (by omega) hc
    simp only [aesSetDecryptKey, hek, hrounds]
    rw [if_neg (by omega)]
    simpa using h
  · intro g c hg hlt hc
    simp only [aesSetDecryptKey, hek, hrounds]
    rw [if_pos (by omega), hswap g c (by omega) hc]
  · intro c hc
    have h := hswap 10 c (by omega) hc
    simp only [aesSetDecryptKey, hek, hrounds]
    rw [if_neg (by omega)]
    simpa using h

/-! ## Decryption undoes encryption -/

/-- The rounds of decryption run back through those of encryption: after `m` of them the
state is the one before the last `m` full rounds, substituted and shifted. -/
theorem decRounds_encRounds {ek dk : Nat → Word} (h : Inverted ek dk) (s : State) (m : Nat)
    (hm : m ≤ 9) :
    decRounds dk (encRounds ek s 9).shift m = (encRounds ek s (9 - m)).shift := by
  induction m with
  | zero => rfl
  | succ m ih =>
    have hround : encRounds ek s (9 - m) =
        encRound ek (4 * (9 - m)) (encRounds ek s (9 - (m + 1))) := by
      rw [show 9 - m = 9 - (m + 1) + 1 from by omega, encRounds]
    rw [decRounds, ih (by omega), decRound_shift, hround, unmix_encRound]
    apply State.add_add
    intro c hc
    rw [h.between (m + 1) c (by omega) (by omega) hc, show 10 - (m + 1) = 9 - m from by omega]

/-- Ten rounds run back, for any schedules of which one is the other inverted. -/
theorem decLast_encLast {ek dk : Nat → Word} (hkey : Inverted ek dk) (b : Block) :
    (decLast dk 40 (decRounds dk
      (State.first (encLast ek 40 (encRounds ek (State.first b ek) 9)).put dk) 9)).put = b := by
  rw [first_eq, first_eq, load_put, encLast_eq]
  rw [State.add_add _ (fun c hc => by rw [Nat.zero_add, hkey.first c hc]),
    decRounds_encRounds hkey _ 9 (by decide), decLast_shift]
  rw [show 9 - 9 = 0 from rfl, encRounds,
    State.add_add _ (fun c hc => by rw [Nat.zero_add, hkey.last c hc]), put_load]

/-- **Decryption undoes encryption**, for every key and block. -/
theorem evpAesDecrypt_evpAesEncrypt (userKey b : Block) :
    evpAesDecrypt (evpAesEncrypt b (aesSetEncryptKey userKey)) (aesSetDecryptKey userKey) = b := by
  rw [evpAesEncrypt_eq _ _ rfl, evpAesDecrypt_eq _ _ rfl]
  exact decLast_encLast (aesSetDecryptKey_inverted userKey) b

end ExtDrv.Rt3370.EvpAes
