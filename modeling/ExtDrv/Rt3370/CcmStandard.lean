import ExtDrv.Lib.CcmFormat
import ExtDrv.Rt3370.CcmpExact
import ExtDrv.Rt3370.CmmAes

/-!
# How far the counter counts

`AES_CCM_Encrypt` under `RT_AES_Encrypt`, against the standard's formatting of
counter mode with CBC-MAC. With a nonce of thirteen bytes the counter has two, and
the code adds one to the last of them only: it is the standard's for the first 255
key stream blocks, and the next one is the block over the tag.
-/

namespace ExtDrv.Rt3370

open Memory Ccm BigEndian

/-! ## The key stream of the code -/

/-- `Block_CTR`, each time the loop over the text has it enciphered. -/
def loopCounters (len : Nat) : Nat → Nat → Block → List Block
  | 0, _, _ => []
  | turns + 1, index, blockCtr =>
      if index < len then
        let blockCtr := Function.update blockCtr 15 (blockCtr 15 + 1)
        blockCtr :: loopCounters len turns (index + min (len - index) 16) blockCtr
      else []

/-- `Block_CTR_Cipher`, from turn to turn. -/
def keyStream (E : Block → Block) (nonce : List Byte) (len : Nat) : List Block :=
  (loopCounters len len 0 (counterBlock nonce)).map E

theorem loopCounters_eq (nonce : List Byte) (len turns k : Nat) (hturns : len - 16 * k ≤ turns) :
    loopCounters len turns (min (16 * k) len) (counterAt nonce k)
      = (List.range ((len - 16 * k + 15) / 16)).map fun i => counterAt nonce (k + i + 1) := by
  induction turns generalizing k with
  | zero =>
    rw [show (len - 16 * k + 15) / 16 = 0 by omega]
    rfl
  | succ turns ih =>
    rw [loopCounters]
    by_cases h : min (16 * k) len < len
    · have hcount : (len - 16 * k + 15) / 16 = (len - 16 * (k + 1) + 15) / 16 + 1 := by omega
      have hnext : min (16 * k) len + min (len - min (16 * k) len) 16 = min (16 * (k + 1)) len := by
        omega
      rw [if_pos h, counterAt_succ, hcount, List.range_succ_eq_map, List.map_cons, List.map_map]
      dsimp only
      rw [hnext, ih (k + 1) (by omega)]
      congr 1
      refine List.map_congr_left fun i _ => ?_
      rw [Function.comp_apply, Nat.succ_eq_add_one, Nat.add_right_comm k 1 i, Nat.add_assoc k i 1]
    · rw [if_neg h, show (len - 16 * k + 15) / 16 = 0 by omega]
      rfl

/-- The key stream is the one of the scheme that the code follows. -/
theorem keyStream_eq (E : Block → Block) {nonce : List Byte} (hnonce : nonce.length ≤ 13)
    (aad : List Byte) (t len : Nat) :
    keyStream E nonce len = (ccmScheme E nonce aad t).streamBlocks len := by
  have h := loopCounters_eq nonce len len 0 (by omega)
  rw [Nat.mul_zero, Nat.zero_min, counterAt_zero hnonce, Nat.sub_zero] at h
  rw [keyStream, h, List.map_map, Scheme.streamBlocks]
  refine List.map_congr_left fun i _ => ?_
  rw [Function.comp_apply, Nat.zero_add]
  rfl

/-! ## The formatting -/

section Formatting

variable {nonce aad : List Byte}

/-- A block of a byte, a nonce of thirteen bytes and two more. -/
theorem pad_nonce (hnonce : nonce.length = 13) (a b c : Byte) (i : Fin 16) :
    pad (a :: (nonce ++ [b, c])) i
      = if i.val = 15 then c else if i.val = 14 then b else if i.val = 0 then a
        else nonce.getD (i.val - 1) 0 := by
  rw [pad]
  obtain ⟨i, hi⟩ := i
  cases i with
  | zero => rfl
  | succ j =>
    rw [List.getD_cons_succ]
    by_cases hj : j < 13
    · rw [List.getD_append _ _ _ _ (by omega), if_neg (by simp; omega), if_neg (by simp; omega),
        if_neg (by simp), Nat.add_sub_cancel]
    · rw [List.getD_append_right _ _ _ _ (by omega), hnonce]
      have hcase : j = 13 ∨ j = 14 := by omega
      obtain rfl | rfl := hcase <;> rfl

theorem fieldLength_eq (hnonce : nonce.length = 13) : fieldLength nonce = 2 := by
  rw [fieldLength, hnonce]

/-- **The counter block** is the standard's while the counter fits in a byte. -/
theorem counterAt_eq_ctrBlock (hnonce : nonce.length = 13) {k : Nat} (hk : k < 256) :
    counterAt nonce k = ctrBlock nonce k := by
  have hhigh : BitVec.ofNat 8 (k / 256 ^ 1) = 0#8 := by
    rw [Nat.pow_one, Nat.div_eq_of_lt hk]
  have hlow : BitVec.ofNat 8 (k / 256 ^ 0) = BitVec.ofNat 8 k := by
    rw [Nat.pow_zero, Nat.div_one]
  funext i
  rw [ctrBlock, fieldLength_eq hnonce, beBytes, beBytes, beBytes, hhigh, hlow,
    pad_nonce hnonce, counterAt]
  by_cases h15 : i = 15
  · subst h15
    rw [Function.update_self]
    rfl
  have hv15 : i.val ≠ 15 := fun h => h15 (Fin.ext h)
  rw [Function.update_of_ne h15, counterBlock, if_neg hv15]
  by_cases h14 : i.val = 14
  · have h0 : i ≠ 0 := by
      rintro rfl
      exact absurd h14 (by decide)
    rw [if_neg h0, if_pos h14, h14, List.getD_eq_default _ _ (by omega)]
    rfl
  · rw [if_neg h14, hnonce]
    by_cases h0 : i = 0
    · subst h0
      rfl
    · have hv0 : i.val ≠ 0 := fun h => h0 (Fin.ext h)
      rw [if_neg h0, if_neg hv0]

/-- **The first block** is the standard's. -/
theorem controlBlock_eq_firstBlock (hnonce : nonce.length = 13) (t : Nat) {n : Nat}
    (hn : n < 65536) :
    controlBlock (BitVec.ofNat 32 n) nonce aad.length t = firstBlock nonce aad t n := by
  have hhigh : (BitVec.ofNat 32 n >>> 8).setWidth 8 = BitVec.ofNat 8 (n / 256 ^ 1) := by
    apply BitVec.eq_of_toNat_eq
    simp only [BitVec.toNat_setWidth, BitVec.toNat_ushiftRight, BitVec.toNat_ofNat,
      Nat.shiftRight_eq_div_pow]
    omega
  have hlow : (BitVec.ofNat 32 n).setWidth 8 = BitVec.ofNat 8 (n / 256 ^ 0) := by
    apply BitVec.eq_of_toNat_eq
    simp only [BitVec.toNat_setWidth, BitVec.toNat_ofNat]
    omega
  have hflags : ((if 0 < aad.length then 0x40#8 else 0) ||| BitVec.ofNat 8 ((t - 2) / 2 * 8)
      ||| BitVec.ofNat 8 (15 - nonce.length - 1)) = firstFlags nonce aad t := by
    rw [firstFlags, fieldLength]
    cases aad with
    | nil => rfl
    | cons a as => rfl
  funext i
  rw [firstBlock, fieldLength_eq hnonce, beBytes, beBytes, beBytes, pad_nonce hnonce,
    controlBlock, hhigh, hlow, hflags]
  have hshort : ¬ nonce.length < 13 ∧ ¬ nonce.length < 12 := by omega
  simp only [hshort.1, hshort.2, and_false, if_false, Fin.ext_iff]
  rfl

/-- **The associated data** is the standard's, where its length has two bytes. -/
theorem aadBlocks_eq (haad : aad ≠ []) (hlt : aad.length < 0xFF00) :
    blocks (aadLengthBytes aad.length ++ aad) = aadBlocks aad := by
  have hpos : 0 < aad.length := List.length_pos_iff.mpr haad
  rw [aadBlocks, if_neg haad, aadField, if_pos hlt, aadLengthBytes, if_pos ⟨hpos, hlt⟩, beBytes,
    beBytes, beBytes, Nat.pow_zero, Nat.div_one]
  rfl

end Formatting

/-! ## Under the block cipher -/

/-- `RT_AES_Encrypt` with a key of sixteen bytes. -/
def rtAes128 (key : Block) : Block → Block := RtAes.aesBlock (CmmAes.keyArray key) 16

/-- A call of `AES_CCM_Encrypt` and what it is given. -/
structure CcmCall where
  key : Block
  nonce : List Byte
  aad : List Byte
  macLength : Nat
  plainText : Nat
  cipherText : Nat
  plainTextLength : BitVec 32
  cipherTextLength : BitVec 32
  mem : Mem

namespace CcmCall

variable (c : CcmCall)

/-- What it returns, the memory and `*CipherTextLength`. -/
def run : Int × Mem × BitVec 32 :=
  aesCcmEncrypt rtAes128 c.plainText c.plainTextLength c.key 16 c.nonce c.aad c.macLength
    c.cipherText c.cipherTextLength c.mem

/-- The text. -/
def text : List Byte := segment c.mem c.plainText c.plainTextLength.toNat

/-- The standard's scheme for the key, the nonce and the data. -/
def standard : Scheme := standardScheme (rtAes128 c.key) c.nonce c.aad c.macLength

/-- The key stream blocks of the loop. -/
def stream : List Block := keyStream (rtAes128 c.key) c.nonce c.plainTextLength.toNat

/-- A nonce of thirteen bytes, associated data whose length has two bytes, a length of the MAC
that is checked for, a text whose length has two bytes, and room for the result, which does not
overwrite what is still to be read. -/
structure Fits : Prop where
  nonce : c.nonce.length = 13
  aad : c.aad ≠ []
  aadShort : c.aad.length < 0xFF00
  mac : c.macLength ∈ [4, 6, 8, 10, 12, 14, 16]
  text : c.plainTextLength.toNat < 65536
  room : c.plainTextLength.toNat + c.macLength ≤ c.cipherTextLength.toNat
  place : c.cipherText ≤ c.plainText ∨ c.plainText + c.plainTextLength.toNat ≤ c.cipherText

/-- The result is the standard's ciphertext, each key stream block is that of its counter, none
is used twice and none is the one over the MAC. -/
structure FollowsStandard : Prop where
  returns : c.run.1 = 0
  length : c.run.2.2.toNat = c.plainTextLength.toNat + c.macLength
  sealed : segment c.run.2.1 c.cipherText (c.plainTextLength.toNat + c.macLength)
    = c.standard.seal c.text
  stream : c.stream = c.standard.streamBlocks c.plainTextLength.toNat
  once : c.stream.Nodup
  unmasked : rtAes128 c.key (counterBlock c.nonce) ∉ c.stream

variable {c}

theorem Fits.mac_le (h : c.Fits) : c.macLength ≤ 16 := by
  have hmac := h.mac
  simp only [List.mem_cons, List.not_mem_nil, or_false] at hmac
  omega

theorem Fits.lengths (h : c.Fits) : ccmLengths 16 c.nonce.length c.macLength = 0 := by
  rw [ccmLengths, if_neg (by decide), if_neg (by rw [h.nonce]; decide), if_neg (not_not.mpr h.mac)]

/-- The counters of a text of 255 blocks at most. -/
theorem Fits.ctr_eq (h : c.Fits) {k : Nat} (hk : k < 256) :
    counterAt c.nonce k = c.standard.ctr k := counterAt_eq_ctrBlock h.nonce hk

theorem Fits.stream_eq (h : c.Fits) : c.stream
    = (ccmScheme (rtAes128 c.key) c.nonce c.aad c.macLength).streamBlocks
      c.plainTextLength.toNat :=
  keyStream_eq _ (by rw [h.nonce]) c.aad c.macLength _

/-- **A short text** is enciphered by the standard. -/
theorem Fits.follows (h : c.Fits) (hshort : c.plainTextLength.toNat ≤ 255 * 16) :
    c.FollowsStandard := by
  have hmac := h.mac_le
  have htext := h.text
  have hcount : (c.plainTextLength.toNat + 15) / 16 < 256 := by omega
  obtain ⟨m', hrun, hseal⟩ := aesCcmEncrypt_seals rtAes128 c.key c.aad h.lengths h.place
    c.cipherTextLength (by omega) h.room c.mem
  have hrun' : c.run = (0, m', c.plainTextLength + BitVec.ofNat 32 c.macLength) := hrun
  have hstream : c.stream = c.standard.streamBlocks c.plainTextLength.toNat := by
    rw [h.stream_eq, Scheme.streamBlocks, Scheme.streamBlocks]
    refine List.map_congr_left fun i hi => ?_
    rw [List.mem_range] at hi
    exact congrArg (rtAes128 c.key) (h.ctr_eq (by omega))
  have hinj : ∀ k l, k < 256 → l < 256 → c.standard.ctr k = c.standard.ctr l → k = l := by
    intro k l hk hl hkl
    refine ctrBlock_inj (by rw [h.nonce]) ?_ ?_ hkl <;> rw [fieldLength_eq h.nonce] <;> omega
  have hnodup := c.standard.streamBlocks_nodup
    (RtAes.aesBlock_injective (CmmAes.keyArray c.key) 16) hcount hinj
  have hmask : c.standard.E (c.standard.ctr 0) = rtAes128 c.key (counterBlock c.nonce) := by
    rw [← h.ctr_eq (by decide), counterAt_zero (by rw [h.nonce])]
    rfl
  exact
    { returns := by rw [hrun']
      length := by
        rw [hrun']
        simp only [BitVec.toNat_add, BitVec.toNat_ofNat]
        omega
      sealed := by
        rw [hrun', hseal]
        refine Scheme.seal_congr rfl ?_ ?_ (fun k hk => ?_) rfl
        · exact controlBlock_eq_firstBlock h.nonce c.macLength (by rw [length_segment]; exact htext)
        · exact (if_neg h.aad).trans (aadBlocks_eq h.aad h.aadShort)
        · rw [length_segment] at hk
          exact h.ctr_eq (by omega)
      stream := hstream
      once := by
        rw [hstream]
        exact hnodup.1
      unmasked := by
        rw [hstream, ← hmask]
        exact hnodup.2 }

/-- **A longer text** is enciphered with the block over the MAC too. -/
theorem Fits.mask_mem (h : c.Fits) (hlong : 255 * 16 < c.plainTextLength.toNat) :
    rtAes128 c.key (counterBlock c.nonce) ∈ c.stream := by
  have hwrap : counterAt c.nonce 256 = counterBlock c.nonce := counterAt_zero (by rw [h.nonce])
  rw [h.stream_eq, Scheme.streamBlocks]
  exact List.mem_map.mpr ⟨255, List.mem_range.mpr (by omega), congrArg _ hwrap⟩

/-- **Exactly the texts of 255 blocks** at most are enciphered by the standard. -/
theorem follows_iff (h : c.Fits) : c.FollowsStandard ↔ c.plainTextLength.toNat ≤ 255 * 16 := by
  constructor
  · intro hfollows
    by_contra hlong
    exact hfollows.unmasked (h.mask_mem (by omega))
  · exact h.follows

/-- A text of 256 blocks. -/
def longCall : CcmCall where
  key := fun _ => 0
  nonce := List.replicate 13 0
  aad := [0]
  macLength := 8
  plainText := 0
  cipherText := 0
  plainTextLength := 4096
  cipherTextLength := 4104
  mem := fun _ => 0

theorem longCall_fits : longCall.Fits where
  nonce := by decide
  aad := by decide
  aadShort := by decide
  mac := by decide
  text := by decide
  room := by decide
  place := .inl (le_refl 0)

theorem follows_longText_broken :
    ¬ ∀ c : CcmCall, c.Fits → c.FollowsStandard := fun hall =>
  (hall longCall longCall_fits).unmasked (longCall_fits.mask_mem (by decide))

theorem follows_iff_longCall :
    longCall.Fits ∧ (longCall.FollowsStandard ↔ 4096 ≤ 255 * 16) :=
  ⟨longCall_fits, follows_iff longCall_fits⟩

end CcmCall

end ExtDrv.Rt3370
