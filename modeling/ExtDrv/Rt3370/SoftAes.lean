import ExtDrv.Rt3370.CcmpExact
import Mathlib.Tactic.FinCases

/-!
# The other decryptor

`RTMPSoftDecryptAES` of `common/cmm_aes.c` builds the blocks of CCM by hand, each from
the header of the frame, and deciphers whole blocks eight bytes towards the header. On
every data frame it accepts what `RTMPSoftDecryptCCMP` accepts and leaves the same text:
its counter has two bytes and the other's has one, but no frame is long enough for the
second.
-/

namespace ExtDrv.Rt3370

open Memory Ccm

/-! ## The blocks -/

/-- The sixteen bytes at `a`. -/
def blockAt (m : Mem) (a : Nat) : Block := fun i => m (a + i)

/-- The priority byte of `construct_mic_iv` and `construct_ctr_preload`. -/
def qosTc (qcExists a4Exists : Bool) (m : Mem) (mpdu : Nat) : Byte :=
  if qcExists && a4Exists then m (mpdu + 30) &&& 0x0f
  else if qcExists && !a4Exists then m (mpdu + 24) &&& 0x0f
  else 0x00

/-- `construct_mic_iv`. -/
def constructMicIv (qcExists a4Exists : Bool) (m : Mem) (mpdu payloadLength : Nat)
    (pnVector : List Byte) : Block :=
  pad ([0x59, qosTc qcExists a4Exists m mpdu]
    ++ (List.range 6).map (fun i => m (mpdu + (i + 2 + 8)))
    ++ (List.range 6).map (fun i => pnVector.getD (13 - (i + 8)) 0)
    ++ [BitVec.ofNat 8 (payloadLength / 256), BitVec.ofNat 8 (payloadLength % 256)])

/-- `construct_mic_header1`. -/
def constructMicHeader1 (headerLength : Nat) (m : Mem) (mpdu : Nat) : Block :=
  pad ([BitVec.ofNat 8 ((headerLength - 2) / 256), BitVec.ofNat 8 ((headerLength - 2) % 256),
      m mpdu &&& 0xcf, m (mpdu + 1) &&& 0xc7]
    ++ (List.range 12).map fun i => m (mpdu + (i + 4)))

/-- `construct_mic_header2`. -/
def constructMicHeader2 (m : Mem) (mpdu : Nat) (a4Exists qcExists : Bool) : Block :=
  pad ((List.range 6).map (fun i => m (mpdu + (i + 16)))
    ++ [m (mpdu + 22) &&& 0x0f, 0x00]
    ++ (if !qcExists && a4Exists then (List.range 6).map fun i => m (mpdu + (24 + i)) else [])
    ++ (if qcExists && !a4Exists then [m (mpdu + 24) &&& 0x0f, m (mpdu + 25) &&& 0x00] else [])
    ++ (if qcExists && a4Exists then
        (List.range 6).map (fun i => m (mpdu + (24 + i)))
          ++ [m (mpdu + 30) &&& 0x0f, m (mpdu + 31) &&& 0x00]
      else []))

/-- `construct_ctr_preload`. -/
def constructCtrPreload (a4Exists qcExists : Bool) (m : Mem) (mpdu : Nat) (pnVector : List Byte)
    (c : Nat) : Block :=
  pad ([0x01, qosTc qcExists a4Exists m mpdu]
    ++ (List.range 6).map (fun i => m (mpdu + (i + 2 + 8)))
    ++ (List.range 6).map (fun i => pnVector.getD (13 - (i + 8)) 0)
    ++ [BitVec.ofNat 8 (c / 256), BitVec.ofNat 8 (c % 256)])

/-! ## The routine -/

section Model

variable (E : Block → Block)

/-- The first loop: whole blocks, each put eight bytes in front of where it was. -/
def payloadLoop (pData : Nat) (k : FrameKind) (pn : List Byte) : Nat → Nat → Nat → Mem → Mem
  | 0, _, _, m => m
  | blocks + 1, i, payloadIndex, m =>
      let ctrPreload := constructCtrPreload k.a4Exists k.qcExists m pData pn (i + 1)
      let aesOut := E ctrPreload
      let chainBuffer := xorBlock aesOut (blockAt m (pData + payloadIndex))
      payloadLoop pData k pn blocks (i + 1) (payloadIndex + 16)
        (store m (pData + payloadIndex - 8) (List.ofFn chainBuffer))

/-- The bytes behind them, if there are any. -/
def payloadRest (pData : Nat) (k : FrameKind) (pn : List Byte) (numBlocks payloadRemainder : Nat)
    (payloadIndex : Nat) (m : Mem) : Mem :=
  if 0 < payloadRemainder then
    let ctrPreload := constructCtrPreload k.a4Exists k.qcExists m pData pn (numBlocks + 1)
    let paddedBuffer := pad (segment m (pData + payloadIndex) payloadRemainder)
    let aesOut := E ctrPreload
    let chainBuffer := xorBlock aesOut paddedBuffer
    store m (pData + payloadIndex - 8) (prefixOf chainBuffer payloadRemainder)
  else m

/-- The second loop: the MIC over whole blocks of the text. -/
def micLoop (m : Mem) : Nat → Nat → Block → Block
  | 0, _, aesOut => aesOut
  | blocks + 1, a, aesOut => micLoop m blocks (a + 16) (E (xorBlock aesOut (blockAt m a)))

/-- The block behind them that needs padding, if there is one. -/
def micRest (m : Mem) (a payloadRemainder : Nat) (aesOut : Block) : Block :=
  if 0 < payloadRemainder then E (xorBlock aesOut (pad (segment m a payloadRemainder))) else aesOut

end Model

/-- `RTMPSoftDecryptAES`: what it returns, and the memory. -/
def rtmpSoftDecryptAes (aes128k128d : Block → Block → Block) (pData : Nat)
    (dataByteCnt : BitVec 32) (pWpaKey : CipherKey) (m : Mem) : Bool × Mem :=
  let k := frameKind m pData
  let headerLen := k.headerLength
  if pWpaKey.KeyLen = 0 then (false, m)
  else
    let E := aes128k128d pWpaKey.Key
    let pn := receivedPn m (pData + headerLen)
    -- 8 bytes for the CCMP header, 8 bytes for the MIC
    let payloadLen := (dataByteCnt - BitVec.ofNat 32 headerLen - 8 - 8).toNat
    let payloadRemainder := payloadLen % 16
    let numBlocks := payloadLen / 16
    let payloadIndex := headerLen + 8
    let m := payloadLoop E pData k pn numBlocks 0 payloadIndex m
    let payloadIndex := payloadIndex + 16 * numBlocks
    let m := payloadRest E pData k pn numBlocks payloadRemainder payloadIndex m
    let payloadIndex := payloadIndex + payloadRemainder
    let ctrPreload := constructCtrPreload k.a4Exists k.qcExists m pData pn 0
    let paddedBuffer := pad (segment m (pData + payloadIndex) 8)
    let trailMic := prefixOf (xorBlock (E ctrPreload) paddedBuffer) 8
    -- force the protected frame bit on
    let m := Function.update m (pData + 1) (m (pData + 1) ||| 0x40)
    -- the CCMP header has been removed
    let payloadIndex := headerLen
    let micIv := constructMicIv k.qcExists k.a4Exists m pData payloadLen pn
    let micHeader1 := constructMicHeader1 headerLen m pData
    let micHeader2 := constructMicHeader2 m pData k.a4Exists k.qcExists
    let aesOut := E (xorBlock (E micIv) micHeader1)
    let aesOut := E (xorBlock aesOut micHeader2)
    let aesOut := micLoop E m numBlocks (pData + payloadIndex) aesOut
    let aesOut := micRest E m (pData + payloadIndex + 16 * numBlocks) payloadRemainder aesOut
    let mic := prefixOf aesOut 8
    if mic ≠ trailMic then (false, m) else (true, m)

/-! ## The blocks are those of the scheme -/

/-- The first block of the MIC. -/
theorem constructMicIv_eq (qcExists a4Exists : Bool) (m : Mem) (mpdu : Nat) {n : Nat}
    (hn : n < 2 ^ 32) (pn : List Byte) {aadLength : Nat} (haad : 0 < aadLength) :
    constructMicIv qcExists a4Exists m mpdu n pn
      = controlBlock (BitVec.ofNat 32 n) (rtmpConstructCcmpNonce m mpdu a4Exists qcExists pn)
        aadLength lenCcmpMic := by
  have hhi : BitVec.ofNat 8 (n / 256) = (BitVec.ofNat 32 n >>> 8).setWidth 8 := by
    refine BitVec.eq_of_toNat_eq ?_
    simp only [BitVec.toNat_ofNat, BitVec.toNat_setWidth, BitVec.toNat_ushiftRight,
      Nat.shiftRight_eq_div_pow]
    omega
  have hlo : BitVec.ofNat 8 (n % 256) = (BitVec.ofNat 32 n).setWidth 8 := by
    refine BitVec.eq_of_toNat_eq ?_
    simp only [BitVec.toNat_ofNat, BitVec.toNat_setWidth]
    omega
  funext i
  rw [controlBlock, length_rtmpConstructCcmpNonce, if_pos haad, ← hhi, ← hlo]
  fin_cases i <;> rfl

/-- The counter blocks, as long as the second byte of the counter is not used. -/
theorem constructCtrPreload_eq (a4Exists qcExists : Bool) (m : Mem) (mpdu : Nat) (pn : List Byte)
    {c : Nat} (hc : c < 256) :
    constructCtrPreload a4Exists qcExists m mpdu pn c
      = counterAt (rtmpConstructCcmpNonce m mpdu a4Exists qcExists pn) c := by
  funext i
  rw [constructCtrPreload, Nat.div_eq_of_lt hc, Nat.mod_eq_of_lt hc, counterAt, Function.update_apply,
    counterBlock, length_rtmpConstructCcmpNonce]
  fin_cases i <;> rfl

/-- The bits of the frame control field that are muted, and the one that is forced on. -/
theorem mute_fc1 (x : Byte) : (x ||| 0x40) &&& 0xc7 = (x &&& 0xc7) ||| 0x40 :=
  BitVec.and_or_distrib_right

theorem mute_fc0 (x : Byte) (h : x &&& 0x40 = 0) : x &&& 0xcf = x &&& 0x8f := by
  have hmask : (0xcf : Byte) = 0x8f ||| 0x40 := by decide
  rw [hmask, BitVec.and_or_distrib_left, h]
  exact BitVec.or_zero

theorem length_rtmpConstructCcmpAad (m : Mem) (pHdr : Nat) (isDataFrame : Bool) (k : FrameKind) :
    (rtmpConstructCcmpAad m pHdr isDataFrame k.a4Exists k.qcExists).length = k.headerLength - 2 := by
  obtain ⟨_, a4Exists, qcExists⟩ := k
  cases a4Exists <;> cases qcExists <;> simp [rtmpConstructCcmpAad, FrameKind.headerLength]

theorem blocks_two {bs : List Byte} (h16 : 16 < bs.length) (h32 : bs.length ≤ 32) :
    blocks bs = [pad bs, pad (bs.drop 16)] := by
  have hne : bs ≠ [] := List.length_pos_iff.mp (by omega)
  have hne' : bs.drop 16 ≠ [] := List.length_pos_iff.mp (by rw [List.length_drop]; omega)
  rw [blocks_cons hne, blocks_cons hne', List.drop_drop, List.drop_eq_nil_of_le h32, blocks_nil]

/-- What is behind sixteen bytes is no part of a block. -/
theorem pad_take (bs : List Byte) : pad (bs.take 16) = pad bs := by
  funext i
  rw [pad, pad, List.getD_eq_getElem?_getD, List.getD_eq_getElem?_getD,
    List.getElem?_take_of_lt i.isLt]

/-- **The two header blocks** are the associated data behind its length. `m` is the
frame before the protected bit is forced on, and `m₁` behind it. -/
theorem constructMicHeaders_eq {m m₁ : Mem} {mpdu : Nat}
    (hfc1 : m₁ (mpdu + 1) = m (mpdu + 1) ||| 0x40)
    (hrest : ∀ j, j ≠ 1 → m₁ (mpdu + j) = m (mpdu + j)) (hsub : m mpdu &&& 0x40 = 0)
    (k : FrameKind) :
    blocks (aadLengthBytes (k.headerLength - 2)
        ++ rtmpConstructCcmpAad m mpdu true k.a4Exists k.qcExists)
      = [constructMicHeader1 k.headerLength m₁ mpdu,
        constructMicHeader2 m₁ mpdu k.a4Exists k.qcExists] := by
  have hfc0 : m₁ mpdu = m mpdu := hrest 0 (by decide)
  have hmap : ∀ (n o : Nat), 1 < o → ((List.range n).map fun i => m₁ (mpdu + (i + o)))
      = (List.range n).map fun i => m (mpdu + (i + o)) := fun n o ho =>
    List.map_congr_left fun i _ => hrest (i + o) (by omega)
  have hA4 : ((List.range 6).map fun i => m₁ (mpdu + (24 + i)))
      = (List.range 6).map fun i => m (mpdu + (24 + i)) :=
    List.map_congr_left fun i _ => hrest (24 + i) (by omega)
  have hmute : ∀ x : Byte, x &&& 0x00 = 0x00 := fun x => BitVec.and_zero
  have hheader1 : constructMicHeader1 k.headerLength m₁ mpdu
      = pad ([BitVec.ofNat 8 ((k.headerLength - 2) / 256),
        BitVec.ofNat 8 ((k.headerLength - 2) % 256), m mpdu &&& 0x8f,
        (m (mpdu + 1) &&& 0xc7) ||| 0x40] ++ (List.range 12).map fun i => m (mpdu + (i + 4))) := by
    rw [constructMicHeader1, hfc0, hfc1, mute_fc1, mute_fc0 _ hsub, hmap 12 4 (by decide)]
  rw [hheader1, constructMicHeader2, hmap 6 16 (by decide), hA4, hrest 22 (by decide),
    hrest 24 (by decide), hrest 25 (by decide), hrest 30 (by decide), hrest 31 (by decide),
    hmute, hmute]
  rw [blocks_two]
  · obtain ⟨_, a4Exists, qcExists⟩ := k
    congr 1
    · rw [← pad_take]
      apply congrArg pad
      cases a4Exists <;> cases qcExists <;> rfl
    · congr 1
      apply congrArg pad
      cases a4Exists <;> cases qcExists <;> rfl
  all_goals
    rw [List.length_append, length_rtmpConstructCcmpAad]
    obtain ⟨_, a4Exists, qcExists⟩ := k
    cases a4Exists <;> cases qcExists <;> simp [FrameKind.headerLength, aadLengthBytes]

/-! ## The text -/

/-- The header stays while the text behind it is deciphered. -/
theorem Ciphered.sameHeader {m m' : Mem} {src i : Nat} {ks : Nat → Byte} {pData : Nat}
    (h : Ciphered m m' src (pData + (frameKind m pData).headerLength) ks i) :
    SameHeader m m' pData pData :=
  h.segment_rest (Or.inl (Nat.le_refl _))

section Payload

/-- The nonce of the frame. -/
def nonceOf (m₀ : Mem) (pData : Nat) (k : FrameKind) (pn : List Byte) : List Byte :=
  rtmpConstructCcmpNonce m₀ pData k.a4Exists k.qcExists pn

variable (E : Block → Block) {pData : Nat} (pn : List Byte) {m₀ : Mem} {k : FrameKind}

/-- A counter block that is built while the text is deciphered. -/
theorem ctrPreload_eq {m : Mem} (h : SameHeader m₀ m pData pData) (hk : k = frameKind m₀ pData)
    {c : Nat} (hc : c < 256) :
    constructCtrPreload k.a4Exists k.qcExists m pData pn c = counterAt (nonceOf m₀ pData k pn) c := by
  rw [constructCtrPreload_eq _ _ _ _ _ hc, hk, h.nonce_eq fun _ _ => rfl]
  rfl

theorem getElem?_prefixOf (b : Block) {n i : Nat} (hi : i < n) (h16 : i < 16) :
    (prefixOf b n)[i]? = some (b ⟨i, h16⟩) := by
  rw [prefixOf, List.getElem?_take_of_lt hi, List.getElem?_ofFn, dif_pos h16]

/-- Up to a block more of the text, from the bytes that are put down for it. -/
theorem ciphered_block {m : Mem} {src dst : Nat} {aad : List Byte} {t i : Nat} {nonce : List Byte}
    (hle : dst ≤ src) (h : Ciphered m₀ m src dst (ccmScheme E nonce aad t).stream (16 * i))
    {n : Nat} (hn : n ≤ 16) {b : Block} (hb : ∀ j : Fin 16, j.val < n → b j = m (src + 16 * i + j)) :
    Ciphered m₀ (store m (dst + 16 * i) (prefixOf (xorBlock (E (counterAt nonce (i + 1))) b) n))
      src dst (ccmScheme E nonce aad t).stream (16 * i + n) := by
  have hlen := length_prefixOf hn (xorBlock (E (counterAt nonce (i + 1))) b)
  have hbytes : ∀ j, j < (prefixOf (xorBlock (E (counterAt nonce (i + 1))) b) n).length →
      (prefixOf (xorBlock (E (counterAt nonce (i + 1))) b) n).getD j 0
        = m (src + 16 * i + j) ^^^ (ccmScheme E nonce aad t).stream (16 * i + j) := by
    intro j hj
    rw [hlen] at hj
    have hj16 : j < 16 := by omega
    have hdiv : (16 * i + j) / 16 = i := by omega
    have hmod : (16 * i + j) % 16 = j := by omega
    have hget : (prefixOf (xorBlock (E (counterAt nonce (i + 1))) b) n).getD j 0
        = E (counterAt nonce (i + 1)) ⟨j, hj16⟩ ^^^ b ⟨j, hj16⟩ := by
      rw [List.getD_eq_getElem?_getD, getElem?_prefixOf _ hj hj16]
      rfl
    rw [hget, hb ⟨j, hj16⟩ hj, BitVec.xor_comm, Scheme.stream]
    simp only [hdiv, hmod]
    rfl
  have hstored := h.store hle hbytes
  rwa [hlen] at hstored

/-- **The first loop** deciphers whole blocks. -/
theorem payloadLoop_ciphered (hk : k = frameKind m₀ pData) (aad : List Byte) (t turns i : Nat)
    (hturns : i + turns < 256) (m : Mem)
    (h : Ciphered m₀ m (pData + (k.headerLength + 8)) (pData + k.headerLength)
      (ccmScheme E (nonceOf m₀ pData k pn) aad t).stream (16 * i)) :
    Ciphered m₀ (payloadLoop E pData k pn turns i (k.headerLength + 8 + 16 * i) m)
      (pData + (k.headerLength + 8)) (pData + k.headerLength)
      (ccmScheme E (nonceOf m₀ pData k pn) aad t).stream (16 * (i + turns)) := by
  induction turns generalizing i m with
  | zero => exact h
  | succ turns ih =>
    rw [payloadLoop]
    have hhdr : SameHeader m₀ m pData pData := by
      subst hk
      exact Ciphered.sameHeader h
    have hdst : pData + (k.headerLength + 8 + 16 * i) - 8 = pData + k.headerLength + 16 * i := by
      omega
    have hsrc : pData + (k.headerLength + 8 + 16 * i) = pData + (k.headerLength + 8) + 16 * i := by
      omega
    have hnext : k.headerLength + 8 + 16 * i + 16 = k.headerLength + 8 + 16 * (i + 1) := by omega
    have hblock := ciphered_block E (by omega) h (Nat.le_refl 16)
      (b := blockAt m (pData + (k.headerLength + 8) + 16 * i)) fun j _ => rfl
    have hall : ∀ b : Block, prefixOf b 16 = List.ofFn b := fun b =>
      List.take_of_length_le (by simp)
    rw [hall] at hblock
    rw [ctrPreload_eq pn hhdr hk (by omega), hdst, hsrc, hnext,
      show i + (turns + 1) = i + 1 + turns by omega]
    exact ih (i + 1) (by omega) _ hblock

/-- **The whole text.** -/
theorem payload_ciphered (hk : k = frameKind m₀ pData) (aad : List Byte) (t : Nat) {n : Nat}
    (hn : n / 16 < 255) :
    Ciphered m₀
      (payloadRest E pData k pn (n / 16) (n % 16) (k.headerLength + 8 + 16 * (n / 16))
        (payloadLoop E pData k pn (n / 16) 0 (k.headerLength + 8) m₀))
      (pData + (k.headerLength + 8)) (pData + k.headerLength)
      (ccmScheme E (nonceOf m₀ pData k pn) aad t).stream n := by
  have hblocks := payloadLoop_ciphered E pn hk aad t (n / 16) 0 (by omega) m₀
    (Ciphered.zero m₀ _ _ _)
  rw [Nat.mul_zero, Nat.add_zero, Nat.zero_add] at hblocks
  generalize payloadLoop E pData k pn (n / 16) 0 (k.headerLength + 8) m₀ = m at hblocks
  rw [payloadRest]
  by_cases hrest : 0 < n % 16
  case neg =>
    rw [if_neg hrest]
    rwa [show 16 * (n / 16) = n by omega] at hblocks
  rw [if_pos hrest]
  have hhdr : SameHeader m₀ m pData pData := by
    subst hk
    exact Ciphered.sameHeader hblocks
  have hdst : pData + (k.headerLength + 8 + 16 * (n / 16)) - 8
      = pData + k.headerLength + 16 * (n / 16) := by omega
  have hsrc : pData + (k.headerLength + 8 + 16 * (n / 16))
      = pData + (k.headerLength + 8) + 16 * (n / 16) := by omega
  have hpad : ∀ j : Fin 16, j.val < n % 16 →
      pad (segment m (pData + (k.headerLength + 8) + 16 * (n / 16)) (n % 16)) j
        = m (pData + (k.headerLength + 8) + 16 * (n / 16) + j) := by
    intro j hj
    rw [pad, List.getD_eq_getElem?_getD, getElem?_segment m hj]
    rfl
  have hblock := ciphered_block E (by omega) hblocks (by omega) hpad
  rw [show 16 * (n / 16) + n % 16 = n by omega] at hblock
  dsimp only
  rw [ctrPreload_eq pn hhdr hk (by omega), hdst, hsrc]
  exact hblock

end Payload

/-! ## The MIC -/

theorem FrameKind.headerLength_le (k : FrameKind) : 24 ≤ k.headerLength ∧ k.headerLength ≤ 32 := by
  unfold FrameKind.headerLength
  constructor <;> split_ifs <;> omega

theorem pad_segment_take (m : Mem) (a : Nat) {n : Nat} (hn : 16 ≤ n) :
    pad (segment m a n) = blockAt m a := by
  funext i
  rw [pad, List.getD_eq_getElem?_getD, getElem?_segment m (by omega)]
  rfl

theorem drop_segment (m : Mem) (a b n : Nat) :
    (segment m a (b + n)).drop b = segment m (a + b) n := by
  rw [segment_add, List.drop_left' (length_segment m a b)]

/-- **The second loop**, and the block behind it, chain the blocks of the text. -/
theorem micLoop_eq (E : Block → Block) (m : Mem) {r : Nat} (hr : r < 16) (turns a : Nat)
    (x : Block) :
    micRest E m (a + 16 * turns) r (micLoop E m turns a x)
      = cbcMac E x (blocks (segment m a (16 * turns + r))) := by
  induction turns generalizing a x with
  | zero =>
    rw [micLoop, micRest, Nat.mul_zero, Nat.add_zero, Nat.zero_add]
    by_cases hrest : 0 < r
    · have hne : segment m a r ≠ [] := List.length_pos_iff.mp (by rwa [length_segment])
      rw [if_pos hrest, blocks_cons hne, List.drop_eq_nil_of_le (by rw [length_segment]; omega),
        blocks_nil, cbcMac_cons, cbcMac_nil, xorBlock_comm]
    · rw [if_neg hrest, Nat.eq_zero_of_not_pos hrest, segment_zero, blocks_nil, cbcMac_nil]
  | succ turns ih =>
    have hsplit : 16 * (turns + 1) + r = 16 + (16 * turns + r) := by omega
    have hne : segment m a (16 + (16 * turns + r)) ≠ [] :=
      List.length_pos_iff.mp (by rw [length_segment]; omega)
    rw [micLoop, hsplit, blocks_cons hne, pad_segment_take m a (by omega), drop_segment, cbcMac_cons,
      ← ih (a + 16), xorBlock_comm]
    congr 1
    omega

/-- The first bytes under a padded string are the string under them. -/
theorem prefixOf_xor_pad (b : Block) {bs : List Byte} {n : Nat} (hn : n ≤ 16) (h : bs.length = n) :
    prefixOf (xorBlock b (pad bs)) n = List.zipWith (· ^^^ ·) bs (prefixOf b n) := by
  refine List.ext_getElem? fun i => ?_
  by_cases hi : i < n
  · have hbs : bs[i]? = some (bs.getD i 0) := by
      rw [List.getD_eq_getElem?_getD, List.getElem?_eq_getElem (by omega)]
      rfl
    rw [getElem?_prefixOf _ hi (by omega), List.getElem?_zipWith, hbs,
      getElem?_prefixOf b hi (by omega), xorBlock, BitVec.xor_comm]
    rfl
  · rw [List.getElem?_eq_none (by rw [length_prefixOf hn]; omega),
      List.getElem?_eq_none (by rw [List.length_zipWith, h]; omega)]

/-- The nonce is behind the frame control field. -/
theorem nonceOf_congr {m m₁ : Mem} {pData : Nat} (h : ∀ j, j ≠ 1 → m₁ (pData + j) = m (pData + j))
    (k : FrameKind) (pn : List Byte) : nonceOf m₁ pData k pn = nonceOf m pData k pn := by
  have hA2 : segment m₁ (pData + 10) 6 = segment m (pData + 10) 6 :=
    segment_congr fun i _ => by
      rw [Nat.add_assoc]
      exact h (10 + i) (by omega)
  rw [nonceOf, nonceOf, rtmpConstructCcmpNonce, rtmpConstructCcmpNonce, hA2, h 24 (by decide),
    h 30 (by decide)]

/-- **The MIC** of the routine is the one of the scheme. `m` is the frame as it was received,
and `m'` with its text deciphered. -/
theorem handMic_eq (E : Block → Block) {m m' : Mem} {pData : Nat} {k : FrameKind}
    (hk : k = frameKind m pData) (hhdr : SameHeader m m' pData pData)
    (hsub : m pData &&& 0x40 = 0) {n : Nat} (hn : n < 2 ^ 32) (pn : List Byte) {m₁ : Mem}
    (hm₁ : m₁ = Function.update m' (pData + 1) (m' (pData + 1) ||| 0x40)) :
    micRest E m₁ (pData + k.headerLength + 16 * (n / 16)) (n % 16)
        (micLoop E m₁ (n / 16) (pData + k.headerLength)
          (E (xorBlock (E (xorBlock (E (constructMicIv k.qcExists k.a4Exists m₁ pData n pn))
            (constructMicHeader1 k.headerLength m₁ pData)))
            (constructMicHeader2 m₁ pData k.a4Exists k.qcExists))))
      = (ccmScheme E (nonceOf m pData k pn)
          (rtmpConstructCcmpAad m pData true k.a4Exists k.qcExists) lenCcmpMic).mac
          (segment m' (pData + k.headerLength) n) := by
  have hhl := k.headerLength_le
  have hfc1 : m₁ (pData + 1) = m' (pData + 1) ||| 0x40 := by
    rw [hm₁, Function.update_self]
  have hrest : ∀ j, j ≠ 1 → m₁ (pData + j) = m' (pData + j) := fun j hj => by
    rw [hm₁, Function.update_of_ne (by omega)]
  have hsub' : m' pData &&& 0x40 = 0 := by
    rw [← Nat.add_zero pData, hhdr.byte_of_lt (by decide)]
    exact hsub
  have htext : segment m₁ (pData + k.headerLength) n = segment m' (pData + k.headerLength) n :=
    segment_congr fun i _ => by
      rw [Nat.add_assoc]
      exact hrest (k.headerLength + i) (by omega)
  have haad : rtmpConstructCcmpAad m' pData true k.a4Exists k.qcExists
      = rtmpConstructCcmpAad m pData true k.a4Exists k.qcExists := by
    rw [hk, hhdr.aad_eq]
  have hnonce : nonceOf m₁ pData k pn = nonceOf m pData k pn := by
    rw [nonceOf_congr hrest, hk, nonceOf, hhdr.nonce_eq fun _ _ => rfl]
    rfl
  have hlen := length_rtmpConstructCcmpAad m pData true k
  have hpos : 0 < (rtmpConstructCcmpAad m pData true k.a4Exists k.qcExists).length := by omega
  have hiv := constructMicIv_eq k.qcExists k.a4Exists m₁ pData hn pn hpos
  have hheaders := constructMicHeaders_eq hfc1 hrest hsub' k
  rw [haad, ← hlen] at hheaders
  rw [micLoop_eq E m₁ (Nat.mod_lt n (by decide)), Nat.div_add_mod, htext, hiv,
    show rtmpConstructCcmpNonce m₁ pData k.a4Exists k.qcExists pn = nonceOf m pData k pn from hnonce]
  rw [Scheme.mac, cbcMac_append, ccmScheme, length_segment]
  simp only [if_neg (List.length_pos_iff.mp hpos), hheaders, cbcMac_cons, cbcMac_nil]
  rw [xorBlock_comm (E (controlBlock _ _ _ _)), xorBlock_comm (E _) (constructMicHeader2 _ _ _ _)]

/-! ## The frame -/

/-- A data frame whose subtype carries data: the bit of the null subtypes is not set. -/
structure CarriesData (m : Mem) (pHdr : Nat) : Prop where
  data : (frameKind m pHdr).frameType = btypeData
  text : m pHdr &&& 0x40 = 0

variable (aes : Block → Block → Block)

/-- **`RTMPSoftDecryptAES`** opens the body of a data frame under the scheme of the frame. -/
theorem rtmpSoftDecryptAes_opens {key : CipherKey} (hkey : key.KeyLen ≠ 0) {m : Mem} {pData : Nat}
    (hdata : CarriesData m pData) {cnt : BitVec 32} {n : Nat}
    (hcnt : cnt.toNat = (frameKind m pData).headerLength + 16 + n) (hmax : cnt.toNat ≤ 4095) :
    ∃ ok m', rtmpSoftDecryptAes aes pData cnt key m = (ok, m') ∧
      (frameScheme aes m pData key.Key
          (receivedPn m (pData + (frameKind m pData).headerLength))).unseal
          (segment m (pData + ((frameKind m pData).headerLength + 8)) (n + 8))
        = if ok then some (segment m' (pData + (frameKind m pData).headerLength) n) else none := by
  have hhl := (frameKind m pData).headerLength_le
  generalize hk : frameKind m pData = k at hcnt hhl ⊢
  generalize hpn : receivedPn m (pData + k.headerLength) = pn
  have hpayload : (cnt - BitVec.ofNat 32 k.headerLength - 8 - 8).toNat = n := by bv_omega
  have htext := payload_ciphered (aes key.Key) pn hk.symm
    (rtmpConstructCcmpAad m pData true k.a4Exists k.qcExists) lenCcmpMic
    (show n / 16 < 255 by omega)
  have hscheme : frameScheme aes m pData key.Key pn
      = ccmScheme (aes key.Key) (nonceOf m pData k pn)
        (rtmpConstructCcmpAad m pData true k.a4Exists k.qcExists) lenCcmpMic := by
    rw [frameScheme, hk, ← hk, hdata.data]
    rfl
  have hunseal := Scheme.unseal_segment _ htext
  rw [rtmpSoftDecryptAes, hk, if_neg hkey]
  dsimp only
  rw [hpn, hpayload]
  generalize hm' : payloadRest (aes key.Key) pData k pn (n / 16) (n % 16)
    (k.headerLength + 8 + 16 * (n / 16))
    (payloadLoop (aes key.Key) pData k pn (n / 16) 0 (k.headerLength + 8) m) = m' at htext hunseal ⊢
  have hhdr : SameHeader m m' pData pData := by
    subst hk
    exact Ciphered.sameHeader htext
  have hidx : pData + (k.headerLength + 8 + 16 * (n / 16) + n % 16)
      = pData + (k.headerLength + 8) + n := by omega
  have htrail : segment m' (pData + (k.headerLength + 8) + n) 8
      = segment m (pData + (k.headerLength + 8) + n) 8 := htext.segment_rest (Or.inr (by omega))
  rw [hidx, htrail, ctrPreload_eq pn hhdr hk.symm (by decide),
    prefixOf_xor_pad _ (by decide) (length_segment _ _ _),
    handMic_eq (aes key.Key) hk.symm hhdr hdata.text (by omega) pn rfl, hscheme]
  have hcmp := compareMac_iff (ccmScheme (aes key.Key) (nonceOf m pData k pn)
    (rtmpConstructCcmpAad m pData true k.a4Exists k.qcExists) lenCcmpMic) (show 8 ≤ 16 by decide)
    (segment m' (pData + k.headerLength) n)
    (length_segment m (pData + (k.headerLength + 8) + n) lenCcmpMic)
  -- forcing the protected bit on leaves the text
  have hkeep : ∀ x : Byte, segment (Function.update m' (pData + 1) x) (pData + k.headerLength) n
      = segment m' (pData + k.headerLength) n := fun x =>
    segment_congr fun i _ => Function.update_of_ne (by omega) _ _
  by_cases heq : segment m (pData + (k.headerLength + 8) + n) 8
      = (ccmScheme (aes key.Key) (nonceOf m pData k pn)
        (rtmpConstructCcmpAad m pData true k.a4Exists k.qcExists) lenCcmpMic).tag
        (segment m' (pData + k.headerLength) n)
  · refine ⟨true, _, if_neg (not_not_intro (hcmp.mpr heq).symm), ?_⟩
    rw [hkeep]
    exact hunseal.trans ((if_pos heq).trans (if_pos rfl).symm)
  · refine ⟨false, _, if_pos fun h => heq (hcmp.mp h.symm), ?_⟩
    exact hunseal.trans (if_neg heq)

/-- **The two decryptors agree** on every data frame of up to 4095 bytes that has room for a
CCMP header and a MIC: one accepts it exactly if the other does, and then both leave the
same text behind the header. Every allocation of the cipher is granted. -/
theorem softDecrypt_agree (key : CipherKey) (m : Mem) (pData : Nat) (hdata : CarriesData m pData)
    (dataByteCnt : BitVec 32) (hmin : (frameKind m pData).headerLength + 16 ≤ dataByteCnt.toNat)
    (hmax : dataByteCnt.toNat ≤ 4095) :
    let headerLen := (frameKind m pData).headerLength
    let old := rtmpSoftDecryptAes aes pData dataByteCnt key m
    let new := rtmpSoftDecryptCcmp aes pData key (pData + headerLen)
      (BitVec.ofNat 16 (dataByteCnt.toNat - headerLen)) m
    old.1 = new.1 ∧
      (old.1 = true →
        new.2.2.toNat = dataByteCnt.toNat - headerLen - 16 ∧
        segment old.2 (pData + headerLen) (dataByteCnt.toNat - headerLen - 16)
          = segment new.2.1 (pData + headerLen) (dataByteCnt.toNat - headerLen - 16)) := by
  dsimp only
  by_cases hkey : key.KeyLen = 0
  · rw [rtmpSoftDecryptAes, rtmpSoftDecryptCcmp, if_pos hkey]
    simp [hkey]
  obtain ⟨n, hn⟩ := Nat.exists_eq_add_of_le hmin
  generalize hhl : (frameKind m pData).headerLength = hl at hn ⊢
  have hlen : (BitVec.ofNat 16 (dataByteCnt.toNat - hl)).toNat = 16 + n := by
    rw [BitVec.toNat_ofNat]
    omega
  obtain ⟨ok, m', hold, hopen⟩ := rtmpSoftDecryptAes_opens aes hkey hdata (hhl.symm ▸ hn) hmax
  obtain ⟨ok', m'', hnew, hopen'⟩ := rtmpSoftDecryptCcmp_opens aes hkey pData (pData + hl)
    (BitVec.ofNat 16 (dataByteCnt.toNat - hl)) (by omega) m
  rw [hhl] at hopen
  rw [hlen, show 16 + n - 8 = n + 8 by omega, Nat.add_sub_cancel_left, Nat.add_assoc, hopen] at hopen'
  rw [hold, hnew, show dataByteCnt.toNat - hl - 16 = n by omega]
  cases ok <;> cases ok'
  case false.false => exact ⟨rfl, fun h => absurd h (by simp)⟩
  case false.true => exact absurd hopen' (by simp)
  case true.false => exact absurd hopen' (by simp)
  case true.true =>
    refine ⟨rfl, fun _ => ⟨?_, Option.some.inj hopen'⟩⟩
    show (BitVec.ofNat 16 (dataByteCnt.toNat - hl) - 16).toNat = n
    bv_omega

open CcmpTestVector in
theorem softDecrypt_agree_test_vector :
    (rtmpSoftDecryptAes aesOf 0 60 ⟨16, pad TK⟩ (frame received)).1
      = (rtmpSoftDecryptCcmp aesOf 0 ⟨16, pad TK⟩ 24 36 (frame received)).1 := by
  have hkind := frameKind_frame received
  have hdata : CarriesData (frame received) 0 :=
    ⟨by rw [hkind], by rw [frame_of_lt received (by decide)]; decide⟩
  have h := softDecrypt_agree aesOf ⟨16, pad TK⟩ (frame received) 0 hdata 60
    (by rw [hkind]; decide) (by decide)
  rw [hkind] at h
  exact h.1

end ExtDrv.Rt3370
