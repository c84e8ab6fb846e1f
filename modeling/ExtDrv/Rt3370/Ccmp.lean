import ExtDrv.Lib.Ccm

/-!
# CCMP in software

`AES_CCM_MAC`, `AES_CCM_Encrypt` and `AES_CCM_Decrypt` of `common/crypt_aes.c`, and
the routines of `common/cmm_aes.c` that build their inputs from a frame and call
them. The block cipher, `RT_AES_Encrypt` with a key of sixteen bytes, is a parameter.

A frame is a memory and the routines take the places of its header and its data.
-/

namespace ExtDrv.Rt3370

open Memory Ccm

/-! ## Arrays -/

/-- `Block[i]`. -/
def at16 (b : Block) (i : Nat) : Byte := if h : i < 16 then b ⟨i, h⟩ else 0

/-- The first `n` bytes of a block. -/
def prefixOf (b : Block) (n : Nat) : List Byte := (List.ofFn b).take n

/-! ## Counter mode with CBC-MAC -/

/-- `AES_KEY128_LENGTH`. -/
abbrev aesKey128Length : Nat := 16

section Ccm

variable (rtAesEncrypt : Block → Block → Block)

/-- The first block of `AES_CCM_MAC`. -/
def controlBlock (payloadLength : BitVec 32) (nonce : List Byte) (aadLength macLength : Nat) :
    Block := fun i =>
  if i = 15 then payloadLength.setWidth 8
  else if i = 14 then (payloadLength >>> 8).setWidth 8
  else if i = 13 ∧ nonce.length < 13 then (payloadLength >>> 16).setWidth 8
  else if i = 12 ∧ nonce.length < 12 then (payloadLength >>> 24).setWidth 8
  else if i = 0 then
    (if 0 < aadLength then 0x40#8 else 0) ||| BitVec.ofNat 8 ((macLength - 2) / 2 * 8)
      ||| BitVec.ofNat 8 (15 - nonce.length - 1)
  else nonce.getD (i.val - 1) 0

/-- The length of the associated data, in front of it. -/
def aadLengthBytes (aadLength : Nat) : List Byte :=
  if 0 < aadLength ∧ aadLength < 0xFF00 then
    [BitVec.ofNat 8 (aadLength / 2 ^ 8), BitVec.ofNat 8 aadLength]
  else
    [0, 0, BitVec.ofNat 8 (aadLength / 2 ^ 24), BitVec.ofNat 8 (aadLength / 2 ^ 16),
      BitVec.ofNat 8 (aadLength / 2 ^ 8), BitVec.ofNat 8 aadLength]

/-- The loops of `AES_CCM_MAC` over `bytes`: `filled` bytes of the block are set
before the first turn, and none before the others. Each turn takes a byte at least. -/
def macLoop (E : Block → Block) (bytes : List Byte) :
    Nat → Nat → Block → Nat → Block → Block
  | 0, _, _, _, blockMac => blockMac
  | turns + 1, index, block, filled, blockMac =>
      if index < bytes.length then
        let copyLength := min (bytes.length - index) 16
        let copyLength := if 16 < copyLength + filled then 16 - filled else copyLength
        let block : Block := fun i =>
          if filled ≤ i.val ∧ i.val < filled + copyLength then
            bytes.getD (index + (i.val - filled)) 0
          else block i
        macLoop E bytes turns (index + copyLength) (fun _ => 0) 0 (E (xorBlock block blockMac))
      else blockMac

/-- `AES_CCM_MAC`. -/
def aesCcmMac (payload : List Byte) (key : Block) (nonce aad : List Byte) (macLength : Nat) :
    List Byte :=
  let E := rtAesEncrypt key
  let blockMac := E (controlBlock (BitVec.ofNat 32 payload.length) nonce aad.length macLength)
  let lengthBytes := aadLengthBytes aad.length
  let blockMac := macLoop E aad aad.length 0 (pad lengthBytes) lengthBytes.length blockMac
  let blockMac := macLoop E payload payload.length 0 (fun _ => 0) 0 blockMac
  prefixOf blockMac macLength

/-- `Block_CTR`, as it is set up. -/
def counterBlock (nonce : List Byte) : Block := fun i =>
  if i = 0 then BitVec.ofNat 8 (15 - nonce.length - 1) else nonce.getD (i.val - 1) 0

/-- `Block_CTR` after `k` blocks. -/
def counterAt (nonce : List Byte) (k : Nat) : Block :=
  Function.update (counterBlock nonce) 15 (BitVec.ofNat 8 k)

/-- The inner loop: `n` bytes from `src` to `dst`, one after the other. -/
def copyXor (ks : Block) (src dst n : Nat) (m : Mem) : Mem :=
  (List.range n).foldl (fun m t => Function.update m (dst + t) (m (src + t) ^^^ at16 ks t)) m

/-- The loop over the blocks of the text: `Block_CTR[15] += 1`, an unsigned char. -/
def cipherLoop (E : Block → Block) (src dst len : Nat) : Nat → Nat → Block → Mem → Mem
  | 0, _, _, m => m
  | turns + 1, index, blockCtr, m =>
      if index < len then
        let blockCtr := Function.update blockCtr 15 (blockCtr 15 + 1)
        let copyLength := min (len - index) 16
        cipherLoop E src dst len turns (index + copyLength) blockCtr
          (copyXor (E blockCtr) (src + index) (dst + index) copyLength m)
      else m

/-- The checks of the lengths: of the key, the nonce and the MAC. -/
def ccmLengths (keyLength nonceLength macLength : Nat) : Int :=
  if keyLength ≠ aesKey128Length then -1
  else if nonceLength < 7 ∨ 13 < nonceLength then -2
  else if macLength ∉ [4, 6, 8, 10, 12, 14, 16] then -3
  else 0

/-- `AES_CCM_Encrypt`: what it returns, the memory and `*CipherTextLength`. -/
def aesCcmEncrypt (plainText : Nat) (plainTextLength : BitVec 32) (key : Block) (keyLength : Nat)
    (nonce aad : List Byte) (macLength : Nat) (cipherText : Nat) (cipherTextLength : BitVec 32)
    (m : Mem) : Int × Mem × BitVec 32 :=
  if ccmLengths keyLength nonce.length macLength ≠ 0 then
    (ccmLengths keyLength nonce.length macLength, m, cipherTextLength)
  else if cipherTextLength.toNat < (plainTextLength + BitVec.ofNat 32 macLength).toNat then
    (-4, m, cipherTextLength)
  else
    let E := rtAesEncrypt key
    let blockCtr := counterBlock nonce
    let blockMac := aesCcmMac rtAesEncrypt (segment m plainText plainTextLength.toNat) key nonce
      aad macLength
    let blockMac := List.zipWith (· ^^^ ·) blockMac (prefixOf (E blockCtr) macLength)
    let m := cipherLoop E plainText cipherText plainTextLength.toNat plainTextLength.toNat 0
      blockCtr m
    let m := store m (cipherText + plainTextLength.toNat) blockMac
    (0, m, plainTextLength + BitVec.ofNat 32 macLength)

/-- `AES_CCM_Decrypt`: what it returns, the memory and `*PlainTextLength`. -/
def aesCcmDecrypt (cipherText : Nat) (cipherTextLength : BitVec 32) (key : Block) (keyLength : Nat)
    (nonce aad : List Byte) (macLength : Nat) (plainText : Nat) (plainTextLength : BitVec 32)
    (m : Mem) : Int × Mem × BitVec 32 :=
  let textLength := cipherTextLength - BitVec.ofNat 32 macLength
  if ccmLengths keyLength nonce.length macLength ≠ 0 then
    (ccmLengths keyLength nonce.length macLength, m, plainTextLength)
  else if plainTextLength.toNat < textLength.toNat then (-4, m, plainTextLength)
  else
    let E := rtAesEncrypt key
    let blockCtr := counterBlock nonce
    let blockMacFromCipher := List.zipWith (· ^^^ ·)
      (segment m (cipherText + textLength.toNat) macLength) (prefixOf (E blockCtr) macLength)
    let m := cipherLoop E cipherText plainText textLength.toNat textLength.toNat 0 blockCtr m
    let blockMac := aesCcmMac rtAesEncrypt (segment m plainText textLength.toNat) key nonce aad
      macLength
    if blockMacFromCipher ≠ blockMac then (-5, m, textLength) else (0, m, textLength)

end Ccm

/-! ## The frame -/

/-- `LEN_CCMP_HDR`. -/
abbrev lenCcmpHdr : Nat := 8

/-- `LEN_CCMP_MIC`. -/
abbrev lenCcmpMic : Nat := 8

/-- `BTYPE_DATA`. -/
abbrev btypeData : Nat := 2

/-- What the routines read from the frame control field: the type, and whether a
fourth address and a QoS field are there. -/
structure FrameKind where
  frameType : Nat
  a4Exists : Bool
  qcExists : Bool
  deriving DecidableEq, Repr

/-- The kind of the frame whose header is at `pHdr`. -/
def frameKind (m : Mem) (pHdr : Nat) : FrameKind where
  frameType := (m pHdr >>> 2 &&& 0x03).toNat
  -- from_ds and to_ds
  a4Exists := (m (pHdr + 1)).getLsbD 1 && (m (pHdr + 1)).getLsbD 0
  -- the four QoS subtypes that carry data
  qcExists := [8, 9, 10, 11].contains ((m pHdr >>> 4 &&& 0x0f).toNat)

/-- `RTMPConstructCCMPAAD`. -/
def rtmpConstructCcmpAad (m : Mem) (pHdr : Nat) (isDataFrame a4Exists qcExists : Bool) :
    List Byte :=
  [if isDataFrame then m pHdr &&& 0x8f else m pHdr, (m (pHdr + 1) &&& 0xc7) ||| 0x40]
    ++ segment m (pHdr + 4) 18
    ++ [m (pHdr + 22) &&& 0x0f, 0x00]
    ++ (if a4Exists then segment m (pHdr + 24) 6 else [])
    ++ (if qcExists && a4Exists then [m (pHdr + 30) &&& 0x0f, 0x00]
      else if qcExists && !a4Exists then [m (pHdr + 24) &&& 0x0f, 0x00]
      else [])

/-- `RTMPConstructCCMPNonce`. -/
def rtmpConstructCcmpNonce (m : Mem) (pHdr : Nat) (a4Exists qcExists : Bool) (pn : List Byte) :
    List Byte :=
  [if qcExists && a4Exists then m (pHdr + 30) &&& 0x0f
    else if qcExists && !a4Exists then m (pHdr + 24) &&& 0x0f
    else 0]
    ++ segment m (pHdr + 10) 6
    ++ (List.range 6).map fun i => pn.getD (5 - i) 0

/-- `RTMPConstructCCMPHdr`. -/
def rtmpConstructCcmpHdr (keyIdx : BitVec 8) (pn : List Byte) : List Byte :=
  [pn.getD 0 0, pn.getD 1 0, 0, (keyIdx <<< 6) ||| 0x20, pn.getD 2 0, pn.getD 3 0, pn.getD 4 0,
    pn.getD 5 0]

/-- The part of `CIPHER_KEY` that is read. -/
structure CipherKey where
  KeyLen : BitVec 8
  Key : Block

variable (rtAesEncrypt : Block → Block → Block)

/-- `RTMPSoftEncryptCCMP`: what it returns, and the memory. -/
def rtmpSoftEncryptCcmp (pHdr : Nat) (pIV : List Byte) (pKey : Block) (pData : Nat)
    (dataLen : BitVec 32) (m : Mem) : Bool × Mem :=
  let k := frameKind m pHdr
  let aadHdr := rtmpConstructCcmpAad m pHdr (k.frameType = btypeData) k.a4Exists k.qcExists
  let nonceHdr := rtmpConstructCcmpNonce m pHdr k.a4Exists k.qcExists pIV
  let r := aesCcmEncrypt rtAesEncrypt pData dataLen pKey 16 nonceHdr aadHdr lenCcmpMic pData
    (dataLen + 8) m
  (r.1 = 0, r.2.1)

/-- `RTMPSoftDecryptCCMP`: what it returns, the memory and `*DataLen`. -/
def rtmpSoftDecryptCcmp (pHdr : Nat) (pKey : CipherKey) (pData : Nat) (dataLen : BitVec 16)
    (m : Mem) : Bool × Mem × BitVec 16 :=
  if pKey.KeyLen = 0 then (false, m, dataLen)
  else
    let k := frameKind m pHdr
    let pn := [m pData, m (pData + 1), m (pData + 4), m (pData + 5), m (pData + 6), m (pData + 7)]
    -- skip ccmp header
    let cipherDataPtr := pData + lenCcmpHdr
    let cipherDataLen := dataLen.setWidth 32 - BitVec.ofNat 32 lenCcmpHdr
    let aadHdr := rtmpConstructCcmpAad m pHdr (k.frameType = btypeData) k.a4Exists k.qcExists
    let nonceHdr := rtmpConstructCcmpNonce m pHdr k.a4Exists k.qcExists pn
    let r := aesCcmDecrypt rtAesEncrypt cipherDataPtr cipherDataLen pKey.Key 16 nonceHdr aadHdr
      lenCcmpMic pData (dataLen.setWidth 32) m
    if r.1 ≠ 0 then (false, r.2.1, dataLen) else (true, r.2.1, r.2.2.setWidth 16)

end ExtDrv.Rt3370
