import ExtDrv.Rt3370.CmmAes
import ExtDrv.Rt3370.Michael
import ExtDrv.Rt3370.TkipMixing
import ExtDrv.Rt3370.WepRoundTrip

/-!
# TKIP in software

`RTMPSoftDecryptTKIP` of `common/cmm_tkip.c`, over a memory that records accesses. The
key of the cipher is mixed from the transmitter's address and the counter in the IV
header; the text goes to where that header was, and is taken with its check and its MIC.
-/

namespace ExtDrv.Rt3370.Tkip

open Memory Arc4 LittleEndian Wep
open Ccm hiding Byte

/-- `LEN_TKIP_IV_HDR`. -/
abbrev lenTkipIvHdr : Nat := 8

/-- `LEN_TKIP_MIC`. -/
abbrev lenTkipMic : Nat := 8

/-- `CIPHER_KEY`, with the key of the MIC. -/
structure TkipCipherKey extends CipherKey where
  RxMic : List Byte

/-- Where the header has the addresses. -/
structure Addresses where
  DA : Nat
  TA : Nat
  SA : Nat

/-- `Addr1`, `Addr2`, `Addr3` and `Octet`, by the direction of the frame. -/
def addressesOf (toDs fromDs : Bool) : Addresses :=
  if !toDs && fromDs then ⟨4, 10, 16⟩
  else if !toDs && !fromDs then ⟨4, 10, 10⟩
  else if toDs && !fromDs then ⟨16, 10, 10⟩
  else ⟨16, 10, 24⟩

/-- `pnl`, from the bytes 0 and 2 of the IV header. -/
def pnLow (b0 b2 : Byte) : Nat := b0.toNat <<< 8 ||| b2.toNat

/-- `RC4Key`. -/
def rc4KeyOf (pKey : CipherKey) (ta : List Byte) (pnl pnh : Nat) : List Byte :=
  (rtmpTkipMixKey (CmmAes.keyArray pKey.Key) (fun i => ta.getD i 0) pnl pnh).1

/-- The end of `RTMPSoftDecryptTKIP`: the MIC behind `plaintextLen` bytes of text, with its
length still in them. -/
def checkMic (tx : TkipKeyInfo) (da sa : List Byte) (userPriority : Byte) (rxMic : List Byte)
    (pData : Nat) (plaintextLen : BitVec 32) (dataByteCnt : BitVec 16) (t : Tape) :
    Bool × Tape × BitVec 16 × TkipKeyInfo :=
  let plaintextLen := plaintextLen - BitVec.ofNat 32 lenTkipMic
  let (trailMic, t) := t.read (pData + plaintextLen.toNat) lenTkipMic
  let tx := rtmpInitMICEngine tx da sa userPriority rxMic
  let (text, t) := t.read pData plaintextLen.toNat
  let tx := rtmpTkipGetMIC (rtmpTkipAppend tx text)
  if tx.MIC ≠ trailMic then (false, t, dataByteCnt, tx)
  else (true, t, plaintextLen.setWidth 16, tx)

/-- `RTMPSoftDecryptTKIP`: what it returns, the memory, `*DataByteCnt` and the engine. -/
def rtmpSoftDecryptTkip (tx : TkipKeyInfo) (pHdr : Nat) (userPriority : Byte)
    (pKey : TkipCipherKey) (pData : Nat) (dataByteCnt : BitVec 16) (t : Tape) :
    Bool × Tape × BitVec 16 × TkipKeyInfo :=
  if pKey.KeyLen = 0 then (false, t, dataByteCnt, tx)
  else
    let (fc, t) := t.read pHdr 2
    let toDs := (fc.getD 1 0).getLsbD 0
    let fromDs := (fc.getD 1 0).getLsbD 1
    let a := addressesOf toDs fromDs
    let (da, t) := t.read (pHdr + a.DA) macAddrLen
    let (ta, t) := t.read (pHdr + a.TA) macAddrLen
    let (sa, t) := t.read (pHdr + a.SA) macAddrLen
    let (b0, t) := t.read pData 1
    let (b2, t) := t.read (pData + 2) 1
    let (pnh, t) := t.read (pData + 4) 4
    let rc4Key := rc4KeyOf pKey.toCipherKey ta (pnLow (b0.getD 0 0) (b2.getD 0 0))
      (leWord pnh).toNat
    -- skip the IV/EIV header; the text goes to where it was
    let ciphertextLen := dataByteCnt.setWidth 32 - BitVec.ofNat 32 lenTkipIvHdr
    let t := arc4ComputeAt (arc4Init rc4Key) (pData + lenTkipIvHdr) ciphertextLen.toNat pData t
    let plaintextLen := ciphertextLen - BitVec.ofNat 32 lenIcv
    let (trailFcs, t) := t.read (pData + plaintextLen.toNat) lenIcv
    let (text, t) := t.read pData plaintextLen.toNat
    let crc32 := rtmpCalcFcs32 pppInitFcs32 text ^^^ 0xffffffff#32
    if crc32 ≠ leWord trailFcs then (false, t, dataByteCnt, tx)
    else checkMic tx da sa userPriority pKey.RxMic pData plaintextLen dataByteCnt t

/-! ## What is touched -/

/-- The header and the IV header are read. -/
def frontTouches (pHdr pData : Nat) (a : Addresses) : List Touch :=
  Tape.reads pHdr 2 ++ Tape.reads (pHdr + a.DA) macAddrLen ++ Tape.reads (pHdr + a.TA) macAddrLen
    ++ Tape.reads (pHdr + a.SA) macAddrLen ++ Tape.reads pData 1 ++ Tape.reads (pData + 2) 1
    ++ Tape.reads (pData + 4) 4

/-- The addresses of the frame at `pHdr`. -/
def addressesAt (m : Mem) (pHdr : Nat) : Addresses :=
  addressesOf ((m (pHdr + 1)).getLsbD 0) ((m (pHdr + 1)).getLsbD 1)

/-- The key stream for a received body. -/
def streamAt (m : Mem) (pHdr : Nat) (pKey : CipherKey) (pData : Nat) : Arc4Ctx :=
  arc4Init (rc4KeyOf pKey (segment m (pHdr + (addressesAt m pHdr).TA) macAddrLen)
    (pnLow (m pData) (m (pData + 2))) (leWord (segment m (pData + 4) 4)).toNat)

/-- The text of a received body, where its header was. -/
def openedTape (pHdr : Nat) (pKey : CipherKey) (pData : Nat) (cnt : BitVec 16) (t : Tape) : Tape :=
  arc4ComputeAt (streamAt t.mem pHdr pKey pData) (pData + lenTkipIvHdr)
    (cnt.setWidth 32 - BitVec.ofNat 32 lenTkipIvHdr).toNat pData
    (t.note (frontTouches pHdr pData (addressesAt t.mem pHdr)))

section Run

variable {tx : TkipKeyInfo} {pHdr pData : Nat} {up : Byte} {pKey : TkipCipherKey} {cnt : BitVec 16}
  {t opened : Tape} {len : BitVec 32}

/-- The tape behind the comparison of the check. -/
def compared (opened : Tape) (pData : Nat) (len : BitVec 32) : Tape :=
  opened.note (Tape.reads (pData + len.toNat) lenIcv ++ Tape.reads pData len.toNat)

/-- Only a text with its check comes to its MIC. -/
theorem rtmpSoftDecryptTkip_eq (hkey : pKey.KeyLen ≠ 0)
    (hopened : openedTape pHdr pKey.toCipherKey pData cnt t = opened)
    (hlen : cnt.setWidth 32 - BitVec.ofNat 32 lenTkipIvHdr - BitVec.ofNat 32 lenIcv = len) :
    rtmpSoftDecryptTkip tx pHdr up pKey pData cnt t
      = if Crc32.crc32 (segment opened.mem pData len.toNat)
          ≠ leWord (segment opened.mem (pData + len.toNat) lenIcv)
        then (false, compared opened pData len, cnt, tx)
        else checkMic tx (segment t.mem (pHdr + (addressesAt t.mem pHdr).DA) macAddrLen)
          (segment t.mem (pHdr + (addressesAt t.mem pHdr).SA) macAddrLen) up pKey.RxMic pData len
          cnt (compared opened pData len) := by
  subst hopened hlen
  have hfc : (segment t.mem pHdr 2).getD 1 0 = t.mem (pHdr + 1) := rfl
  have hb0 : (segment t.mem pData 1).getD 0 0 = t.mem pData := rfl
  have hb2 : (segment t.mem (pData + 2) 1).getD 0 0 = t.mem (pData + 2) := rfl
  rw [rtmpSoftDecryptTkip, if_neg hkey]
  simp only [Tape.read_fst, Tape.read_snd, Tape.note_mem, Tape.note_note, hfc, hb0, hb2,
    calcFcs32_crc32]
  rfl

end Run

end ExtDrv.Rt3370.Tkip
