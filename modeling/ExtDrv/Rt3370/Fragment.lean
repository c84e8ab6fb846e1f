import ExtDrv.Lib.Loop
import ExtDrv.Rt3370.CcmStandard
import ExtDrv.Rt3370.Michael
import ExtDrv.Rt3370.Wep

/-!
# Fragmented transmission

`STA_Fragment_Frame_Tx` of `sta/rtmp_data.c`, from the packet it has looked up to the
fragments it hands to `RtmpUSB_WriteFragTxResource` (`common/cmm_data_usb.c`), with
`RTMPSoftConstructIVHdr`, `RTMPSoftEncryptionAction` and `inc_iv_byte` of
`common/cmm_wpa.c`, and the way a fragmentation threshold is set (`rt_ioctl_siwfrag` of
`os/linux/sta_ioctl.c`).

The packet, the header buffer and the key are in one memory. The allocations are granted, but
for those of the cipher. The duration of a fragment is left as it is.
-/

namespace ExtDrv.Rt3370.Frag

open Memory Loop
open Ccm (Byte)
open Tkip (TkipKeyInfo rtmpCalculateMICValue typeAt packetVlan)

/-! ## The threshold -/

/-- `MAX_FRAG_THRESHOLD`. -/
abbrev maxFragThreshold : Nat := 2346

/-- `MIN_FRAG_THRESHOLD`. -/
abbrev minFragThreshold : Nat := 256

/-- `rt_ioctl_siwfrag`: what `FragmentThreshold` is set to. -/
def rtIoctlSiwfrag (disabled : Bool) (value : Int) : Option (BitVec 16) :=
  if disabled then some (BitVec.ofNat 16 maxFragThreshold)
  else if (minFragThreshold : Int) ≤ value ∨ value ≤ maxFragThreshold then
    -- even numbers only
    some (BitVec.ofInt 16 value &&& 0xfffe)
  else if value = 0 then some (BitVec.ofNat 16 maxFragThreshold)
  else none

/-- `NumberOfFrag` of `STASendPacket`, for a packet that may be fragmented. -/
def numberOfFrag (fragmentThreshold : BitVec 16) (totalPacketLength : BitVec 32) : BitVec 8 :=
  let allowFragSize := fragmentThreshold.setWidth 32 - 24 - 4
  let len := totalPacketLength - BitVec.ofNat 32 length8023 + BitVec.ofNat 32 length8021H
  let n := (len / allowFragSize + 1).setWidth 8
  if len % allowFragSize = 0 then n - 1 else n

/-! ## What is sent -/

/-- `CipherAlg`. -/
inductive CipherAlg where
  | none | wep64 | wep128 | tkip | aes | ckip64 | ckip128 | ckip152 | sms4
  deriving DecidableEq, Repr

/-- A WEP cipher. -/
def CipherAlg.isWep : CipherAlg → Bool
  | .wep64 | .wep128 => true
  | _ => false

/-- `CIPHER_KEY`; `TxTsc` is in memory. -/
structure TxKey extends CipherKey where
  TxMic : List Byte

/-- A packet in its `TX_BLK`, once `STABuildCommon802_11Header` has made the header, at
`&HeaderBuf[TXINFO_SIZE + TXWI_SIZE]`. The packet holds its Ethernet header and the tag it is marked
for, and has room for what is appended to it; the header buffer is elsewhere, and the header's
fragment number is zero. -/
structure TxBlk where
  mem : Mem
  pSrcBufHeader : Nat
  SrcBufLen : BitVec 32
  pHeader : Nat
  FragmentThreshold : BitVec 16
  bWMM : Bool
  bSwEncrypt : Bool
  UserPriority : Byte
  CipherAlg : CipherAlg
  KeyIdx : Byte
  pTxTsc : Nat
  pKey : TxKey
  Tx : TkipKeyInfo
  os : Wep.Allocated
  header : length8023 ≤ SrcBufLen.toNat
  tag : packetVlan (fun i => mem (pSrcBufHeader + i)) = true → length8023 + 4 ≤ SrcBufLen.toNat
  room : SrcBufLen.toNat < 2147483648
  apart : pHeader + 48 ≤ pSrcBufHeader ∨ pSrcBufHeader + SrcBufLen.toNat + 16 ≤ pHeader
  firstFrag : mem (pHeader + 22) &&& 0x0f = 0

namespace TxBlk

variable (b : TxBlk)

/-- The packet, from its first byte on. -/
def buf : Mem := fun i => b.mem (b.pSrcBufHeader + i)

/-- What is skipped of a marked packet. -/
def vlanSize : Nat := if packetVlan b.buf then 4 else 0

/-- `pSrcBufData` behind the 802.3 header and the tag. -/
def dataStart : Nat := b.pSrcBufHeader + length8023 + b.vlanSize

/-- `SrcBufLen` then. -/
def dataLen : BitVec 32 := b.SrcBufLen - BitVec.ofNat 32 length8023 - BitVec.ofNat 32 b.vlanSize

/-- `MpduHeaderLen` with the QoS field. -/
def macHeaderLen : Nat := if b.bWMM then 26 else 24

/-- `HdrPadLen`: the LLC header is aligned. -/
def hdrPadLen : Nat :=
  (b.pHeader + b.macHeaderLen + 3) / 4 * 4 - (b.pHeader + b.macHeaderLen)

/-- `pHeaderBufPtr` behind the padding. -/
def payloadAt : Nat := b.pHeader + b.macHeaderLen + b.hdrPadLen

/-- The memory with the QoS control bytes. -/
def withQos : Mem :=
  if b.bWMM then store b.mem (b.pHeader + 24) [b.UserPriority &&& 0x0f, 0] else b.mem

end TxBlk

/-- `RTMPSoftConstructIVHdr`. -/
def rtmpSoftConstructIvHdr (alg : CipherAlg) (keyIdx : Byte) (txIv : List Byte) : List Byte :=
  if alg.isWep then Wep.rtmpConstructWepIvHdr keyIdx txIv
  else if alg = .aes then rtmpConstructCcmpHdr keyIdx txIv
  else []

/-- The frame in front of its loop. -/
structure Ready where
  mem : Mem
  pSrcBufData : Nat
  SrcBufLen : BitVec 32
  MpduHeaderLen : BitVec 8
  pHeaderBufPtr : Nat
  pExtraLlcSnapEncap : Option (List Byte)

namespace TxBlk

variable (b : TxBlk)

/-- The LLC header is put in front of the data, and the IV header behind the frame's. -/
def softReady (m : Mem) : Ready :=
  let encap := extraLlcSnapEncap (segment m (b.dataStart - 2) 2)
  let front := if encap.isSome then length8021H else 0
  let m := match encap with
    | some snap => store m (b.dataStart - length8021H) snap
    | none => m
  let iv := rtmpSoftConstructIvHdr b.CipherAlg b.KeyIdx (segment m b.pTxTsc 6)
  { mem := store m b.payloadAt iv
    pSrcBufData := b.dataStart - front
    SrcBufLen := b.dataLen + BitVec.ofNat 32 front
    MpduHeaderLen := BitVec.ofNat 8 (b.macHeaderLen + iv.length)
    pHeaderBufPtr := b.payloadAt + iv.length
    pExtraLlcSnapEncap := encap }

/-- The LLC header is put behind the frame's. -/
def plainReady (m : Mem) : Ready :=
  let encap := extraLlcSnapEncap (segment m (b.pSrcBufHeader + 12) 2)
  let llc := match encap with
    | some snap => snap ++ segment m (b.pSrcBufHeader + 12 + b.vlanSize) 2
    | none => []
  { mem := store m b.payloadAt llc
    pSrcBufData := b.dataStart
    SrcBufLen := b.dataLen
    MpduHeaderLen := BitVec.ofNat 8 (b.macHeaderLen + llc.length)
    pHeaderBufPtr := b.payloadAt + llc.length
    pExtraLlcSnapEncap := encap }

/-- The MIC of TKIP, behind the data. -/
def withMic (r : Ready) : Ready :=
  if b.CipherAlg = .tkip then
    let tx := rtmpCalculateMICValue b.Tx (fun i => r.mem (b.pSrcBufHeader + i)) b.SrcBufLen
      b.UserPriority r.pExtraLlcSnapEncap b.pKey.TxMic
    { r with
      mem := store r.mem (r.pSrcBufData + r.SrcBufLen.toNat) (tx.MIC.take 8)
      SrcBufLen := r.SrcBufLen + 8 }
  else r

/-- `STA_Fragment_Frame_Tx` up to its loop. -/
def ready : Ready :=
  b.withMic (if b.bSwEncrypt then b.softReady b.withQos else b.plainReady b.withQos)

end TxBlk

/-! ## The loop -/

/-- A call of `RtmpUSB_WriteFragTxResource`: the numbers, the 802.11 header with what is behind it
in the header buffer, and the source; `text` is the source before it is enciphered. -/
structure Written where
  fragNum : BitVec 8
  TotalFragNum : BitVec 16
  MpduHeaderLen : BitVec 8
  header : List Byte
  text : List Byte
  source : List Byte

/-- The state of the loop. -/
structure FragState where
  mem : Mem
  pSrcBufData : Nat
  SrcRemainingBytes : BitVec 32
  MpduHeaderLen : BitVec 8
  fragNum : BitVec 8
  TotalFragNum : BitVec 16
  bufOffset : BitVec 32
  written : List Written

/-- `inc_iv_byte`. -/
def incIvByte (cnt : Byte) : Bool → List Byte → List Byte
  | _, [] => []
  | carry, iv :: ivs =>
      let iv' := iv + if carry then 1 else cnt
      if iv.toNat < iv'.toNat then iv' :: ivs else iv' :: incIvByte cnt true ivs

namespace TxBlk

variable (b : TxBlk)

/-- `FreeMpduSize`. -/
def freeMpduSize (mpduHeaderLen : BitVec 8) : BitVec 32 :=
  b.FragmentThreshold.setWidth 32 - 4 - mpduHeaderLen.setWidth 32

/-- `FC.MoreFrag`. -/
def setMoreFrag (more : Bool) (m : Mem) : Mem :=
  Function.update m (b.pHeader + 1)
    (if more then m (b.pHeader + 1) ||| 0x04 else m (b.pHeader + 1) &&& 0xfb)

/-- `Frag++`, of four bits. -/
def nextFrag (m : Mem) : Mem :=
  Function.update m (b.pHeader + 22)
    ((m (b.pHeader + 22) &&& 0xf0) ||| ((m (b.pHeader + 22) + 1) &&& 0x0f))

/-- `RTMPSoftEncryptionAction`: the memory, and `*ext_len`. -/
def rtmpSoftEncryptionAction (pSrcBufData : Nat) (srcBufLen : BitVec 32) (m : Mem) :
    Mem × BitVec 32 :=
  if b.CipherAlg.isWep then
    ((Wep.rtmpSoftEncryptWep b.os b.pTxTsc b.pKey.toCipherKey pSrcBufData srcBufLen
      ⟨m, []⟩).2.mem, 4)
  else if b.CipherAlg = .aes then
    ((rtmpSoftEncryptCcmp rtAes128 b.pHeader (segment m b.pTxTsc 6) b.pKey.Key pSrcBufData srcBufLen
      m).2, 8)
  else (m, 0)

/-- The counter of the key, and the IV header made of it. -/
def nextIv (pHeaderBufPtr : Nat) (m : Mem) : Mem :=
  if b.CipherAlg.isWep then
    let m := store m b.pTxTsc (incIvByte 1 false (segment m b.pTxTsc 3))
    store m (pHeaderBufPtr - 4) (Wep.rtmpConstructWepIvHdr b.KeyIdx (segment m b.pTxTsc 6))
  else if b.CipherAlg = .aes then
    let m := store m b.pTxTsc (incIvByte 1 false (segment m b.pTxTsc 6))
    store m (pHeaderBufPtr - 8) (rtmpConstructCcmpHdr b.KeyIdx (segment m b.pTxTsc 6))
  else m

/-- The body of the loop; `tmp` is what was stored of the frame for software encryption. -/
def sendFragment (r : Ready) (tmp : List Byte) (s : FragState) : FragState :=
  let free := b.freeMpduSize s.MpduHeaderLen
  -- this is the last or only fragment, or more are required
  let last : Bool := s.SrcRemainingBytes.toNat ≤ free.toNat
  let len := if last then s.SrcRemainingBytes else free
  let total := if last then s.fragNum.setWidth 16 else s.TotalFragNum
  let m := b.setMoreFrag (!last) s.mem
  let m := if b.bSwEncrypt then
      store m s.pSrcBufData ((tmp.drop s.bufOffset.toNat).take len.toNat)
    else m
  let text := segment m s.pSrcBufData len.toNat
  let (m, ext) := if b.bSwEncrypt then b.rtmpSoftEncryptionAction s.pSrcBufData len m else (m, 0)
  let w : Written :=
    { fragNum := s.fragNum
      TotalFragNum := total
      MpduHeaderLen := s.MpduHeaderLen
      header := segment m b.pHeader (s.MpduHeaderLen.toNat + b.hdrPadLen)
      text := text
      source := segment m s.pSrcBufData (len + ext).toNat }
  let first := s.fragNum = 0 ∧ r.pExtraLlcSnapEncap.isSome
  { mem := b.nextFrag (if b.bSwEncrypt then b.nextIv r.pHeaderBufPtr m else m)
    pSrcBufData := s.pSrcBufData + (len + ext).toNat
    SrcRemainingBytes := s.SrcRemainingBytes - len
    MpduHeaderLen := if b.bSwEncrypt = false ∧ first then s.MpduHeaderLen - 8 else s.MpduHeaderLen
    fragNum := s.fragNum + 1
    TotalFragNum := total
    bufOffset := s.bufOffset + len
    written := s.written ++ [w] }

/-- One turn. -/
def fragTurn (r : Ready) (tmp : List Byte) (s : FragState) : Turn FragState (List Written) Empty :=
  let s := b.sendFragment r tmp s
  if 0 < s.SrcRemainingBytes.toNat then .next s else .ret s.written

/-- The state in front of the loop. -/
def start (r : Ready) : FragState where
  mem := r.mem
  pSrcBufData := r.pSrcBufData
  SrcRemainingBytes := r.SrcBufLen
  MpduHeaderLen := r.MpduHeaderLen
  fragNum := 0
  TotalFragNum := 0xff
  bufOffset := 0
  written := []

/-- `STA_Fragment_Frame_Tx`: the fragments, given turns enough. -/
def staFragmentFrameTx (n : Nat) : Option (Except Empty (List Written)) :=
  let r := b.ready
  iterate (b.fragTurn r (segment r.mem r.pSrcBufData r.SrcBufLen.toNat)) n (start r)

end TxBlk

end ExtDrv.Rt3370.Frag
