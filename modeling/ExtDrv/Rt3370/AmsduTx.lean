import ExtDrv.Rt3370.Amsdu

/-!
# A-MSDU transmission

How the station builds an A-MSDU: the batch `RTMPDeQueuePacket` takes off its queue
with `CanDoAggregateTransmit` (`common/cmm_data.c`), and the sub-frames
`STA_AMSDU_Frame_Tx` (`sta/rtmp_data.c`) makes of it. The body begins behind the
802.11 header and its padding. The flags that `RTMPCheckEtherType` leaves on a packet
are taken as they come.
-/

namespace ExtDrv.Rt3370

open Memory

/-! ## Packets -/

/-- A queued packet: an Ethernet frame, for `STASendPacket` turns away what is shorter
than its header, and the flags in its control block. -/
structure TxPacket where
  bytes : List (BitVec 8)
  header : length8023 ≤ bytes.length
  mcast : Bool
  vlan : Bool
  dhcp : Bool
  eapol : Bool
  wai : Bool

/-- `GET_OS_PKT_LEN`. -/
abbrev TxPacket.len (p : TxPacket) : Nat := p.bytes.length

/-! ## The batch -/

/-- `RX_BUFFER_AGGRESIZE`. -/
abbrev rxBufferAggresize : Nat := 3840

/-- `CanDoAggregateTransmit` for an A-MSDU of `totalFrameLen` bytes so far. -/
def canDoAggregateTransmit (infra : Bool) (totalFrameLen : Nat) (p : TxPacket) : Bool :=
  if p.mcast then false
  else if p.dhcp || p.eapol || p.wai then false
  -- allow the packets with total length < max-amsdu size
  else if rxBufferAggresize - 100 < totalFrameLen + p.len then false
  else infra

/-- The inner loop of `RTMPDeQueuePacket` from packet `n` of the batch on; `hasTxDesc`
says whether there is a descriptor for one more. -/
def takeAggregates (infra : Bool) (hasTxDesc : Nat → Bool) :
    Nat → Nat → List TxPacket → List TxPacket
  | _, _, [] => []
  | n, totalFrameLen, p :: rest =>
      if hasTxDesc n && canDoAggregateTransmit infra totalFrameLen p then
        p :: takeAggregates infra hasTxDesc (n + 1) (totalFrameLen + p.len) rest
      else []

/-- `TxPacketList` of a first packet that was classified `TX_AMSDU_FRAME`. -/
def txPacketList (infra : Bool) (hasTxDesc : Nat → Bool) (p : TxPacket) (queue : List TxPacket) :
    List TxPacket :=
  p :: takeAggregates infra hasTxDesc 1 p.len queue

/-! ## Sub-frames -/

/-- `pSrcBufData - pSrcBufHeader`: the 802.3 header, and the VLAN tag. -/
def TxPacket.skipped (p : TxPacket) : Nat := if p.vlan then length8023 + 4 else length8023

/-- The `SrcBufLen` bytes at `pSrcBufData`. -/
def TxPacket.srcBuf (p : TxPacket) : List (BitVec 8) := p.bytes.drop p.skipped

/-- The two bytes at `pSrcBufData - 2`. -/
def TxPacket.typeOfLen (p : TxPacket) : List (BitVec 8) := (p.bytes.drop (p.skipped - 2)).take 2

/-- A big-endian number of two bytes. -/
def beWord (bs : List (BitVec 8)) : Nat := (bs.getD 0 0).toNat * 256 + (bs.getD 1 0).toNat

/-- `EXTRA_LLCSNAP_ENCAP_FROM_PKT_OFFSET`: none for a length. -/
def extraLlcSnapEncap (type : List (BitVec 8)) : Option (List (BitVec 8)) :=
  if 1500 < beWord type then
    if type = ipx ∨ type = appleTalk then some snapBridgeTunnel else some snap8021H
  else none

/-- What stands in front of the payload: the encapsulation and the type. -/
def TxPacket.encap (p : TxPacket) : List (BitVec 8) :=
  match extraLlcSnapEncap p.typeOfLen with
  | none => []
  | some snap => snap ++ p.typeOfLen

/-- `subFramePayloadLen`, an unsigned short. -/
def TxPacket.subFramePayloadLen (p : TxPacket) : BitVec 16 :=
  BitVec.ofNat 16 (p.encap.length + p.srcBuf.length)

/-- The header of a sub-frame, its encapsulation and its payload. -/
def TxPacket.subFrame (p : TxPacket) : List (BitVec 8) :=
  p.bytes.take 12 ++ llcLen p.subFramePayloadLen ++ p.encap ++ p.srcBuf

/-- `ROUND_UP(LENGTH_AMSDU_SUBFRAMEHEAD + subFramePayloadLen, 4)` less the sum. -/
def amsduPadding (subFramePayloadLen : BitVec 16) : Nat :=
  (length8023 + subFramePayloadLen.toNat + 3) / 4 * 4 - (length8023 + subFramePayloadLen.toNat)

/-- `STA_AMSDU_Frame_Tx`: the body from the next sub-frame on; `prev` is
`subFramePayloadLen` of the one before, which is padded now. A VLAN packet without its
tag makes `SrcBufLen` wrap, and the copy runs away. -/
def staAmsduFrameTx : Option (BitVec 16) → List TxPacket → Option (List (BitVec 8))
  | _, [] => some []
  | prev, p :: rest =>
      if p.len < p.skipped then none
      else
        let padding := match prev with
          | none => 0
          | some len => amsduPadding len
        (staAmsduFrameTx (some p.subFramePayloadLen) rest).map fun body =>
          List.replicate padding 0 ++ p.subFrame ++ body

/-! ## The other side -/

/-- A received body of these bytes. -/
def bodyOf (bs : List (BitVec 8)) : Body := ⟨bs.length, fun i => bs.getD i 0⟩

/-- The packets handed up, as the stack sees them in the shared buffer. -/
def Amsdu.packets (s : Amsdu) : List (List (BitVec 8)) :=
  s.handed.map fun m => s.body.slice m.start m.len

end ExtDrv.Rt3370
