import ExtDrv.Lib.Loop
import ExtDrv.Lib.Memory
import ExtDrv.Rt3370.Sizes

/-!
# A-MSDU de-aggregation

`deaggregate_AMSDU_announce` of `common/cmm_data.c`, with the header conversion
of `rtmp.h`, as the station driver is built (`CONFIG_STA_SUPPORT` alone). It runs
over the bytes of the frame's body, and every access outside them, or outside
the element an EAPOL frame is copied into, is a fault.

The allocation of an element and the cloning of the packet may fail; what is
done with the packets handed up is left out.
-/

namespace ExtDrv.Rt3370

open Loop Memory

/-! ## Constants -/

/-- `MAC_ADDR_LEN`. -/
abbrev macAddrLen : Nat := 6

/-- `LENGTH_802_3`. -/
abbrev length8023 : Nat := 14

/-- `LENGTH_802_1_H`. -/
abbrev length8021H : Nat := 8

/-- `LENGTH_802_11`. -/
abbrev length80211 : Nat := 24

/-- `MGMT_DMA_BUFFER_SIZE`, the size of `MLME_QUEUE_ELEM.Msg`. -/
abbrev mgmtDmaBufferSize : Nat := 1600

def snap8021H : List (BitVec 8) := [0xaa, 0xaa, 0x03, 0x00, 0x00, 0x00]
def snapBridgeTunnel : List (BitVec 8) := [0xaa, 0xaa, 0x03, 0x00, 0x00, 0xf8]
def ipx : List (BitVec 8) := [0x81, 0x37]
def appleTalk : List (BitVec 8) := [0x80, 0xf3]

/-! ## Memory -/

/-- An access outside the body of the frame, or outside an element's `Msg`. -/
inductive BodyFault where
  | read (offset len : Nat)
  | write (offset len : Nat)
  | msg (len : Nat)
  deriving DecidableEq, Repr

/-- The body of the frame: `size` bytes. -/
structure Body where
  size : Nat
  byte : Mem

/-- The bytes `[offset, offset + len)`. -/
def Body.slice (b : Body) (offset len : Nat) : List (BitVec 8) := segment b.byte offset len

/-- A read of `len` bytes. -/
def Body.read (b : Body) (offset len : Nat) : Except BodyFault (List (BitVec 8)) :=
  if offset + len ≤ b.size then .ok (b.slice offset len) else .error (.read offset len)

/-- `NdisMoveMemory` into the body. -/
def Body.write (b : Body) (offset : Nat) (bs : List (BitVec 8)) : Except BodyFault Body :=
  if offset + bs.length ≤ b.size then
    .ok { b with byte := store b.byte offset bs }
  else .error (.write offset bs.length)

/-- `NdisEqualMemory` against a constant: all its bytes are read. -/
def ndisEqualMemory (b : Body) (offset : Nat) (bs : List (BitVec 8)) : Except BodyFault Bool := do
  let found ← b.read offset bs.length
  pure (found == bs)

/-! ## The header conversion -/

/-- What `CONVERT_TO_802_3` sets: the header, and `_pData`, `_DataSize` and
whether `_pRemovedLLCSNAP` is set. -/
structure Converted where
  header8023 : List (BitVec 8)
  pPayload : Nat
  payloadSize : BitVec 16
  removedLLCSNAP : Bool

/-- `MAKE_802_3_HEADER`. -/
def make8023Header (b : Body) (pDA pSA : Nat) (type : List (BitVec 8)) :
    Except BodyFault (List (BitVec 8)) := do
  let da ← b.read pDA macAddrLen
  let sa ← b.read pSA macAddrLen
  pure (da ++ sa ++ type)

/-- `LLC_Len`. -/
def llcLen (dataSize : BitVec 16) : List (BitVec 8) :=
  [(dataSize >>> 8).setWidth 8, dataSize.setWidth 8]

/-- `CONVERT_TO_802_3`. -/
def convertTo8023 (b : Body) (pDA pSA pData : Nat) (dataSize : BitVec 16) :
    Except BodyFault Converted := do
  if (← ndisEqualMemory b pData snap8021H) || (← ndisEqualMemory b pData snapBridgeTunnel) then
    let pProto := pData + 6
    if ((← ndisEqualMemory b pProto ipx) || (← ndisEqualMemory b pProto appleTalk))
        && (← ndisEqualMemory b pData snap8021H) then
      pure ⟨← make8023Header b pDA pSA (llcLen dataSize), pData, dataSize, false⟩
    else
      let proto ← b.read pProto 2
      -- `_DataSize` is an unsigned short
      pure ⟨← make8023Header b pDA pSA proto, pData + length8021H,
        dataSize - BitVec.ofNat 16 length8021H, true⟩
  else
    pure ⟨← make8023Header b pDA pSA (llcLen dataSize), pData, dataSize, false⟩

/-! ## The loop -/

/-- Bytes that leave the loop: the sub-frame they come from (where it starts, and
its length field), where they lie, and `PayloadSize` after the conversion. -/
structure Piece where
  frame : Nat
  field : Nat
  start : Nat
  len : Nat
  payload : Nat
  deriving DecidableEq, Repr

/-- The variables of the loop, with what has been copied into EAPOL elements and
what has been handed up so far. -/
structure Amsdu where
  body : Body
  pData : Nat
  dataSize : Nat
  nMSDU : Nat
  eapol : List Piece
  handed : List Piece

/-- Which allocations of a turn succeed, by `nMSDU`: the element, the clone. -/
structure Allocs where
  elem : Nat → Bool
  clone : Nat → Bool

/-- `PayloadSize`, from the length field of the sub-frame header. -/
def payloadField (octet : List (BitVec 8)) : BitVec 16 :=
  (octet.getD 1 0).setWidth 16 + (octet.getD 0 0).setWidth 16 <<< 8

/-- The EAPOL frames are copied for the state machines of the driver. -/
def copyEapol (os : Allocs) (s : Amsdu) (field : BitVec 16) (c : Converted) :
    Except BodyFault Amsdu :=
  if c.header8023.getD 12 0 = 0x88#8 ∧ c.header8023.getD 13 0 = 0x8E#8 ∧ os.elem s.nMSDU then do
    let _ ← s.body.read c.pPayload c.payloadSize.toNat
    if length80211 + length8021H + c.payloadSize.toNat ≤ mgmtDmaBufferSize then
      pure { s with
        eapol := s.eapol ++
          [⟨s.pData, field.toNat, c.pPayload, c.payloadSize.toNat, c.payloadSize.toNat⟩] }
    else throw (.msg (length80211 + length8021H + c.payloadSize.toNat))
  else pure s

/-- Where the packet handed up starts, and its length: the new header goes in front
of the payload, over the old one. -/
def restoreHeader (s : Amsdu) (c : Converted) : Except BodyFault (Nat × BitVec 16 × Amsdu) :=
  if c.removedLLCSNAP then do
    let body ← s.body.write (c.pPayload - length8023) c.header8023
    pure (c.pPayload - length8023, c.payloadSize + BitVec.ofNat 16 length8023,
      { s with body := body })
  else pure (c.pPayload, c.payloadSize, s)

/-- `ClonePacket`, and the clone handed up. -/
def clonePacket (os : Allocs) (s : Amsdu) (field : BitVec 16) (c : Converted) (start : Nat)
    (len : BitVec 16) : Amsdu :=
  if os.clone s.nMSDU then
    { s with
      handed := s.handed ++
        [⟨s.pData, field.toNat, start, len.toNat, c.payloadSize.toNat⟩] }
  else s

/-- `SubFrameSize`, rounded up to a multiple of four. -/
def alignFour (subFrameSize : BitVec 16) : BitVec 16 := (subFrameSize + 3) &&& ~~~3

/-- What is done with a sub-frame: converted, copied if it is EAPOL, handed up. -/
def subFrame (os : Allocs) (s : Amsdu) (payloadSize : BitVec 16) : Except BodyFault Amsdu := do
  let c ← convertTo8023 s.body s.pData (s.pData + macAddrLen) (s.pData + length8023) payloadSize
  let s ← copyEapol os s payloadSize c
  let (start, len, s) ← restoreHeader s c
  pure (clonePacket os s payloadSize c start len)

/-- On to the next sub-frame; one of an odd size ends the loop. -/
def nextSubFrame (s : Amsdu) (subFrameSize : BitVec 16) : Turn Amsdu Amsdu BodyFault :=
  if 1528 < subFrameSize.toNat ∨ subFrameSize.toNat < 32 then .ret s
  else if subFrameSize.toNat < s.dataSize then
    .next { s with
      pData := s.pData + subFrameSize.toNat, dataSize := s.dataSize - subFrameSize.toNat }
  else .next { s with dataSize := 0 }

/-- One turn: how it ends, or a fault. -/
def amsduTurn (os : Allocs) (s : Amsdu) : Except BodyFault (Turn Amsdu Amsdu BodyFault) :=
  if s.dataSize ≤ length8023 then pure (.ret s)
  else do
    let s := { s with nMSDU := s.nMSDU + 1 }
    let payloadSize := payloadField (← s.body.read (s.pData + 2 * macAddrLen) 2)
    let subFrameSize := payloadSize + BitVec.ofNat 16 length8023
    if s.dataSize < subFrameSize.toNat ∨ 1518 < payloadSize.toNat then pure (.ret s)
    else do
      let s ← subFrame os s payloadSize
      pure (nextSubFrame s (alignFour subFrameSize))

/-- A turn that faults ends the loop. -/
def asTurn : Except BodyFault (Turn Amsdu Amsdu BodyFault) → Turn Amsdu Amsdu BodyFault
  | .ok t => t
  | .error e => .fault e

/-- `deaggregate_AMSDU_announce` on the body of a frame, for at most `n` turns. -/
def deaggregateAmsduAnnounce (os : Allocs) (b : Body) : Running BodyFault Amsdu := fun n =>
  iterate (fun s => asTurn (amsduTurn os s)) n ⟨b, 0, b.size, 0, [], []⟩

end ExtDrv.Rt3370
