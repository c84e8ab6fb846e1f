import ExtDrv.Lib.Blocks
import ExtDrv.Lib.Run

/-!
# The USB transmit ring

`common/cmm_data_usb.c` and `common/rtusb_bulk.c`, one queue: frames are written into
`TransferBuffer` one behind the other, and RTUSBBulkOutDataPacket sends as many of them as
one URB takes. What is done under `TxContextQueueLock` is one step; the payload is copied
outside the lock, in as many steps as one likes. (Built without `USB_BULK_BUF_ALIGMENT`, for
a little-endian CPU.)

Beside the structures of the source the state has what happened: the frames that were
accepted, in the order they were written, and the transfers that were sent.
-/

namespace ExtDrv.Rt3370

open Memory Blocks Run

namespace TxRing

abbrev Byte := BitVec 8

/-- `LOCAL_TXBUF_SIZE`. -/
abbrev localTxbufSize : Nat := 2048

/-- `MAX_TXBULK_LIMIT`: `LOCAL_TXBUF_SIZE * (BULKAGGRE_SIZE - 1)`. -/
abbrev maxTxbulkLimit : Nat := 120832

/-- `MAX_TXBULK_SIZE`: `LOCAL_TXBUF_SIZE * BULKAGGRE_SIZE`. -/
abbrev maxTxbulkSize : Nat := 122880

/-- What is kept free for "a A-RALINK/A-MSDU Frame" in front of the limit. -/
abbrev aggregateReserve : Nat := 3906

abbrev txinfoSize : Nat := 4

abbrev txwiSize : Nat := 16

/-- `FIFO_EDCA`. -/
abbrev fifoEdca : BitVec 2 := 2

/-! ## TXINFO and TXWI -/

def zeros (n : Nat) : List Byte := List.replicate n 0

@[simp] theorem length_zeros (n : Nat) : (zeros n).length = n := List.length_replicate

/-- "round up to 4 byte alignment". -/
def padding (usbDMApktLen : Nat) : Nat := (4 - usbDMApktLen % 4) &&& 3

/-- `SwUseLastRound`, of the fourth byte of a TXINFO. -/
abbrev swUseLastRound : Byte := 0x08

/-- `USBDMANextVLD`. -/
abbrev usbDMANextVLD : Byte := 0x40

/-- `USBDMATxburst`. -/
abbrev usbDMATxburst : Byte := 0x80

/-- `RTMPWriteTxInfo`. -/
def rtmpWriteTxInfo (usbDMApktLen : Nat) (bWiv : Bool) (queueSel : BitVec 2) (txBurst : Bool) :
    List Byte :=
  [BitVec.ofNat 8 usbDMApktLen, BitVec.ofNat 8 (usbDMApktLen / 256), 0,
    (if bWiv then 0x01 else 0) ||| (queueSel.zeroExtend 8 <<< 1) |||
      (if txBurst then usbDMATxburst else 0)]

/-- `USBDMATxPktLen`, of the TXINFO at `p`. -/
def usbDMATxPktLen (m : Mem) (p : Nat) : Nat := (m p).toNat + 256 * (m (p + 1)).toNat

/-- `PHYMODE == MODE_CCK`, of the TXWI behind the TXINFO at `p`. -/
def isCck (m : Mem) (p : Nat) : Bool := m (p + 7) &&& 0xc0 = 0

/-- The low and the high part of `MPDUtotalByteCount`: twelve bits, the upper ones in a byte
with `PacketId`. -/
def byteCountLow (totalMPDUSize : Nat) : Byte := BitVec.ofNat 8 totalMPDUSize

def byteCountHigh (totalMPDUSize : Nat) (old : Byte) : Byte :=
  (old &&& 0xf0) ||| (BitVec.ofNat 8 (totalMPDUSize / 256) &&& 0x0f)

/-! ## The structures -/

/-- `HT_TX_CONTEXT`. -/
structure HtTxContext where
  /-- `TransferBuffer->field.WirelessPacket` -/
  transferBuffer : Mem
  /-- `SavedPad`, with the fields behind it -/
  savedPad : Mem
  curWritePosition : Nat
  curWriteRealPos : Nat
  nextBulkOutPosition : Nat
  eNextBulkOutPosition : Nat
  bulkOutSize : Nat
  bCurWriting : Bool
  bCopySavePad : Bool

/-- How far the writer is with its batch. -/
inductive Stage
  /-- fragments, and more to come -/
  | fragments
  /-- a single frame or the last fragment -/
  | lastFragment
  /-- the frames of an aggregate -/
  | aggregate
  deriving DecidableEq, Repr

/-- `TX_BLK`, with the local variables of the function that writes it, and the frames it has
come to hold. -/
structure TxBlk where
  stage : Stage
  priv : Nat
  pWirelessPacket : Nat
  /-- what is still to be copied to `pWirelessPacket` -/
  todo : List Byte
  txQLastRound : Bool
  frames : List Block

/-- `HeaderBuf` behind the TXINFO: the TXWI, and the headers of the frame. -/
structure HeaderBuf where
  bytes : List Byte
  txwi : txwiSize ≤ bytes.length

structure State where
  ctx : HtTxContext
  bulkOutPending : Bool
  /-- `fRTMP_ADAPTER_BULKOUT_RESET` -/
  bulkOutReset : Bool
  /-- what RTUSBFreeDescriptorRequest was last asked for and granted, and is not yet used -/
  numberRequired : Option Nat
  blk : Option TxBlk
  /-- the stores of the last step of the writer -/
  written : List Block
  accepted : List Block
  transfers : List (List Byte)

/-! ## Writing -/

/-- `RTUSBFreeDescriptorRequest`: true for `NDIS_STATUS_SUCCESS`. -/
def rtusbFreeDescriptorRequest (c : HtTxContext) (numberRequired : Nat) : Bool :=
  if c.curWritePosition < c.nextBulkOutPosition ∧
      c.nextBulkOutPosition < c.curWritePosition + numberRequired + localTxbufSize then false
  else if c.curWritePosition = 8 ∧ c.nextBulkOutPosition < numberRequired + localTxbufSize then
    false
  else !c.bCurWriting

/-- `RtmpUSBCanDoWrite`. -/
def rtmpUSBCanDoWrite (c : HtTxContext) : Bool :=
  if c.curWritePosition < c.nextBulkOutPosition ∧
      c.nextBulkOutPosition < c.curWritePosition + localTxbufSize then false
  else if c.curWritePosition = 8 ∧ c.nextBulkOutPosition < localTxbufSize then false
  else !c.bCurWriting

/-- The first frame of a batch begins: "Reserve space for 8 bytes padding". -/
def HtTxContext.beginWriting (c : HtTxContext) : HtTxContext :=
  let skip := if c.eNextBulkOutPosition = c.curWritePosition then 8 else 0
  { c with
    bCurWriting := true,
    eNextBulkOutPosition := c.eNextBulkOutPosition + skip,
    curWritePosition := c.curWritePosition + skip,
    curWriteRealPos := c.curWritePosition + skip }

/-- The batch is done: `CurWritePosition` goes on to `next`, or to the front of the buffer. -/
def HtTxContext.endWriting (c : HtTxContext) (next : Nat) (lastRound : Bool) : HtTxContext :=
  { c with
    bCurWriting := false,
    curWritePosition := if lastRound then 8 else next,
    curWriteRealPos := if lastRound then 8 else next }

/-- Bytes are stored in the buffer. -/
def HtTxContext.put (c : HtTxContext) (ws : List Block) : HtTxContext :=
  { c with transferBuffer := storeAll c.transferBuffer ws }

/-- What a frame takes up in the buffer. -/
def frameSize (hdr src : List Byte) : Nat :=
  txinfoSize + (hdr.length + src.length + padding (hdr.length + src.length))

/-- The TXINFO of a fragment, or of a single frame. -/
def fragTxInfo (hdr src : List Byte) (isLast lastRound : Bool) : List Byte :=
  let usbDMApktLen := hdr.length + src.length + padding (hdr.length + src.length)
  let txInfo := rtmpWriteTxInfo usbDMApktLen false fifoEdca (!isLast)
  if lastRound then txInfo.modify 3 (· ||| swUseLastRound) else txInfo

/-- The header of a fragment is copied, under the lock; the payload and the bytes that are
zeroed behind it are still to be copied. -/
def writeFragment (s : State) (c : HtTxContext) (priv : Nat) (frames : List Block)
    (hdr src : List Byte) (isLast : Bool) : State :=
  let fillOffset := c.curWritePosition + priv
  let pad := padding (hdr.length + src.length)
  let lastRound :=
    isLast && decide (maxTxbulkLimit < c.curWritePosition + (priv + frameSize hdr src)
      + aggregateReserve)
  let header := fragTxInfo hdr src isLast lastRound ++ hdr
  { s with
    ctx := { c.put [⟨fillOffset, header⟩] with
      curWriteRealPos := c.curWriteRealPos + header.length },
    blk := some
      { stage := if isLast then .lastFragment else .fragments,
        priv := priv + frameSize hdr src,
        pWirelessPacket := fillOffset + header.length,
        todo := src ++ zeros (pad + 8),
        txQLastRound := lastRound,
        frames := frames ++ [⟨fillOffset, header ++ src ++ zeros pad⟩] },
    written := [⟨fillOffset, header⟩] }

/-- `RtmpUSB_WriteFragTxResource`, up to the unlock. The frame is dropped where it cannot be
written. -/
def rtmpUSBWriteFragTxResource (s : State) (fragNum totalFragNum : Nat) (hdr src : List Byte) :
    State :=
  match s.blk with
  | none =>
      if fragNum = 0 ∧ s.numberRequired.isSome then
        if rtmpUSBCanDoWrite s.ctx then
          writeFragment s s.ctx.beginWriting 0 [] hdr src (fragNum = totalFragNum)
        else { s with numberRequired := none, written := [] }
      else { s with written := [] }
  | some b =>
      if fragNum ≠ 0 ∧ b.stage = .fragments ∧ b.todo = [] ∧ s.ctx.bCurWriting then
        writeFragment s s.ctx b.priv b.frames hdr src (fragNum = totalFragNum)
      else { s with written := [] }

/-- `RtmpUSB_WriteSingleTxResource`, up to the unlock: a batch of one fragment. -/
def rtmpUSBWriteSingleTxResource (s : State) (hdr src : List Byte) : State :=
  rtmpUSBWriteFragTxResource s 0 0 hdr src

/-- The frame of an aggregate, as its parts are copied one behind the other. -/
def extend (frames : List Block) (bytes : List Byte) : List Block :=
  frames.map fun f => ⟨f.pos, f.bytes ++ bytes⟩

/-- `RtmpUSB_WriteMultiTxResource` with `frameNum == 0`, up to the unlock. The length in its
TXINFO is "just a temp value". -/
def rtmpUSBWriteMultiTxResource (s : State) (hdr src : List Byte) : State :=
  match s.blk with
  | none =>
      if s.numberRequired.isSome then
        if rtmpUSBCanDoWrite s.ctx then
          let c := s.ctx.beginWriting
          let fillOffset := c.curWritePosition
          let priv := txinfoSize + hdr.length
          let header := rtmpWriteTxInfo priv false fifoEdca false ++ hdr
          { s with
            ctx := { c.put [⟨fillOffset, header⟩] with
              curWriteRealPos := c.curWriteRealPos + priv },
            blk := some
              { stage := .aggregate,
                priv := priv + src.length,
                pWirelessPacket := fillOffset + priv,
                todo := src,
                txQLastRound := false,
                frames := [⟨fillOffset, header ++ src⟩] },
            written := [⟨fillOffset, header⟩] }
        else { s with numberRequired := none, written := [] }
      else { s with written := [] }
  | some _ => { s with written := [] }

/-- `RtmpUSB_WriteMultiTxResource` for "sub-sequent frames of this bulk-out batch". -/
def rtmpUSBWriteMultiNext (s : State) (hdr src : List Byte) : State :=
  match s.blk with
  | some b =>
      if b.stage = .aggregate ∧ b.todo = [] ∧ s.ctx.bCurWriting then
        let fillOffset := s.ctx.curWritePosition + b.priv
        { s with
          ctx := s.ctx.put [⟨fillOffset, hdr⟩],
          blk := some
            { b with
              priv := b.priv + hdr.length + src.length,
              pWirelessPacket := fillOffset + hdr.length,
              todo := src,
              frames := extend b.frames (hdr ++ src) },
          written := [⟨fillOffset, hdr⟩] }
      else { s with written := [] }
  | none => { s with written := [] }

/-- The next `n` bytes of what is to be copied. -/
def copy (s : State) (n : Nat) : State :=
  match s.blk with
  | some b =>
      let w : Block := ⟨b.pWirelessPacket, b.todo.take n⟩
      { s with
        ctx := s.ctx.put [w],
        blk := some
          { b with
            pWirelessPacket := b.pWirelessPacket + w.bytes.length,
            todo := b.todo.drop n },
        written := [w] }
  | none => { s with written := [] }

/-- The tail of RtmpUSB_WriteSingleTxResource, and of RtmpUSB_WriteFragTxResource for the last
fragment. -/
def finishWriting (s : State) : State :=
  match s.blk with
  | some b =>
      if b.stage = .lastFragment ∧ b.todo = [] then
        { s with
          ctx := s.ctx.endWriting (s.ctx.curWritePosition + b.priv) b.txQLastRound,
          numberRequired := none,
          blk := none,
          written := [],
          accepted := s.accepted ++ b.frames }
      else { s with written := [] }
  | none => { s with written := [] }

/-- The stores to the TXINFO at `o` and to the TXWI behind it, once the length of the
aggregate is known. -/
def finalWrites (m : Mem) (o usbDMApktLen totalMPDUSize : Nat) (lastRound : Bool) : List Block :=
  [⟨o, [BitVec.ofNat 8 usbDMApktLen]⟩, ⟨o + 1, [BitVec.ofNat 8 (usbDMApktLen / 256)]⟩,
    ⟨o + 10, [byteCountLow totalMPDUSize]⟩,
    ⟨o + 11, [byteCountHigh totalMPDUSize (m (o + 11))]⟩] ++
  if lastRound then [⟨o + 3, [m (o + 3) ||| swUseLastRound]⟩] else []

/-- The aggregate as it is to be sent: with its length, the number of bytes of the MPDU, and
the padding. -/
def finalFrame (bytes : List Byte) (usbDMApktLen totalMPDUSize : Nat) (lastRound : Bool) :
    List Byte :=
  let counted :=
    (((bytes.set 0 (BitVec.ofNat 8 usbDMApktLen)).set 1 (BitVec.ofNat 8 (usbDMApktLen / 256))).set
      10 (byteCountLow totalMPDUSize)).modify 11 (byteCountHigh totalMPDUSize)
  if lastRound then counted.modify 3 (· ||| swUseLastRound) else counted

/-- `RtmpUSB_FinalWriteTxResource`. -/
def rtmpUSBFinalWriteTxResource (s : State) (totalMPDUSize : Nat) : State :=
  match s.blk with
  | some b =>
      if b.stage = .aggregate ∧ b.todo = [] ∧ s.ctx.bCurWriting then
        let c := s.ctx
        let fillOffset := c.curWritePosition
        let pad := padding (b.priv - txinfoSize)
        let usbDMApktLen := b.priv - txinfoSize + pad
        let next := fillOffset + (txinfoSize + usbDMApktLen)
        let lastRound := decide (maxTxbulkLimit < next + aggregateReserve)
        let tail : Block := ⟨fillOffset + b.priv, zeros (pad + 8)⟩
        let frames := b.frames.map fun f =>
          ⟨f.pos, finalFrame f.bytes usbDMApktLen totalMPDUSize lastRound ++ zeros pad⟩
        -- `(ENextBulkOutPosition-8) == CurWritePosition`, in unsigned arithmetic
        if (c.eNextBulkOutPosition = fillOffset ∨ c.eNextBulkOutPosition = fillOffset + 8) ∧
            c.bCopySavePad then
          let savedPad := storeAll c.savedPad
            (finalWrites c.savedPad 0 usbDMApktLen totalMPDUSize lastRound)
          { s with
            ctx := { (c.put [tail]).endWriting next lastRound with savedPad := savedPad },
            numberRequired := none,
            blk := none,
            written := [tail],
            accepted := s.accepted ++ frames }
        else
          let ws := finalWrites c.transferBuffer fillOffset usbDMApktLen totalMPDUSize lastRound ++
            [tail]
          { s with
            ctx := (c.put ws).endWriting next lastRound,
            numberRequired := none,
            blk := none,
            written := ws,
            accepted := s.accepted ++ frames }
      else { s with written := [] }
  | none => { s with written := [] }

/-! ## Sending -/

/-- The limits on the size of a transfer, in front of the frame at `p`: about 4k bytes for a
frame sent with CCK, else about 24k, and less where the endpoint takes packets of under 512. -/
def bulkSizeReached (bulkOutMaxPacketSize : Nat) (m : Mem) (p thisBulkSize : Nat) : Bool :=
  if thisBulkSize ≠ 0 ∧ isCck m p then
    thisBulkSize &&& 0xffff8000 ≠ 0 ∨ thisBulkSize &&& 0x1000 = 0x1000 ∨
      (bulkOutMaxPacketSize < 512 ∧ thisBulkSize &&& 0xfffff800 ≠ 0)
  else
    thisBulkSize &&& 0xffff8000 ≠ 0 ∨ thisBulkSize &&& 0x6000 = 0x6000 ∨
      (bulkOutMaxPacketSize < 512 ∧ thisBulkSize &&& 0xfffff800 ≠ 0)

/-- The fourth byte of a TXINFO as the loop leaves it: the queue, whether a frame follows up to
`CurWritePosition`, and `SwUseLastRound` taken back. -/
def markTxInfo (flags : Byte) (atWrite wrapped : Bool) : Byte :=
  let flags := (flags &&& ~~~(0x06 : Byte)) ||| (fifoEdca.zeroExtend 8 <<< 1)
  let flags := if atWrite then flags else flags ||| usbDMANextVLD
  if flags &&& swUseLastRound = 0 then flags
  else (if wrapped then flags &&& ~~~usbDMANextVLD else flags) &&& ~~~swUseLastRound

/-- How the loop over the frames ends. -/
structure BulkEnd where
  buffer : Mem
  tmpBulkEndPos : Nat
  thisBulkSize : Nat
  pLastTxInfo : Option Nat
  bTxQLastRound : Bool
  /-- `USBDMATxPktLen <= 8`: the transfer is given up -/
  tooShort : Bool

/-- The loop over the frames from `tmpBulkEndPos` on; `none` if `fuel` turns were too few. -/
def bulkLoop (bulkOutMaxPacketSize curWritePosition : Nat) :
    Nat → Mem → Nat → Nat → Option Nat → Option BulkEnd
  | 0, _, _, _, _ => none
  | fuel + 1, m, tmpBulkEndPos, thisBulkSize, pLastTxInfo =>
      if bulkSizeReached bulkOutMaxPacketSize m tmpBulkEndPos thisBulkSize ∨
          tmpBulkEndPos = curWritePosition then
        some ⟨m, tmpBulkEndPos, thisBulkSize, pLastTxInfo, false, false⟩
      else
        let len := usbDMATxPktLen m tmpBulkEndPos
        if len ≤ 8 then some ⟨m, tmpBulkEndPos, thisBulkSize, pLastTxInfo, false, true⟩
        else
          let next := tmpBulkEndPos + (len + 4)
          let flags := m (tmpBulkEndPos + 3)
          let marked := markTxInfo flags (next = curWritePosition) (curWritePosition = 8)
          let m' := store m (tmpBulkEndPos + 3) [marked]
          if flags &&& swUseLastRound = 0 then
            bulkLoop bulkOutMaxPacketSize curWritePosition fuel m' next (thisBulkSize + (len + 4))
              (some tmpBulkEndPos)
          else some ⟨m', next, thisBulkSize + (len + 4), some tmpBulkEndPos, true, false⟩

/-- More turns than the loop can take: every one adds at least 13 to a size that stops it from
`0x8000` on. -/
abbrev bulkFuel : Nat := 0x8000

/-- "adjust the pTxInfo->USBDMANextVLD value of last pTxInfo". -/
def clearLast (m : Mem) (pLastTxInfo : Option Nat) : Mem :=
  match pLastTxInfo with
  | some p => store m (p + 3) [m (p + 3) &&& ~~~usbDMANextVLD]
  | none => m

/-- The buffer, with the bytes put back that the last transfer had saved. -/
def HtTxContext.restored (c : HtTxContext) : Mem :=
  if c.bCopySavePad then store c.transferBuffer c.eNextBulkOutPosition (segment c.savedPad 0 8)
  else c.transferBuffer

/-- The transfer is made up: the first bytes behind it are saved where a frame begins there,
and zeroed. -/
def HtTxContext.makeUp (c : HtTxContext) (e : BulkEnd) : HtTxContext :=
  let m := clearLast e.buffer e.pLastTxInfo
  let next := if e.bTxQLastRound then 8 else e.tmpBulkEndPos
  let saves := !e.bTxQLastRound && (next != c.curWritePosition ||
    decide (c.curWritePosition < c.curWriteRealPos))
  { c with
    transferBuffer := store m e.tmpBulkEndPos (zeros 8),
    savedPad := if saves then store c.savedPad 0 (segment m next 8) else c.savedPad,
    bCopySavePad := saves,
    nextBulkOutPosition := c.eNextBulkOutPosition,
    eNextBulkOutPosition := next,
    bulkOutSize := e.thisBulkSize + 4 }

/-- `RTUSBBulkOutDataPacket`; `submitted` says whether RTUSB_SUBMIT_URB succeeds. -/
def rtusbBulkOutDataPacket (bulkOutMaxPacketSize : Nat) (s : State) (submitted : Bool) : State :=
  let c := s.ctx
  if s.bulkOutPending ∨ s.bulkOutReset then { s with written := [] }
  else if c.eNextBulkOutPosition = c.curWritePosition ∨
      c.eNextBulkOutPosition = c.curWritePosition + 8 then { s with written := [] }
  else
    match bulkLoop bulkOutMaxPacketSize c.curWritePosition bulkFuel c.restored
      c.eNextBulkOutPosition 0 none with
    | none => { s with written := [] }
    | some e =>
        if e.tooShort then
          { s with
            ctx := { c with
              transferBuffer := e.buffer,
              bCopySavePad := false,
              nextBulkOutPosition := c.eNextBulkOutPosition },
            written := [] }
        else { s with ctx := c.makeUp e, bulkOutPending := submitted, written := [] }

/-- The bytes of the URB: `BulkOutSize` from `NextBulkOutPosition` on. -/
def HtTxContext.transfer (c : HtTxContext) : List Byte :=
  segment c.transferBuffer c.nextBulkOutPosition c.bulkOutSize

/-- `rtusb_dataout_complete`: after an error the pipe is to be reset. -/
def rtusbDataoutComplete (s : State) (noError : Bool) : State :=
  if s.bulkOutPending then
    if noError then
      { s with
        bulkOutPending := false,
        written := [],
        transfers := s.transfers ++ [s.ctx.transfer] }
    else { s with bulkOutPending := false, bulkOutReset := true, written := [] }
  else { s with written := [] }

/-- `ResetBulkOutHdlr`: the same bytes are submitted again, unless a transfer is pending. -/
def resetBulkOutHdlr (s : State) (submitted : Bool) : State :=
  if s.bulkOutReset then
    { s with
      bulkOutReset := false,
      bulkOutPending := if s.bulkOutPending then true else submitted,
      written := [] }
  else { s with written := [] }

/-! ## The system -/

inductive Act
  | request (numberRequired : Nat)
  | single (hdr : HeaderBuf) (src : List Byte)
  | frag (fragNum totalFragNum : Nat) (hdr : HeaderBuf) (src : List Byte)
  | multi (hdr : HeaderBuf) (src : List Byte)
  | multiNext (hdr src : List Byte)
  | copy (n : Nat)
  | finish
  | final (totalMPDUSize : Nat)
  | bulkOut (submitted : Bool)
  | complete (noError : Bool)
  | resetBulkOut (submitted : Bool)

/-- The writer asks for room, between two batches. -/
def request (s : State) (numberRequired : Nat) : State :=
  if s.blk.isNone ∧ rtusbFreeDescriptorRequest s.ctx numberRequired then
    { s with numberRequired := some numberRequired, written := [] }
  else { s with written := [] }

def step (bulkOutMaxPacketSize : Nat) (s : State) : Act → State
  | .request numberRequired => request s numberRequired
  | .single hdr src => rtmpUSBWriteSingleTxResource s hdr.bytes src
  | .frag fragNum totalFragNum hdr src =>
      rtmpUSBWriteFragTxResource s fragNum totalFragNum hdr.bytes src
  | .multi hdr src => rtmpUSBWriteMultiTxResource s hdr.bytes src
  | .multiNext hdr src => rtmpUSBWriteMultiNext s hdr src
  | .copy n => copy s n
  | .finish => finishWriting s
  | .final totalMPDUSize => rtmpUSBFinalWriteTxResource s totalMPDUSize
  | .bulkOut submitted => rtusbBulkOutDataPacket bulkOutMaxPacketSize s submitted
  | .complete noError => rtusbDataoutComplete s noError
  | .resetBulkOut submitted => resetBulkOutHdlr s submitted

/-- The ring as it is set up. -/
def init : State where
  ctx := ⟨fun _ => 0, fun _ => 0, 0, 0, 0, 0, 0, false, false⟩
  bulkOutPending := false
  bulkOutReset := false
  numberRequired := none
  blk := none
  written := []
  accepted := []
  transfers := []

end TxRing

end ExtDrv.Rt3370
