import ExtDrv.Lib.SerialOrder
import ExtDrv.Rt3370.Sizes

/-!
# A-MPDU reordering

The recipient half of `common/ba_action.c`: the hold-back list of one block-ack
session, the block pool it draws on, the loops that hand held frames up, and
what a data MPDU, a BlockAckReq and the timers do to the entry.

The functions take and return an `RxCtx`: the pool's free list, the entry, and
the frames handed up the stack so far. Spin locks and debug prints are left
out, every function runs to its end before the next one starts.
-/

namespace ExtDrv.Rt3370

/-! ## Sequence numbers and ticks -/

/-- `MAXSEQ`. -/
abbrev maxSeq : Nat := 0xFFF

/-- `RESET_RCV_SEQ`: no sequence number indicated yet. -/
abbrev resetRcvSeq : Nat := 0xFFFF

/-- `SEQ_STEPONE(_SEQ1, _SEQ2, MAXSEQ)`. -/
def seqStepone (seq1 seq2 : Nat) : Bool := seq1 == (seq2 + 1) &&& maxSeq

/-- `SEQ_SMALLER(_SEQ1, _SEQ2, MAXSEQ)`: the operands are promoted to `int`
before the subtraction, and only the half-window bit of it is looked at. -/
def seqSmaller (seq1 seq2 : Nat) : Bool :=
  (BitVec.ofNat 32 seq1 - BitVec.ofNat 32 seq2) &&& 0x800#32 != 0#32

/-- `RTMP_TIME_AFTER(a, b)`: `(long)(b) - (long)(a) < 0`. -/
def rtmpTimeAfter (a b : BitVec 32) : Bool := (b - a).toInt < 0

/-- `REORDERING_PACKET_TIMEOUT`, in ticks; `osHz` is `OS_HZ`. -/
def reorderingPacketTimeout (osHz : Nat) : BitVec 32 := BitVec.ofNat 32 (100 * osHz / 1000)

/-- `MAX_REORDERING_PACKET_TIMEOUT`. -/
def maxReorderingPacketTimeout (osHz : Nat) : BitVec 32 := BitVec.ofNat 32 (3000 * osHz / 1000)

/-- `REC_BA_SESSION_IDLE_TIMEOUT`. -/
def recBaSessionIdleTimeout : BitVec 32 := 1000#32

/-- `MAX_RX_PKT_LEN`. -/
def maxRxPktLen : Nat := 1520

/-! ## Blocks, lists, entries -/

/-- `struct reordering_mpdu`; `addr` is the block's own address. -/
structure ReorderingMpdu where
  addr : Nat
  Sequence : Fin 4096
  OpMode : Nat
  bAMSDU : Bool
  pPacket : Nat
deriving DecidableEq, Repr

/-- `struct reordering_list`: the linked blocks and the counter kept beside
them. -/
structure ReorderingList where
  next : List ReorderingMpdu
  qlen : Nat
  qlen_eq : qlen = next.length
deriving DecidableEq

/-- The list linking exactly `xs`. -/
def ReorderingList.ofList (xs : List ReorderingMpdu) : ReorderingList := ⟨xs, xs.length, rfl⟩

@[simp] theorem ReorderingList.ofList_next (xs : List ReorderingMpdu) :
    (ofList xs).next = xs := rfl

@[ext] theorem ReorderingList.ext' {l l' : ReorderingList} (h : l.next = l'.next) : l = l' := by
  obtain ⟨xs, n, hn⟩ := l
  obtain ⟨ys, k, hk⟩ := l'
  subst hn hk
  cases h
  rfl

@[simp] theorem ReorderingList.ofList_of_next (l : ReorderingList) : ofList l.next = l :=
  ReorderingList.ext' rfl

/-- `REC_BLOCKACK_STATUS`. -/
inductive RecBlockackStatus
  | recipientNone
  | recipientUsed
  | recipientHandleRes
  | recipientAccept
deriving DecidableEq, Repr

/-- `BA_REC_ENTRY`. -/
structure BaRecEntry where
  Wcid : Fin 32
  TID : Fin 16
  BAWinSize : Nat
  LastIndSeq : Nat
  TimeOutValue : Nat
  LastIndSeqAtTimer : BitVec 32
  REC_BA_Status : RecBlockackStatus
  list : ReorderingList
deriving DecidableEq

/-- An entry of the zeroed adapter. -/
def BaRecEntry.zero : BaRecEntry :=
  { Wcid := 0, TID := 0, BAWinSize := 0, LastIndSeq := 0, TimeOutValue := 0,
    LastIndSeqAtTimer := 0, REC_BA_Status := .recipientNone, list := .ofList [] }

/-- The part of `RX_BLK` the reordering code reads: the sequence number of the
802.11 header, the packet, two of its flags, and the station and TID of the
RXWI. -/
structure RxBlk where
  Sequence : Fin 4096
  DataSize : Nat
  OpMode : Nat
  fRX_AMSDU : Bool
  fRX_EAP : Bool
  pRxPacket : Nat
  WirelessCliID : Nat
  TID : Fin 16
deriving DecidableEq, Repr

/-- A frame handed up the stack. -/
structure Indicated where
  Sequence : Fin 4096
  pPacket : Nat
deriving DecidableEq, Repr

/-- What the reordering functions work on. -/
structure RxCtx where
  pool : ReorderingList
  ent : BaRecEntry
  up : List Indicated
deriving DecidableEq

/-! ## Lists and blocks -/

/-- `ba_reordering_mpdu_insertsorted`, the scan: `none` gives up a duplicate. -/
def insertScan (mpdu : ReorderingMpdu) : List ReorderingMpdu → Option (List ReorderingMpdu)
  | [] => some [mpdu]
  | scan :: rest =>
      if seqSmaller scan.Sequence mpdu.Sequence then (insertScan mpdu rest).map (scan :: ·)
      else if scan.Sequence = mpdu.Sequence then none
      else some (mpdu :: scan :: rest)

theorem insertScan_length {mpdu : ReorderingMpdu} {xs ys : List ReorderingMpdu}
    (h : insertScan mpdu xs = some ys) : ys.length = xs.length + 1 := by
  induction xs generalizing ys with
  | nil => simp only [insertScan, Option.some.injEq] at h; subst h; rfl
  | cons scan rest ih =>
      simp only [insertScan] at h
      split at h
      · obtain ⟨zs, hz, rfl⟩ := Option.map_eq_some_iff.mp h
        simp [ih hz]
      · split at h
        · cases h
        · cases h
          rfl

/-- `ba_reordering_mpdu_insertsorted`: `none` is its FALSE. -/
def baReorderingMpduInsertsorted (l : ReorderingList) (mpdu : ReorderingMpdu) :
    Option ReorderingList :=
  match h : insertScan mpdu l.next with
  | none => none
  | some xs => some ⟨xs, l.qlen + 1, by rw [l.qlen_eq, insertScan_length h]⟩

/-- `ba_enqueue`. -/
def baEnqueue (l : ReorderingList) (mpdu_blk : ReorderingMpdu) : ReorderingList :=
  ⟨mpdu_blk :: l.next, l.qlen + 1, by simp [l.qlen_eq]⟩

/-- `ba_dequeue`. -/
def baDequeue (l : ReorderingList) : Option (ReorderingMpdu × ReorderingList) :=
  match h : l.next with
  | [] => none
  | mpdu_blk :: rest => some (mpdu_blk, ⟨rest, l.qlen - 1, by simp [l.qlen_eq, h]⟩)

/-- `ba_reordering_mpdu_probe`. -/
def baReorderingMpduProbe (l : ReorderingList) : Option ReorderingMpdu := l.next.head?

/-- `ba_mpdu_blk_alloc`: a block off the free list, zeroed. -/
def baMpduBlkAlloc (freelist : ReorderingList) : Option (ReorderingMpdu × ReorderingList) :=
  (baDequeue freelist).map fun (mpdu_blk, rest) =>
    ({ addr := mpdu_blk.addr, Sequence := 0, OpMode := 0, bAMSDU := false, pPacket := 0 }, rest)

/-- `ba_mpdu_blk_free`. -/
def baMpduBlkFree (freelist : ReorderingList) (mpdu_blk : ReorderingMpdu) : ReorderingList :=
  baEnqueue freelist mpdu_blk

theorem baReorderingMpduInsertsorted_eq (l : ReorderingList) (mpdu : ReorderingMpdu) :
    baReorderingMpduInsertsorted l mpdu = (insertScan mpdu l.next).map .ofList := by
  unfold baReorderingMpduInsertsorted
  split
  · rename_i h
    simp [h]
  · rename_i xs h
    simp only [h, Option.map_some, Option.some.injEq]
    exact ReorderingList.ext' rfl

theorem baEnqueue_eq (l : ReorderingList) (mpdu : ReorderingMpdu) :
    baEnqueue l mpdu = .ofList (mpdu :: l.next) := ReorderingList.ext' rfl

theorem baDequeue_nil {l : ReorderingList} (h : l.next = []) : baDequeue l = none := by
  unfold baDequeue
  split
  · rfl
  · rename_i h'
    cases h.symm.trans h'

theorem baDequeue_cons {l : ReorderingList} {mpdu : ReorderingMpdu} {rest : List ReorderingMpdu}
    (h : l.next = mpdu :: rest) : baDequeue l = some (mpdu, .ofList rest) := by
  unfold baDequeue
  split
  · rename_i h'
    cases h.symm.trans h'
  · rename_i m r h'
    cases h.symm.trans h'
    simp only [Option.some.injEq, Prod.mk.injEq, true_and]
    exact ReorderingList.ext' rfl

/-! ## Handing held frames up -/

/-- `Announce_Reordering_Packet`: the frame the upper layer sees. -/
def ReorderingMpdu.indicated (mpdu : ReorderingMpdu) : Indicated := ⟨mpdu.Sequence, mpdu.pPacket⟩

/-- The body the indication loops share: dequeue the head, pass it up, free its
block. -/
def RxCtx.indicateHead (c : RxCtx) : RxCtx :=
  match baDequeue c.ent.list with
  | none => c
  | some (mpdu_blk, rest) =>
      { pool := baMpduBlkFree c.pool mpdu_blk, ent := { c.ent with list := rest },
        up := c.up ++ [mpdu_blk.indicated] }

def RxCtx.setLastIndSeq (c : RxCtx) (seq : Nat) : RxCtx :=
  { c with ent := { c.ent with LastIndSeq := seq } }

def RxCtx.setLastIndSeqAtTimer (c : RxCtx) (now : BitVec 32) : RxCtx :=
  { c with ent := { c.ent with LastIndSeqAtTimer := now } }

/-- The loop of `ba_indicate_reordering_mpdus_in_order`. Every turn dequeues,
so `qlen` turns are enough. -/
def inOrderLoop : Nat → RxCtx → Nat → Nat → RxCtx × Nat
  | 0, c, _, lastIndSeq => (c, lastIndSeq)
  | n + 1, c, startSeq, lastIndSeq =>
      match baReorderingMpduProbe c.ent.list with
      | none => (c, lastIndSeq)
      | some mpdu_blk =>
          if !seqStepone mpdu_blk.Sequence startSeq then (c, lastIndSeq)
          else inOrderLoop n c.indicateHead mpdu_blk.Sequence mpdu_blk.Sequence

/-- `ba_indicate_reordering_mpdus_in_order`, with the sequence number it
returns. -/
def baIndicateReorderingMpdusInOrder (c : RxCtx) (startSeq : Nat) : RxCtx × Nat :=
  inOrderLoop c.ent.list.qlen c startSeq resetRcvSeq

/-- The test of `ba_indicate_reordering_mpdus_le_seq`. -/
def leSeqTest (sequence heldSeq : Nat) : Bool :=
  heldSeq == sequence || seqSmaller heldSeq sequence

/-- The loop of `ba_indicate_reordering_mpdus_le_seq`. -/
def leSeqLoop (sequence : Nat) : Nat → RxCtx → RxCtx
  | 0, c => c
  | n + 1, c =>
      match baReorderingMpduProbe c.ent.list with
      | none => c
      | some mpdu_blk =>
          if leSeqTest sequence mpdu_blk.Sequence then leSeqLoop sequence n c.indicateHead else c

/-- `ba_indicate_reordering_mpdus_le_seq`. -/
def baIndicateReorderingMpdusLeSeq (c : RxCtx) (sequence : Nat) : RxCtx :=
  leSeqLoop sequence c.ent.list.qlen c

/-- The loop of `ba_refresh_reordering_mpdus`. -/
def refreshLoop : Nat → RxCtx → RxCtx
  | 0, c => c
  | n + 1, c =>
      match baReorderingMpduProbe c.ent.list with
      | none => c
      | some mpdu_blk => refreshLoop n (c.indicateHead.setLastIndSeq mpdu_blk.Sequence)

/-- `ba_refresh_reordering_mpdus`. -/
def baRefreshReorderingMpdus (c : RxCtx) : RxCtx :=
  (refreshLoop c.ent.list.qlen c).setLastIndSeq resetRcvSeq

/-- The caller's `if (Sequence != RESET_RCV_SEQ) LastIndSeq = Sequence` around
`ba_indicate_reordering_mpdus_in_order`. -/
def indicateInOrderFrom (c : RxCtx) (startSeq : Nat) : RxCtx :=
  let (c, sequence) := baIndicateReorderingMpdusInOrder c startSeq
  if sequence ≠ resetRcvSeq then c.setLastIndSeq sequence else c

/-- The first test of `ba_flush_reordering_timeout_mpdus`: flush all. -/
def flushAllDue (osHz : Nat) (ent : BaRecEntry) (now32 : BitVec 32) : Bool :=
  rtmpTimeAfter now32 (ent.LastIndSeqAtTimer + maxReorderingPacketTimeout osHz / 6)
    && decide (1 < ent.list.qlen)

/-- Its second test: flush one. -/
def flushOneDue (osHz : Nat) (ent : BaRecEntry) (now32 : BitVec 32) : Bool :=
  rtmpTimeAfter now32 (ent.LastIndSeqAtTimer + reorderingPacketTimeout osHz)
    && decide (0 < ent.list.qlen)

/-- `ba_flush_reordering_timeout_mpdus`. -/
def baFlushReorderingTimeoutMpdus (osHz : Nat) (c : RxCtx) (now32 : BitVec 32) : RxCtx :=
  if c.ent.list.qlen ≤ 0 then c
  else if flushAllDue osHz c.ent now32 then
    (baRefreshReorderingMpdus c).setLastIndSeqAtTimer now32
  else if flushOneDue osHz c.ent now32 then
    let sequence := (c.ent.LastIndSeq + 1) &&& maxSeq
    let c := baIndicateReorderingMpdusLeSeq c sequence
    let c := (c.setLastIndSeqAtTimer now32).setLastIndSeq sequence
    indicateInOrderFrom c sequence
  else c

/-! ## A data MPDU -/

/-- The frame itself, handed up. -/
def RxBlk.indicated (rx : RxBlk) : Indicated := ⟨rx.Sequence, rx.pRxPacket⟩

def RxCtx.announce (c : RxCtx) (rx : RxBlk) : RxCtx := { c with up := c.up ++ [rx.indicated] }

/-- The time-out flush inside `Indicate_Legacy_Packet` (USB, reordering
enabled), with the tick it reads. -/
def legacyFlushDue (osHz : Nat) (ent : BaRecEntry) (now32 : BitVec 32) : Bool :=
  decide (0 < ent.list.qlen)
    && rtmpTimeAfter now32 (ent.LastIndSeqAtTimer + reorderingPacketTimeout osHz)

/-- `INDICATE_LEGACY_OR_AMSDU` for a frame of this session: an A-MSDU and an
EAPOL frame go up as they are, a legacy one after the flush that
`Indicate_Legacy_Packet` makes at the tick `nowInd`. (Its size check was made
by `Indicate_AMPDU_Packet`.) -/
def indicateLegacyOrAmsdu (osHz : Nat) (c : RxCtx) (rx : RxBlk) (nowInd : BitVec 32) : RxCtx :=
  if rx.fRX_AMSDU then c.announce rx
  else if rx.fRX_EAP then c.announce rx
  else if legacyFlushDue osHz c.ent nowInd then
    (baFlushReorderingTimeoutMpdus osHz c nowInd).announce rx
  else c.announce rx

/-- `ba_enqueue_reordering_packet`. -/
def baEnqueueReorderingPacket (osHz : Nat) (c : RxCtx) (rx : RxBlk) (nowInd : BitVec 32) :
    RxCtx :=
  let (mpdu_blk, pool) := match baMpduBlkAlloc c.pool with
    | none => (none, c.pool)
    | some (mpdu_blk, pool) => (some mpdu_blk, pool)
  let c := { c with pool := pool }
  match mpdu_blk, rx.fRX_EAP with
  | some mpdu_blk, false =>
      let mpdu_blk := { mpdu_blk with
        Sequence := rx.Sequence, OpMode := rx.OpMode, bAMSDU := rx.fRX_AMSDU,
        pPacket := rx.pRxPacket }
      match baReorderingMpduInsertsorted c.ent.list mpdu_blk with
      | none => { c with pool := baMpduBlkFree c.pool mpdu_blk }
      | some list => { c with ent := { c.ent with list := list } }
  | _, _ =>
      let c := baIndicateReorderingMpdusLeSeq c rx.Sequence
      indicateLegacyOrAmsdu osHz (c.setLastIndSeq rx.Sequence) rx nowInd

/-- `WinStartSeq` of case V. -/
def winStartSeq (sequence baWinSize : Nat) : Nat :=
  let tmpSeq : Int := sequence - baWinSize - 1
  let tmpSeq := if tmpSeq < 0 then (maxSeq + 1) + tmpSeq else tmpSeq
  (tmpSeq + 1).toNat &&& maxSeq

/-- The cases of `Indicate_AMPDU_Packet`. -/
inductive AmpduCase
  | reset
  | inOrder
  | duplicate
  | old
  | withinWin
  | surpassesWin
deriving DecidableEq, Repr

/-- The tests of `Indicate_AMPDU_Packet`, in its order. -/
def ampduCase (ent : BaRecEntry) (sequence : Nat) : AmpduCase :=
  if ent.LastIndSeq = resetRcvSeq then .reset
  else if seqStepone sequence ent.LastIndSeq then .inOrder
  else if sequence = ent.LastIndSeq then .duplicate
  else if seqSmaller sequence ent.LastIndSeq then .old
  else if seqSmaller sequence ((ent.LastIndSeq + ent.BAWinSize + 1) &&& maxSeq) then .withinWin
  else .surpassesWin

/-- The start of `Indicate_AMPDU_Packet` once the entry is found: flush what
has timed out, restart the timer. -/
def ampduArrive (osHz : Nat) (c : RxCtx) (now32 : BitVec 32) : RxCtx :=
  (baFlushReorderingTimeoutMpdus osHz c now32).setLastIndSeqAtTimer now32

/-- `Indicate_AMPDU_Packet` from the sequence checks on. -/
def ampduDeliver (osHz : Nat) (c : RxCtx) (rx : RxBlk) (now32 nowInd : BitVec 32) : RxCtx :=
  match ampduCase c.ent rx.Sequence with
  | .reset =>
      let c := (c.setLastIndSeq rx.Sequence).setLastIndSeqAtTimer now32
      indicateLegacyOrAmsdu osHz c rx nowInd
  | .inOrder =>
      let c := indicateLegacyOrAmsdu osHz (c.setLastIndSeq rx.Sequence) rx nowInd
      (indicateInOrderFrom c c.ent.LastIndSeq).setLastIndSeqAtTimer now32
  | .duplicate => c
  | .old => c
  | .withinWin => baEnqueueReorderingPacket osHz c rx nowInd
  | .surpassesWin =>
      let start := winStartSeq rx.Sequence c.ent.BAWinSize
      let c := baIndicateReorderingMpdusLeSeq c start
      let c := (c.setLastIndSeq start).setLastIndSeqAtTimer now32
      let c := baEnqueueReorderingPacket osHz c rx nowInd
      indicateInOrderFrom c c.ent.LastIndSeq

/-- The size check at the top of `Indicate_AMPDU_Packet`. -/
def RxBlk.oversize (rx : RxBlk) : Bool := !rx.fRX_AMSDU && decide (maxRxPktLen < rx.DataSize)

/-- `Indicate_AMPDU_Packet`, from the entry on. -/
def ampduAtEntry (osHz : Nat) (c : RxCtx) (rx : RxBlk) (now32 nowInd : BitVec 32) : RxCtx :=
  ampduDeliver osHz (ampduArrive osHz c now32) rx now32 nowInd

/-! ## The other events of an entry -/

/-- `CntlEnqueueForRecv` once the entry is found; `startSeq` is the 12-bit
starting sequence number of the BlockAckReq. -/
def barAtEntry (c : RxCtx) (startSeq : Fin 4096) : RxCtx :=
  if seqSmaller c.ent.LastIndSeq startSeq then
    (baIndicateReorderingMpdusLeSeq c startSeq).setLastIndSeq
      (if (startSeq : Nat) = 0 then maxSeq else startSeq - 1)
  else c

/-- `BARecSessionIdleTimeout`. -/
def baRecSessionIdleTimeout (c : RxCtx) (now32 : BitVec 32) : RxCtx :=
  if c.ent.REC_BA_Status = .recipientAccept then
    if rtmpTimeAfter now32 (c.ent.LastIndSeqAtTimer + recBaSessionIdleTimeout) then
      baRefreshReorderingMpdus c
    else c
  else c

/-- `BAWinSize` of `BARecSessionAdd`: the smaller of the two limits, as
`UCHAR`s, and 64 for none. -/
def recWinSize (bufSize rxBAWinLimit : Nat) : Nat :=
  let baWinSize := min (bufSize % 256) (rxBAWinLimit % 256)
  if baWinSize = 0 then 64 else baWinSize

/-- What `BARecSessionAdd` writes into the entry. -/
def BaRecEntry.fill (ent : BaRecEntry) (wcid : Fin 32) (tid : Fin 16)
    (baWinSize timeOutValue : Nat) : BaRecEntry :=
  { ent with
    BAWinSize := baWinSize, Wcid := wcid, TID := tid, TimeOutValue := timeOutValue,
    REC_BA_Status := .recipientAccept, LastIndSeq := resetRcvSeq }

end ExtDrv.Rt3370
