import ExtDrv.Rt3370.Indicate
import Mathlib.Data.Fintype.Basic
import Mathlib.Logic.Function.Basic

/-!
# The block-ack tables

The adapter side of `common/ba_action.c`: the originator and recipient tables,
the slot arrays of the stations that point into them, and the operations on
both, from the driver and from received action frames. Timers, debug prints,
the frames sent out and the ASIC's own session mask are left out.

Action frames carry a 4-bit TID. A slot array has 8 places, and the three
arrays of a station lie next to each other, so a TID from 8 on reads and writes
the array behind (`recSlot`, `setRecSlot`, `oriSlot`).
-/

namespace ExtDrv.Rt3370

/-! ## Tables -/

/-- `MAX_LEN_OF_MAC_TABLE`. -/
abbrev maxLenOfMacTable : Nat := 32

/-- `NUM_OF_TID`. -/
abbrev numOfTid : Nat := 8

/-- `MAX_LEN_OF_BA_REC_TABLE`, and `MAX_LEN_OF_BA_ORI_TABLE`. -/
abbrev maxLenOfBaTable : Nat := 128

/-- `ORI_BLOCKACK_STATUS`. -/
inductive OriBlockackStatus
  | originatorNone
  | originatorUsed
  | originatorWaitRes
  | originatorDone
deriving DecidableEq, Repr

/-- The value of the enumerator. -/
def OriBlockackStatus.toNat : OriBlockackStatus → Nat
  | .originatorNone => 0
  | .originatorUsed => 1
  | .originatorWaitRes => 2
  | .originatorDone => 3

/-- `BA_ORI_ENTRY`. Its TID comes from `BAOriSessionSetUp` alone, which checks
it. -/
structure BaOriEntry where
  Wcid : Fin 32
  TID : Fin 8
  BAWinSize : Nat
  Token : Nat
  Sequence : Nat
  TimeOutValue : Nat
  ORI_BA_Status : OriBlockackStatus
deriving DecidableEq

/-- An entry of the zeroed adapter. -/
def BaOriEntry.zero : BaOriEntry :=
  { Wcid := 0, TID := 0, BAWinSize := 0, Token := 0, Sequence := 0, TimeOutValue := 0,
    ORI_BA_Status := .originatorNone }

/-- The part of `MAC_TABLE_ENTRY` the block-ack code uses. `isHtSta` is
`IS_HT_STA`, `openMode` is `WepStatus == Ndis802_11EncryptionDisabled`. An entry's
`Aid` is its own index. -/
structure MacTableEntry where
  isHtSta : Bool
  openMode : Bool
  MaxRAmpduFactor : Nat
  TxSeq : Fin 8 → Nat
  RXBAbitmap : BitVec 16
  TXBAbitmap : BitVec 16
  BADeclineBitmap : BitVec 16
  BARecWcidArray : Fin 8 → Fin 128
  BAOriWcidArray : Fin 8 → Fin 128
  BAOriSequence : Fin 8 → Fin 128

/-- The settings of `CommonCfg` and `StaCfg` read here. -/
structure BaCfg where
  RxBAWinLimit : Nat
  AutoBA : Bool
  bBADecline : Bool
  bDisableReordering : Bool
  fixedTxModeHt : Bool
  staTgnWifiOn : Bool
  MACVersion : Nat
  osHz : Nat

/-- The adapter, as far as the block-ack code goes. -/
structure RtmpAdapter where
  cfg : BaCfg
  numAsRecipient : Nat
  numAsOriginator : Nat
  numDoneOriginator : Nat
  BAOriEntry : Fin 128 → BaOriEntry
  BARecEntry : Fin 128 → BaRecEntry
  Content : Fin 32 → MacTableEntry
  mpdu_blk_pool : ReorderingList
  up : List Indicated

/-- `+= 1` and `-= 1` on a 32-bit `ULONG`. -/
def ulongInc (n : Nat) : Nat := if n = 0xFFFFFFFF then 0 else n + 1

def ulongDec (n : Nat) : Nat := if n = 0 then 0xFFFFFFFF else n - 1

/-! ## Slots -/

theorem sub_eight_lt (tid : Fin 16) : (tid : Nat) - 8 < 8 := by omega

/-- `BARecWcidArray[TID]`. -/
def MacTableEntry.recSlot (e : MacTableEntry) (tid : Fin 16) : Fin 128 :=
  if h : (tid : Nat) < 8 then e.BARecWcidArray ⟨tid, h⟩
  else e.BAOriWcidArray ⟨tid - 8, sub_eight_lt tid⟩

/-- `BARecWcidArray[TID] = idx`. -/
def MacTableEntry.setRecSlot (e : MacTableEntry) (tid : Fin 16) (idx : Fin 128) : MacTableEntry :=
  if h : (tid : Nat) < 8 then
    { e with BARecWcidArray := Function.update e.BARecWcidArray ⟨tid, h⟩ idx }
  else
    { e with BAOriWcidArray := Function.update e.BAOriWcidArray ⟨tid - 8, sub_eight_lt tid⟩ idx }

/-- `BAOriWcidArray[TID]`. -/
def MacTableEntry.oriSlot (e : MacTableEntry) (tid : Fin 16) : Fin 128 :=
  if h : (tid : Nat) < 8 then e.BAOriWcidArray ⟨tid, h⟩
  else e.BAOriSequence ⟨tid - 8, sub_eight_lt tid⟩

/-- `BAOriWcidArray[TID] = idx`, for the TIDs the driver writes it with. -/
def MacTableEntry.setOriSlot (e : MacTableEntry) (tid : Fin 8) (idx : Fin 128) : MacTableEntry :=
  { e with BAOriWcidArray := Function.update e.BAOriWcidArray tid idx }

/-- `1 << TID`. -/
def tidBit (tid : Nat) : BitVec 16 := 1#16 <<< tid

/-- The fields of an ADDBA frame, request or response. -/
structure FrameAddba where
  lenOk : Bool
  BAPolicy : Nat
  TID : Fin 16
  BufSize : Fin 1024
  TimeOutValue : Nat
  StatusCode : Nat

/-- `PeerAddBAReqActionSanity`, `PeerAddBARspActionSanity`: long enough, and
`IMMED_BA`. -/
def FrameAddba.sane (f : FrameAddba) : Bool := f.lenOk && f.BAPolicy == 1

/-- Step 2 of `BARecSessionTearDown`: flush what is held, clear the window. -/
def RxCtx.closeSession (c : RxCtx) : RxCtx :=
  let c := (baRefreshReorderingMpdus c).setLastIndSeq resetRcvSeq
  { c with ent := { c.ent with BAWinSize := 0 } }

namespace RtmpAdapter

/-- Change one station. -/
def setSta (ad : RtmpAdapter) (w : Fin 32) (f : MacTableEntry → MacTableEntry) : RtmpAdapter :=
  { ad with Content := Function.update ad.Content w (f (ad.Content w)) }

/-- Write one originator entry. -/
def setOri (ad : RtmpAdapter) (i : Fin 128) (e : BaOriEntry) : RtmpAdapter :=
  { ad with BAOriEntry := Function.update ad.BAOriEntry i e }

/-- What the reordering functions work on, for recipient entry `i`. -/
def recCtx (ad : RtmpAdapter) (i : Fin 128) : RxCtx :=
  { pool := ad.mpdu_blk_pool, ent := ad.BARecEntry i, up := ad.up }

/-- Put the outcome back. -/
def putRec (ad : RtmpAdapter) (i : Fin 128) (c : RxCtx) : RtmpAdapter :=
  { ad with
    BARecEntry := Function.update ad.BARecEntry i c.ent, mpdu_blk_pool := c.pool, up := c.up }

/-! ## Allocating and freeing entries -/

/-- The scan of `BATableAllocRecEntry`, `BATableAllocOriEntry`: the first entry
that is free, index 0 left out. -/
def firstFree (free : Fin 128 → Bool) : Option (Fin 128) :=
  ((List.finRange 128).drop 1).find? free

/-- `BATableAllocRecEntry`: the entry (none for NULL) and `*Idx`. A scan that
finds nothing leaves the last entry in hand and `*Idx` as it was. -/
def baTableAllocRecEntry (ad : RtmpAdapter) (idx : Fin 128) :
    RtmpAdapter × Option (Fin 128) × Fin 128 :=
  if maxLenOfBaTable - 1 ≤ ad.numAsRecipient then (ad, none, idx)
  else
    match firstFree fun i => decide ((ad.BARecEntry i).REC_BA_Status = .recipientNone) with
    | none => (ad, some 127, idx)
    | some i =>
        let ent := { ad.BARecEntry i with REC_BA_Status := .recipientUsed }
        ({ ad with
            numAsRecipient := ulongInc ad.numAsRecipient,
            BARecEntry := Function.update ad.BARecEntry i ent }, some i, i)

/-- `BATableAllocOriEntry`. -/
def baTableAllocOriEntry (ad : RtmpAdapter) (idx : Fin 128) :
    RtmpAdapter × Option (Fin 128) × Fin 128 :=
  if maxLenOfBaTable - 1 ≤ ad.numAsOriginator then (ad, none, idx)
  else
    match firstFree fun i => decide ((ad.BAOriEntry i).ORI_BA_Status = .originatorNone) with
    | none => (ad, some 127, idx)
    | some i =>
        let ent := { ad.BAOriEntry i with ORI_BA_Status := .originatorUsed }
        ({ ad.setOri i ent with numAsOriginator := ulongInc ad.numAsOriginator }, some i, i)

/-- `BATableFreeOriEntry`; an index past the table cannot be written here. -/
def baTableFreeOriEntry (ad : RtmpAdapter) (idx : Fin 128) : RtmpAdapter :=
  if idx = 0 then ad
  else
    let ent := ad.BAOriEntry idx
    if ent.ORI_BA_Status ≠ .originatorNone then
      let ad := ad.setSta ent.Wcid fun sta => sta.setOriSlot ent.TID 0
      let ad :=
        if ent.ORI_BA_Status = .originatorDone then
          { ad.setSta ent.Wcid (fun sta =>
              { sta with TXBAbitmap := sta.TXBAbitmap &&& ~~~(tidBit ent.TID) }) with
            numDoneOriginator := ulongDec ad.numDoneOriginator }
        else ad
      { ad.setOri idx { ent with ORI_BA_Status := .originatorNone, Token := 0 } with
        numAsOriginator := ulongDec ad.numAsOriginator }
    else ad

/-- `BATableFreeRecEntry`. -/
def baTableFreeRecEntry (ad : RtmpAdapter) (idx : Fin 128) : RtmpAdapter :=
  if idx = 0 then ad
  else
    let ent := ad.BARecEntry idx
    if ent.REC_BA_Status ≠ .recipientNone then
      let ad := ad.setSta ent.Wcid fun sta => sta.setRecSlot ent.TID 0
      { ad with
        numAsRecipient := ulongDec ad.numAsRecipient,
        BARecEntry := Function.update ad.BARecEntry idx
          { ent with REC_BA_Status := .recipientNone } }
    else ad

/-! ## Originator sessions -/

/-- `BA_MaxWinSizeReasign`. -/
def baMaxWinSizeReasign (cfg : BaCfg) (sta : MacTableEntry) (winSize : Nat) : Nat :=
  let maxPeerRxSize := ((1 <<< (sta.MaxRAmpduFactor + 3)) * 10 / 16 - 1) % 256
  let maxSize :=
    if 0x28830300 ≤ cfg.MACVersion then
      if 0x30700200 ≤ cfg.MACVersion then
        if !sta.openMode then 7 else 13
      else 31
    else if 0x28720200 ≤ cfg.MACVersion then
      if !sta.openMode then 7 else 13
    else 7
  let maxSize := min maxPeerRxSize maxSize
  if maxSize < winSize then maxSize else winSize

/-- `BAOriSessionSetUp` for station `w`. -/
def baOriSessionSetUp (ad : RtmpAdapter) (w : Fin 32) (tid timeOut : Nat) (isForced : Bool) :
    RtmpAdapter :=
  if h : tid < numOfTid then
    if !ad.cfg.AutoBA && !isForced then ad
    else if !ad.cfg.fixedTxModeHt then ad
    else
      let tid : Fin 8 := ⟨tid, h⟩
      let idx := (ad.Content w).BAOriWcidArray tid
      let (ad, ent, idx) := if idx = 0 then ad.baTableAllocOriEntry idx else (ad, some idx, idx)
      match ent with
      | none => ad
      | some i =>
          if 2 ≤ (ad.BAOriEntry i).ORI_BA_Status.toNat then ad
          else
            let ad := ad.setSta w fun sta => sta.setOriSlot tid idx
            ad.setOri i
              { Wcid := w, TID := tid, BAWinSize := ad.cfg.RxBAWinLimit, Token := 1,
                Sequence := (ad.Content w).TxSeq tid, TimeOutValue := timeOut,
                ORI_BA_Status := .originatorWaitRes }
  else ad

/-- `BAOriSessionAdd` for station `w`. The BlockAckReq it then sends changes
nothing here, nor does running out of memory for it. -/
def baOriSessionAdd (ad : RtmpAdapter) (w : Fin 32) (f : FrameAddba) : RtmpAdapter :=
  let sta := ad.Content w
  let idx := sta.oriSlot f.TID
  let ent := ad.BAOriEntry idx
  if idx ≠ 0 ∧ (ent.TID : Nat) = f.TID ∧ ent.ORI_BA_Status = .originatorWaitRes then
    let maxPeerBufSize := (f.BufSize : Nat) % 256 - 1
    let winSize := baMaxWinSizeReasign ad.cfg sta (min ent.BAWinSize maxPeerBufSize)
    let ad := ad.setOri idx
      { ent with
        BAWinSize := winSize, TimeOutValue := f.TimeOutValue, ORI_BA_Status := .originatorDone,
        Sequence := sta.TxSeq ent.TID }
    let ad := { ad with numDoneOriginator := ulongInc ad.numDoneOriginator }
    ad.setSta w fun sta => { sta with TXBAbitmap := sta.TXBAbitmap ||| tidBit f.TID }
  else ad

/-- `BAOriSessionTearDown`; `memOk` says whether the DELBA request finds
memory. -/
def baOriSessionTearDown (ad : RtmpAdapter) (wcid : Nat) (tid : Fin 16)
    (bPassive memOk : Bool) : RtmpAdapter :=
  if h : wcid < maxLenOfMacTable then
    let idx := (ad.Content ⟨wcid, h⟩).oriSlot tid
    -- a forced DELBA for a station without a session sends a frame, no more
    if idx = 0 then ad
    else
      let ent := ad.BAOriEntry idx
      if !bPassive && decide ((tid : Nat) = ent.TID)
          && decide (ent.ORI_BA_Status = .originatorDone) && !memOk then ad
      else ad.baTableFreeOriEntry idx
  else ad

/-- `BAOriSessionSetupTimeout`; `busy` when monitor or ATE mode is on, `scan`
when a scan is running. -/
def baOriSessionSetupTimeout (ad : RtmpAdapter) (i : Fin 128) (busy scan : Bool) : RtmpAdapter :=
  if busy then ad
  else
    let ent := ad.BAOriEntry i
    if ent.ORI_BA_Status = .originatorWaitRes ∧ ent.Token < 8 then
      if scan then ad else ad.setOri i { ent with Token := ent.Token + 1 }
    else ad.baTableFreeOriEntry ((ad.Content ent.Wcid).BAOriWcidArray ent.TID)

/-! ## Recipient sessions -/

/-- `BARecSessionAdd` for station `w`: its Boolean, and the adapter. -/
def baRecSessionAdd (ad : RtmpAdapter) (w : Fin 32) (f : FrameAddba) : Bool × RtmpAdapter :=
  let winSize := recWinSize f.BufSize ad.cfg.RxBAWinLimit
  let idx := (ad.Content w).recSlot f.TID
  let (ad, ent, idx) :=
    if idx = 0 then ad.baTableAllocRecEntry idx
    else (ad.putRec idx (baRefreshReorderingMpdus (ad.recCtx idx)), some idx, idx)
  match ent with
  | none => (false, ad)
  | some i =>
      let ad := { ad with
        BARecEntry := Function.update ad.BARecEntry i
          ((ad.BARecEntry i).fill w f.TID winSize f.TimeOutValue) }
      let ad := ad.setSta w fun sta =>
        { (sta.setRecSlot f.TID idx) with
          RXBAbitmap := sta.RXBAbitmap ||| tidBit f.TID,
          BADeclineBitmap := sta.BADeclineBitmap &&& ~~~(tidBit f.TID) }
      (true, ad)

/-- `BARecSessionTearDown`. -/
def baRecSessionTearDown (ad : RtmpAdapter) (wcid : Nat) (tid : Fin 16)
    (bPassive memOk : Bool) : RtmpAdapter :=
  if h : wcid < maxLenOfMacTable then
    let w : Fin 32 := ⟨wcid, h⟩
    let idx := (ad.Content w).recSlot tid
    if idx = 0 then ad
    else
      let ent := ad.BARecEntry idx
      if tid = ent.TID ∧ ent.REC_BA_Status = .recipientAccept then
        if !bPassive && !memOk then ad
        else
          let ad := ad.putRec idx (ad.recCtx idx).closeSession
          let ad := ad.setSta w fun sta =>
            { sta with RXBAbitmap := sta.RXBAbitmap &&& ~~~(tidBit ent.TID) }
          let ad := ad.setSta w fun sta => sta.setRecSlot tid 0
          ad.baTableFreeRecEntry idx
      else ad.baTableFreeRecEntry idx
  else ad

/-! ## Received action frames -/

/-- `PeerAddBAReqAction`. The response it sends changes nothing here. -/
def peerAddBaReqAction (ad : RtmpAdapter) (wcid : Nat) (f : FrameAddba) : RtmpAdapter :=
  if h : wcid < maxLenOfMacTable then
    if f.sane && !ad.cfg.bBADecline && (ad.Content ⟨wcid, h⟩).isHtSta then
      (ad.baRecSessionAdd ⟨wcid, h⟩ f).2
    else ad
  else ad

/-- `PeerAddBARspAction`. -/
def peerAddBaRspAction (ad : RtmpAdapter) (wcid : Nat) (f : FrameAddba) (memOk : Bool) :
    RtmpAdapter :=
  if h : wcid < maxLenOfMacTable then
    if f.sane then
      let ad :=
        if f.StatusCode = 0 then ad.baOriSessionAdd ⟨wcid, h⟩ f
        else ad.baOriSessionTearDown wcid f.TID true memOk
      if f.StatusCode = 37 ∨ ad.cfg.staTgnWifiOn ∧ f.StatusCode ≠ 0 then
        ad.setSta ⟨wcid, h⟩ fun sta =>
          { sta with BADeclineBitmap := sta.BADeclineBitmap ||| tidBit f.TID }
      else ad
    else ad
  else ad

/-- `PeerDelBAAction`; `lenOk` is the length check of its sanity test, which
also looks at the station. -/
def peerDelBaAction (ad : RtmpAdapter) (wcid : Nat) (lenOk initiator : Bool) (tid : Fin 16) :
    RtmpAdapter :=
  if lenOk ∧ wcid < maxLenOfMacTable then
    if initiator then ad.baRecSessionTearDown wcid tid true true
    else ad.baOriSessionTearDown wcid tid true true
  else ad

/-! ## Received data and BlockAckReq frames -/

/-- `Indicate_AMPDU_Packet`. -/
def indicateAmpduPacket (ad : RtmpAdapter) (rx : RxBlk) (now32 nowInd : BitVec 32) :
    RtmpAdapter :=
  if rx.oversize then ad
  else if h : rx.WirelessCliID < maxLenOfMacTable then
    let idx := (ad.Content ⟨rx.WirelessCliID, h⟩).recSlot rx.TID
    if idx = 0 then { ad with up := ad.up ++ [rx.indicated] }
    else ad.putRec idx (ampduAtEntry ad.cfg.osHz (ad.recCtx idx) rx now32 nowInd)
  else ad

/-- `CntlEnqueueForRecv`; `frameOk` when the driver is not halting and the frame
has its length. -/
def cntlEnqueueForRecv (ad : RtmpAdapter) (wcid : Nat) (frameOk : Bool) (tid : Fin 16)
    (startSeq : Fin 4096) : RtmpAdapter :=
  if frameOk then
    if h : wcid < maxLenOfMacTable ∧ (tid : Nat) < 8 then
      let idx := (ad.Content ⟨wcid, h.1⟩).BARecWcidArray ⟨tid, h.2⟩
      ad.putRec idx (barAtEntry (ad.recCtx idx) startSeq)
    else ad
  else ad

/-- The flush a legacy frame of the station triggers in
`Indicate_Legacy_Packet`. -/
def legacyFlush (ad : RtmpAdapter) (wcid : Nat) (tid : Fin 16) (now32 : BitVec 32) :
    RtmpAdapter :=
  if h : wcid < maxLenOfMacTable then
    if ad.cfg.bDisableReordering then ad
    else
      let idx := (ad.Content ⟨wcid, h⟩).recSlot tid
      if idx ≠ 0 ∧ legacyFlushDue ad.cfg.osHz (ad.BARecEntry idx) now32 = true then
        ad.putRec idx (baFlushReorderingTimeoutMpdus ad.cfg.osHz (ad.recCtx idx) now32)
      else ad
  else ad

/-- `BARecSessionIdleTimeout` of entry `i`. -/
def recIdleTimeout (ad : RtmpAdapter) (i : Fin 128) (now32 : BitVec 32) : RtmpAdapter :=
  ad.putRec i (baRecSessionIdleTimeout (ad.recCtx i) now32)

end RtmpAdapter

/-! ## The machine -/

/-- What happens to the adapter's block-ack state. The TIDs of frames are what
the peer sends; a tear-down of the driver's own takes the TID of an ioctl,
which is not looked at when `bAllTid` is set. -/
inductive BaOp
  | oriSetUp (w : Fin 32) (tid timeOut : Nat) (isForced : Bool)
  | oriTearDown (wcid : Nat) (tid : Fin 16) (bPassive memOk : Bool)
  | oriTimeout (i : Fin 128) (busy scan : Bool)
  | recTearDown (wcid : Nat) (tid : Fin 16) (bPassive memOk : Bool)
  | addBaReq (wcid : Nat) (f : FrameAddba)
  | addBaRsp (wcid : Nat) (f : FrameAddba) (memOk : Bool)
  | delBa (wcid : Nat) (lenOk initiator : Bool) (tid : Fin 16)
  | ampdu (rx : RxBlk) (now32 nowInd : BitVec 32)
  | bar (wcid : Nat) (frameOk : Bool) (tid : Fin 16) (startSeq : Fin 4096)
  | legacy (wcid : Nat) (tid : Fin 16) (now32 : BitVec 32)
  | idleTimeout (i : Fin 128) (now32 : BitVec 32)

/-- **One step** of the adapter. -/
def baStep (ad : RtmpAdapter) : BaOp → RtmpAdapter
  | .oriSetUp w tid timeOut isForced => ad.baOriSessionSetUp w tid timeOut isForced
  | .oriTearDown wcid tid bPassive memOk => ad.baOriSessionTearDown wcid tid bPassive memOk
  | .oriTimeout i busy scan => ad.baOriSessionSetupTimeout i busy scan
  | .recTearDown wcid tid bPassive memOk => ad.baRecSessionTearDown wcid tid bPassive memOk
  | .addBaReq wcid f => ad.peerAddBaReqAction wcid f
  | .addBaRsp wcid f memOk => ad.peerAddBaRspAction wcid f memOk
  | .delBa wcid lenOk initiator tid => ad.peerDelBaAction wcid lenOk initiator tid
  | .ampdu rx now32 nowInd => ad.indicateAmpduPacket rx now32 nowInd
  | .bar wcid frameOk tid startSeq => ad.cntlEnqueueForRecv wcid frameOk tid startSeq
  | .legacy wcid tid now32 => ad.legacyFlush wcid tid now32
  | .idleTimeout i now32 => ad.recIdleTimeout i now32

/-- What is known of a station before it has any session. -/
structure StaCaps where
  isHtSta : Bool
  openMode : Bool
  MaxRAmpduFactor : Nat
  TxSeq : Fin 8 → Nat

/-- The station without a session. -/
def StaCaps.entry (s : StaCaps) : MacTableEntry :=
  { isHtSta := s.isHtSta, openMode := s.openMode, MaxRAmpduFactor := s.MaxRAmpduFactor,
    TxSeq := s.TxSeq, RXBAbitmap := 0, TXBAbitmap := 0, BADeclineBitmap := 0,
    BARecWcidArray := fun _ => 0, BAOriWcidArray := fun _ => 0, BAOriSequence := fun _ => 0 }

/-- `ba_reordering_resource_init`: the free list of `num` zeroed blocks. -/
def baReorderingResourceInit (num : Nat) : ReorderingList :=
  (List.range num).foldl (fun freelist addr => baEnqueue freelist ⟨addr, 0, 0, false, 0⟩)
    (.ofList [])

/-- The adapter before any session. -/
def baStart (cfg : BaCfg) (caps : Fin 32 → StaCaps) (num : Nat) : RtmpAdapter :=
  { cfg := cfg, numAsRecipient := 0, numAsOriginator := 0, numDoneOriginator := 0,
    BAOriEntry := fun _ => .zero, BARecEntry := fun _ => .zero,
    Content := fun w => (caps w).entry, mpdu_blk_pool := baReorderingResourceInit num, up := [] }

/-- The settings of the driver's own profile. -/
def plainCfg : BaCfg :=
  { RxBAWinLimit := 64, AutoBA := true, bBADecline := false, bDisableReordering := false,
    fixedTxModeHt := true, staTgnWifiOn := false, MACVersion := 0x30700200, osHz := 100 }

/-- An HT station. -/
def htSta : StaCaps :=
  { isHtSta := true, openMode := true, MaxRAmpduFactor := 3, TxSeq := fun _ => 0 }

/-- An ADDBA request for `tid`, with a window of 8. -/
def addbaFor (tid : Fin 16) : FrameAddba :=
  { lenOk := true, BAPolicy := 1, TID := tid, BufSize := 8, TimeOutValue := 0, StatusCode := 0 }

end ExtDrv.Rt3370
