import ExtDrv.Lib.Run
import ExtDrv.Lib.Table
import ExtDrv.Rt3370.Recipient
import Mathlib.Data.Multiset.Range

/-!
# The block pool

Where the blocks of the reordering pool are: in the free list or linked in one
of the hold-back lists. Every operation of the adapter moves them between the
two, except an EAPOL frame that finds a block on its way into a hold-back
list: the block is taken off the free list and never linked anywhere.
-/

namespace ExtDrv.Rt3370

open ExtDrv.Serial

/-! ## Blocks of one entry -/

/-- The blocks of a list, by address. -/
def addrs (xs : List ReorderingMpdu) : Multiset Nat := (xs.map ReorderingMpdu.addr : List Nat)

@[simp] theorem addrs_nil : addrs [] = 0 := rfl

@[simp] theorem addrs_cons (mpdu : ReorderingMpdu) (xs : List ReorderingMpdu) :
    addrs (mpdu :: xs) = {mpdu.addr} + addrs xs := by
  simp [addrs, Multiset.singleton_add]

@[simp] theorem addrs_append (xs ys : List ReorderingMpdu) :
    addrs (xs ++ ys) = addrs xs + addrs ys := by
  simp [addrs]

@[simp] theorem addrs_reverse (xs : List ReorderingMpdu) : addrs xs.reverse = addrs xs := by
  rw [addrs, addrs, List.map_reverse, Multiset.coe_reverse]

theorem card_addrs (xs : List ReorderingMpdu) : (addrs xs).card = xs.length := by
  simp [addrs]

/-- The blocks in the free list and in the entry. -/
def RxCtx.blocks (c : RxCtx) : Multiset Nat := addrs c.pool.next + addrs c.held

theorem release_blocks (c : RxCtx) (k : Nat) : (c.release k).blocks = c.blocks := by
  have hsplit : addrs (c.held.take k) + addrs (c.held.drop k) = addrs c.held := by
    rw [← addrs_append, List.take_append_drop]
  change addrs ((c.held.take k).reverse ++ c.pool.next) + addrs (c.held.drop k) = _
  rw [addrs_append, addrs_reverse, add_right_comm, hsplit, add_comm]
  rfl

theorem leSeq_blocks (c : RxCtx) (s : Nat) :
    (baIndicateReorderingMpdusLeSeq c s).blocks = c.blocks := by
  rw [baIndicateReorderingMpdusLeSeq_eq, release_blocks]

theorem refresh_blocks (c : RxCtx) : (baRefreshReorderingMpdus c).blocks = c.blocks := by
  rw [baRefreshReorderingMpdus_eq]
  exact release_blocks c _

theorem indicateInOrderFrom_blocks (c : RxCtx) (s : Nat) :
    (indicateInOrderFrom c s).blocks = c.blocks := by
  rw [indicateInOrderFrom_eq]
  exact release_blocks c _

theorem flush_blocks (osHz : Nat) (c : RxCtx) (now32 : BitVec 32) :
    (baFlushReorderingTimeoutMpdus osHz c now32).blocks = c.blocks := by
  unfold baFlushReorderingTimeoutMpdus
  split
  · rfl
  · split
    · exact refresh_blocks c
    · split
      · exact (indicateInOrderFrom_blocks _ _).trans (leSeq_blocks c _)
      · rfl

theorem indicate_blocks (osHz : Nat) (c : RxCtx) (rx : RxBlk) (nowInd : BitVec 32) :
    (indicateLegacyOrAmsdu osHz c rx nowInd).blocks = c.blocks := by
  unfold indicateLegacyOrAmsdu
  split
  · rfl
  · split
    · rfl
    · split
      · exact flush_blocks osHz c nowInd
      · rfl

theorem bar_blocks (c : RxCtx) (startSeq : Fin 4096) :
    (barAtEntry c startSeq).blocks = c.blocks := by
  unfold barAtEntry
  split
  · exact leSeq_blocks c _
  · rfl

theorem idle_blocks (c : RxCtx) (now32 : BitVec 32) :
    (baRecSessionIdleTimeout c now32).blocks = c.blocks := by
  unfold baRecSessionIdleTimeout
  split
  · split
    · exact refresh_blocks c
    · rfl
  · rfl

theorem closeSession_blocks (c : RxCtx) : c.closeSession.blocks = c.blocks := refresh_blocks c

theorem arrive_blocks (osHz : Nat) (c : RxCtx) (now32 : BitVec 32) :
    (ampduArrive osHz c now32).blocks = c.blocks := flush_blocks osHz c now32

theorem moveWindow_blocks (c : RxCtx) (start : Nat) (now32 : BitVec 32) :
    (c.moveWindow start now32).blocks = c.blocks := leSeq_blocks c start

theorem insertScan_addrs {mpdu : ReorderingMpdu} {xs ys : List ReorderingMpdu}
    (h : insertScan mpdu xs = some ys) : addrs ys = {mpdu.addr} + addrs xs := by
  induction xs generalizing ys with
  | nil =>
      cases h
      rfl
  | cons scan rest ih =>
      simp only [insertScan] at h
      split at h
      · obtain ⟨zs, hz, rfl⟩ := Option.map_eq_some_iff.mp h
        rw [addrs_cons, ih hz, addrs_cons, add_left_comm]
      · split at h
        · cases h
        · cases h
          rfl

/-! ## The frame that loses a block -/

/-- The frame goes to `ba_enqueue_reordering_packet`, and a block is free when
it gets there: already, or put back as the window moves. -/
def EnqueueFindsBlock (c : RxCtx) (rx : RxBlk) : Prop :=
  match ampduCase c.ent rx.Sequence with
  | .withinWin => c.pool.next ≠ []
  | .surpassesWin => c.pool.next ≠ [] ∨ ∃ mpdu ∈ c.held.head?,
      leSeqTest (winStartSeq rx.Sequence c.ent.BAWinSize) mpdu.Sequence = true
  | _ => False

theorem moveWindow_pool_ne_nil (c : RxCtx) (start : Nat) (now32 : BitVec 32) :
    (c.moveWindow start now32).pool.next ≠ []
      ↔ c.pool.next ≠ [] ∨ ∃ mpdu ∈ c.held.head?, leSeqTest start mpdu.Sequence = true := by
  have hpool : (c.moveWindow start now32).pool.next
      = (c.held.takeWhile fun mpdu => leSeqTest start mpdu.Sequence).reverse ++ c.pool.next := by
    rw [RxCtx.moveWindow, baIndicateReorderingMpdusLeSeq_eq]
    change (c.held.take _).reverse ++ c.pool.next = _
    rw [take_length_takeWhile]
  rw [hpool, ne_eq, List.append_eq_nil_iff, List.reverse_eq_nil_iff]
  cases hc : c.held with
  | nil => simp
  | cons mpdu rest =>
      by_cases hp : leSeqTest start mpdu.Sequence = true <;> simp [hp]

/-- The blocks over an enqueueing: the same, or one less. -/
theorem enqueue_blocks (osHz : Nat) (c : RxCtx) (rx : RxBlk) (nowInd : BitVec 32) :
    (¬ (rx.fRX_EAP = true ∧ c.pool.next ≠ [])
        → (baEnqueueReorderingPacket osHz c rx nowInd).blocks = c.blocks)
      ∧ (rx.fRX_EAP = true ∧ c.pool.next ≠ []
        → ∃ b, {b} + (baEnqueueReorderingPacket osHz c rx nowInd).blocks = c.blocks) := by
  by_cases hfl : FlushesInstead c rx
  · have hblocks : (baEnqueueReorderingPacket osHz c rx nowInd).blocks = c.popBlock.blocks := by
      rw [baEnqueueReorderingPacket_flush osHz nowInd hfl, indicate_blocks]
      exact leSeq_blocks c.popBlock _
    rw [hblocks]
    cases hp : c.pool.next with
    | nil =>
        refine ⟨fun _ => ?_, fun h => absurd rfl h.2⟩
        simp [RxCtx.blocks, RxCtx.popBlock, hp]
    | cons b rest =>
        refine ⟨fun h => ?_, fun _ => ⟨b.addr, ?_⟩⟩
        · exact absurd ⟨hfl.resolve_right (by simp [hp]), by simp⟩ h
        · simp [RxCtx.blocks, RxCtx.popBlock, hp]
  · obtain ⟨hE, hpool⟩ := not_or.mp hfl
    obtain ⟨b, rest, hp⟩ := List.exists_cons_of_ne_nil hpool
    refine ⟨fun _ => ?_, fun h => absurd h.1 hE⟩
    rw [baEnqueueReorderingPacket_insert osHz nowInd (by simpa using hE) hp]
    cases hins : insertScan (rx.block b.addr) c.held with
    | none => simp [RxCtx.blocks, hp, RxBlk.block]
    | some xs =>
        simp only [RxCtx.blocks, RxCtx.held, ReorderingList.ofList_next, hp, addrs_cons]
        rw [insertScan_addrs hins]
        simp only [RxBlk.block]
        abel

/-- **A data MPDU** keeps the blocks, unless an EAPOL frame finds one. -/
theorem ampduDeliver_blocks (osHz : Nat) (c : RxCtx) (rx : RxBlk) (now32 nowInd : BitVec 32) :
    (¬ (rx.fRX_EAP = true ∧ EnqueueFindsBlock c rx)
        → (ampduDeliver osHz c rx now32 nowInd).blocks = c.blocks)
      ∧ (rx.fRX_EAP = true ∧ EnqueueFindsBlock c rx
        → ∃ b, {b} + (ampduDeliver osHz c rx now32 nowInd).blocks = c.blocks) := by
  unfold ampduDeliver EnqueueFindsBlock
  cases hc : ampduCase c.ent rx.Sequence with
  | reset => exact ⟨fun _ => indicate_blocks osHz _ rx nowInd, fun h => h.2.elim⟩
  | inOrder =>
      refine ⟨fun _ => ?_, fun h => h.2.elim⟩
      exact (indicateInOrderFrom_blocks _ _).trans (indicate_blocks osHz _ rx nowInd)
  | duplicate => exact ⟨fun _ => rfl, fun h => h.2.elim⟩
  | old => exact ⟨fun _ => rfl, fun h => h.2.elim⟩
  | withinWin => exact enqueue_blocks osHz c rx nowInd
  | surpassesWin =>
      have henq := enqueue_blocks osHz (c.moveWindow (winStartSeq rx.Sequence c.ent.BAWinSize)
        now32) rx nowInd
      rw [moveWindow_blocks, moveWindow_pool_ne_nil] at henq
      refine ⟨fun h => (indicateInOrderFrom_blocks _ _).trans (henq.1 h), fun h => ?_⟩
      obtain ⟨b, hb⟩ := henq.2 h
      exact ⟨b, by rw [indicateInOrderFrom_blocks]; exact hb⟩

/-! ## Blocks of the adapter -/

/-- All blocks, wherever they are. -/
def allBlocks (ad : RtmpAdapter) : Multiset Nat :=
  addrs ad.mpdu_blk_pool.next + ∑ i, addrs (ad.BARecEntry i).list.next

theorem allBlocks_def (ad : RtmpAdapter) : allBlocks ad
    = addrs ad.mpdu_blk_pool.next + ∑ i, addrs (ad.BARecEntry i).list.next := rfl

-- a reduction of the sum would run through the 128 entries
attribute [irreducible] allBlocks

/-- **Conservation** of the `num` blocks of the pool: the counters of the free
list and of all hold-back lists add up to `num`, no block is in two places,
none is lost and none made up. -/
structure PoolConserved (num : Nat) (ad : RtmpAdapter) : Prop where
  counted : ad.mpdu_blk_pool.qlen + ∑ i, (ad.BARecEntry i).list.qlen = num
  once : (allBlocks ad).Nodup
  whole : ∀ b, b ∈ allBlocks ad ↔ b < num

theorem card_allBlocks (ad : RtmpAdapter) :
    (allBlocks ad).card = ad.mpdu_blk_pool.qlen + ∑ i, (ad.BARecEntry i).list.qlen := by
  simp only [allBlocks_def, Multiset.card_add, Multiset.card_sum, card_addrs,
    ReorderingList.qlen_eq]

theorem poolConserved_iff {num : Nat} {ad : RtmpAdapter} :
    PoolConserved num ad ↔ allBlocks ad = Multiset.range num := by
  constructor
  · rintro ⟨-, honce, hwhole⟩
    refine (Multiset.Nodup.ext honce (Multiset.nodup_range num)).mpr fun b => ?_
    rw [hwhole, Multiset.mem_range]
  · intro h
    refine ⟨?_, ?_, fun b => ?_⟩
    · rw [← card_allBlocks, h, Multiset.card_range]
    · rw [h]
      exact Multiset.nodup_range num
    · rw [h, Multiset.mem_range]

/-- The lists are the same, whatever else has changed. -/
structure SameLists (ad ad' : RtmpAdapter) : Prop where
  pool : ad'.mpdu_blk_pool = ad.mpdu_blk_pool
  held : ∀ i, (ad'.BARecEntry i).list = (ad.BARecEntry i).list

theorem SameLists.rfl' (ad : RtmpAdapter) : SameLists ad ad := ⟨rfl, fun _ => rfl⟩

theorem SameLists.trans {a b c : RtmpAdapter} (h : SameLists a b) (h' : SameLists b c) :
    SameLists a c := ⟨h'.pool.trans h.pool, fun i => (h'.held i).trans (h.held i)⟩

theorem SameLists.allBlocks_eq {ad ad' : RtmpAdapter} (h : SameLists ad ad') :
    allBlocks ad' = allBlocks ad := by
  rw [allBlocks_def, allBlocks_def, h.pool]
  simp only [h.held]

theorem SameRec.sameLists {ad ad' : RtmpAdapter} (h : SameRec ad ad') : SameLists ad ad' :=
  ⟨h.pool, fun i => by rw [h.entries]⟩

/-- An entry rewritten with the list it had. -/
theorem SameLists.update {ad ad' : RtmpAdapter} {i : Fin 128} {e : BaRecEntry}
    (hpool : ad'.mpdu_blk_pool = ad.mpdu_blk_pool)
    (hrec : ad'.BARecEntry = Function.update ad.BARecEntry i e)
    (he : e.list = (ad.BARecEntry i).list) : SameLists ad ad' := by
  refine ⟨hpool, fun j => ?_⟩
  rw [hrec]
  by_cases hj : j = i
  · subst hj
    rw [Function.update_self, he]
  · rw [Function.update_of_ne hj]

/-- Working on one entry: the blocks of its context change as they do there. -/
theorem allBlocks_putRec (ad : RtmpAdapter) (i : Fin 128) (c : RxCtx) :
    allBlocks (ad.putRec i c) + (ad.recCtx i).blocks = allBlocks ad + c.blocks := by
  have hsum := Table.sum_update (fun e : BaRecEntry => addrs e.list.next) ad.BARecEntry i c.ent
  simp only [allBlocks_def, RtmpAdapter.putRec, RxCtx.blocks, RtmpAdapter.recCtx,
    RxCtx.held] at hsum ⊢
  calc addrs c.pool.next
          + (∑ j, addrs (Function.update ad.BARecEntry i c.ent j).list.next)
        + (addrs ad.mpdu_blk_pool.next + addrs (ad.BARecEntry i).list.next)
      = addrs c.pool.next + addrs ad.mpdu_blk_pool.next
        + ((∑ j, addrs (Function.update ad.BARecEntry i c.ent j).list.next)
          + addrs (ad.BARecEntry i).list.next) := by abel
    _ = addrs c.pool.next + addrs ad.mpdu_blk_pool.next
        + ((∑ j, addrs (ad.BARecEntry j).list.next) + addrs c.ent.list.next) := by rw [hsum]
    _ = _ := by abel

theorem allBlocks_putRec_of_eq {ad : RtmpAdapter} {i : Fin 128} {c : RxCtx}
    (h : c.blocks = (ad.recCtx i).blocks) : allBlocks (ad.putRec i c) = allBlocks ad := by
  have hput := allBlocks_putRec ad i c
  rw [h] at hput
  exact add_right_cancel hput

/-! ## The table operations -/

theorem freeRec_sameLists (ad : RtmpAdapter) (idx : Fin 128) :
    SameLists ad (ad.baTableFreeRecEntry idx) := by
  unfold RtmpAdapter.baTableFreeRecEntry
  split
  · exact .rfl' ad
  · dsimp only
    split
    · exact .update rfl rfl rfl
    · exact .rfl' ad

theorem allocRec_sameLists (ad : RtmpAdapter) (idx : Fin 128) :
    SameLists ad (ad.baTableAllocRecEntry idx).1 := by
  unfold RtmpAdapter.baTableAllocRecEntry
  split
  · exact .rfl' ad
  · split
    · exact .rfl' ad
    · exact .update rfl rfl rfl

theorem setSta_sameLists (ad : RtmpAdapter) (w : Fin 32) (f : MacTableEntry → MacTableEntry) :
    SameLists ad (ad.setSta w f) := ⟨rfl, fun _ => rfl⟩

/-- A second ADDBA request for a session returns its held blocks to the pool. -/
theorem recAdd_blocks (ad : RtmpAdapter) (w : Fin 32) (f : FrameAddba) :
    allBlocks (ad.baRecSessionAdd w f).2 = allBlocks ad := by
  unfold RtmpAdapter.baRecSessionAdd
  dsimp only
  generalize hidx : (ad.Content w).recSlot f.TID = idx
  have hr : allBlocks (if idx = 0 then ad.baTableAllocRecEntry idx
      else (ad.putRec idx (baRefreshReorderingMpdus (ad.recCtx idx)), some idx, idx)).1
        = allBlocks ad := by
    split
    · exact (allocRec_sameLists ad idx).allBlocks_eq
    · exact allBlocks_putRec_of_eq (refresh_blocks _)
  generalize (if idx = 0 then ad.baTableAllocRecEntry idx
    else (ad.putRec idx (baRefreshReorderingMpdus (ad.recCtx idx)), some idx, idx)) = r at hr ⊢
  obtain ⟨ad', ent, idx'⟩ := r
  cases ent with
  | none => exact hr
  | some i =>
      have hfill : SameLists ad' { ad' with
          BARecEntry := Function.update ad'.BARecEntry i ((ad'.BARecEntry i).fill w f.TID
            (recWinSize f.BufSize ad.cfg.RxBAWinLimit) f.TimeOutValue) } :=
        .update rfl rfl rfl
      dsimp only
      exact (hfill.trans (setSta_sameLists _ w _)).allBlocks_eq.trans hr

theorem recTearDown_blocks (ad : RtmpAdapter) (wcid : Nat) (tid : Fin 16)
    (bPassive memOk : Bool) :
    allBlocks (ad.baRecSessionTearDown wcid tid bPassive memOk) = allBlocks ad := by
  unfold RtmpAdapter.baRecSessionTearDown
  split
  · dsimp only
    split
    · rfl
    · split
      · split
        · rfl
        · have hclose := allBlocks_putRec_of_eq (closeSession_blocks
            (ad.recCtx ((ad.Content ⟨wcid, by assumption⟩).recSlot tid)))
          exact (((setSta_sameLists _ _ _).trans (setSta_sameLists _ _ _)).trans
            (freeRec_sameLists _ _)).allBlocks_eq.trans hclose
      · exact (freeRec_sameLists ad _).allBlocks_eq
  · rfl

/-! ## One step -/

/-- The frame that leaks a block: an EAPOL frame, handed to the reordering of
a session, that finds a block on its way to be held back. -/
def LeaksBlock (ad : RtmpAdapter) : BaOp → Prop
  | .ampdu rx now32 _ => rx.oversize = false ∧ rx.fRX_EAP = true ∧
      ∃ h : rx.WirelessCliID < 32,
        let idx := (ad.Content ⟨rx.WirelessCliID, h⟩).recSlot rx.TID
        idx ≠ 0 ∧ EnqueueFindsBlock (ampduArrive ad.cfg.osHz (ad.recCtx idx) now32) rx
  | _ => False

/-- **A received data frame** keeps the blocks or loses one of them. -/
theorem ampdu_blocks (ad : RtmpAdapter) (rx : RxBlk) (now32 nowInd : BitVec 32) :
    (¬ LeaksBlock ad (.ampdu rx now32 nowInd)
        → allBlocks (ad.indicateAmpduPacket rx now32 nowInd) = allBlocks ad)
      ∧ (LeaksBlock ad (.ampdu rx now32 nowInd)
        → ∃ b, {b} + allBlocks (ad.indicateAmpduPacket rx now32 nowInd) = allBlocks ad) := by
  unfold RtmpAdapter.indicateAmpduPacket
  by_cases hov : rx.oversize = true
  · rw [if_pos hov]
    exact ⟨fun _ => rfl, fun h => absurd (hov.symm.trans h.1) (by decide)⟩
  · rw [if_neg hov]
    by_cases hw : rx.WirelessCliID < 32
    · rw [dif_pos hw]
      dsimp only
      generalize hidx : (ad.Content ⟨rx.WirelessCliID, hw⟩).recSlot rx.TID = idx
      by_cases h0 : idx = 0
      · rw [if_pos h0]
        refine ⟨fun _ => SameLists.allBlocks_eq ⟨rfl, fun _ => rfl⟩, fun ⟨_, _, _, hne, _⟩ => ?_⟩
        exact absurd (hidx.trans h0) hne
      · rw [if_neg h0]
        have hdel := ampduDeliver_blocks ad.cfg.osHz (ampduArrive ad.cfg.osHz (ad.recCtx idx) now32)
          rx now32 nowInd
        rw [arrive_blocks] at hdel
        constructor
        · intro h
          refine allBlocks_putRec_of_eq (hdel.1 fun hE => h ⟨by simpa using hov, hE.1, hw, ?_⟩)
          simp only [hidx]
          exact ⟨h0, hE.2⟩
        · rintro ⟨_, hE, _, _, hfind⟩
          simp only [hidx] at hfind
          obtain ⟨b, hb⟩ := hdel.2 ⟨hE, hfind⟩
          have hput := allBlocks_putRec ad idx
            (ampduAtEntry ad.cfg.osHz (ad.recCtx idx) rx now32 nowInd)
          rw [← hb, ← add_assoc] at hput
          exact ⟨b, (add_comm _ _).trans (add_right_cancel hput)⟩
    · rw [dif_neg hw]
      exact ⟨fun _ => rfl, fun ⟨_, _, h, _⟩ => absurd h hw⟩

theorem bar_allBlocks (ad : RtmpAdapter) (wcid : Nat) (frameOk : Bool) (tid : Fin 16)
    (startSeq : Fin 4096) :
    allBlocks (ad.cntlEnqueueForRecv wcid frameOk tid startSeq) = allBlocks ad := by
  unfold RtmpAdapter.cntlEnqueueForRecv
  split
  · split
    · exact allBlocks_putRec_of_eq (bar_blocks _ startSeq)
    · rfl
  · rfl

theorem legacy_allBlocks (ad : RtmpAdapter) (wcid : Nat) (tid : Fin 16) (now32 : BitVec 32) :
    allBlocks (ad.legacyFlush wcid tid now32) = allBlocks ad := by
  unfold RtmpAdapter.legacyFlush
  split
  · split
    · rfl
    · dsimp only
      split
      · exact allBlocks_putRec_of_eq (flush_blocks _ _ now32)
      · rfl
  · rfl

theorem addBaReq_allBlocks (ad : RtmpAdapter) (wcid : Nat) (f : FrameAddba) :
    allBlocks (ad.peerAddBaReqAction wcid f) = allBlocks ad := by
  unfold RtmpAdapter.peerAddBaReqAction
  split
  · split
    · exact recAdd_blocks ad _ f
    · rfl
  · rfl

theorem delBa_allBlocks (ad : RtmpAdapter) (wcid : Nat) (lenOk initiator : Bool)
    (tid : Fin 16) :
    allBlocks (ad.peerDelBaAction wcid lenOk initiator tid) = allBlocks ad := by
  unfold RtmpAdapter.peerDelBaAction
  split
  · split
    · exact recTearDown_blocks ad wcid tid true true
    · exact (oriTearDown_sameRec wcid tid true true).sameLists.allBlocks_eq
  · rfl

/-- **One step** keeps the blocks, a leaking frame apart. -/
theorem baStep_blocks {ad : RtmpAdapter} {op : BaOp} (h : ¬ LeaksBlock ad op) :
    allBlocks (baStep ad op) = allBlocks ad := by
  cases op with
  | oriSetUp w tid timeOut isForced =>
      exact (oriSetUp_sameRec w tid timeOut isForced).sameLists.allBlocks_eq
  | oriTearDown wcid tid bPassive memOk =>
      exact (oriTearDown_sameRec wcid _ bPassive memOk).sameLists.allBlocks_eq
  | oriTimeout i busy scan => exact (oriTimeout_sameRec i busy scan).sameLists.allBlocks_eq
  | recTearDown wcid tid bPassive memOk => exact recTearDown_blocks ad wcid _ bPassive memOk
  | addBaReq wcid f => exact addBaReq_allBlocks ad wcid f
  | addBaRsp wcid f memOk => exact (addBaRsp_sameRec wcid f memOk).sameLists.allBlocks_eq
  | delBa wcid lenOk initiator tid => exact delBa_allBlocks ad wcid lenOk initiator tid
  | ampdu rx now32 nowInd => exact (ampdu_blocks ad rx now32 nowInd).1 h
  | bar wcid frameOk tid startSeq => exact bar_allBlocks ad wcid frameOk tid startSeq
  | legacy wcid tid now32 => exact legacy_allBlocks ad wcid tid now32
  | idleTimeout i now32 => exact allBlocks_putRec_of_eq (idle_blocks _ now32)

/-- A leaking frame takes one block away. -/
theorem baStep_leaks {ad : RtmpAdapter} {op : BaOp} (h : LeaksBlock ad op) :
    ∃ b, {b} + allBlocks (baStep ad op) = allBlocks ad := by
  cases op with
  | ampdu rx now32 nowInd => exact (ampdu_blocks ad rx now32 nowInd).2 h
  | _ => exact h.elim

/-! ## Runs -/

theorem baReorderingResourceInit_addrs (num : Nat) :
    addrs (baReorderingResourceInit num).next = Multiset.range num := by
  unfold baReorderingResourceInit
  induction num with
  | zero => rfl
  | succ n ih =>
      rw [List.range_succ, List.foldl_append, Multiset.range_succ, ← ih]
      rfl

theorem baStart_blocks (cfg : BaCfg) (caps : Fin 32 → StaCaps) (num : Nat) :
    allBlocks (baStart cfg caps num) = Multiset.range num := by
  rw [allBlocks_def]
  change addrs (baReorderingResourceInit num).next + ∑ _ : Fin 128, addrs [] = _
  rw [baReorderingResourceInit_addrs, addrs_nil, Finset.sum_const_zero, add_zero]

/-- **Blocks are conserved along a run** exactly when no EAPOL frame of it
finds a free block on its way into a hold-back list. -/
theorem pool_conserved_iff (cfg : BaCfg) (caps : Fin 32 → StaCaps) (num : Nat)
    (ops : List BaOp) :
    Run.Always baStep (PoolConserved num) (baStart cfg caps num) ops
      ↔ Run.Along baStep (fun ad op => ¬ LeaksBlock ad op) (baStart cfg caps num) ops := by
  refine Run.always_iff_along (fun ad op had => ⟨fun hnext hleak => ?_, fun hno => ?_⟩) ?_
  · obtain ⟨b, hb⟩ := baStep_leaks hleak
    have hcard := congrArg Multiset.card hb
    rw [poolConserved_iff] at had hnext
    rw [had, hnext, Multiset.card_add, Multiset.card_singleton] at hcard
    omega
  · rw [poolConserved_iff, baStep_blocks hno, ← poolConserved_iff]
    exact had
  · exact poolConserved_iff.mpr (baStart_blocks cfg caps num)

/-- A session with one block in the pool: frame 0 starts it, and the EAPOL
frame 2 takes the block. -/
theorem pool_not_conserved :
    ¬ ∀ (cfg : BaCfg) (caps : Fin 32 → StaCaps) (num : Nat) (ops : List BaOp),
        Run.Always baStep (PoolConserved num) (baStart cfg caps num) ops := by
  intro h
  have hlast := (h plainCfg (fun _ => htSta) 1 [.addBaReq 1 (addbaFor 0),
    .ampdu (frameOf 0 false) 0 0, .ampdu (frameOf 2 true) 0 0]).last
  have hcount := hlast.counted
  revert hcount
  decide +kernel

end ExtDrv.Rt3370
