import ExtDrv.Rt3370.Reorder
import Mathlib.Data.List.TakeWhile
import Mathlib.Data.Nat.Bitwise

/-!
# The indication loops

What the loops over a hold-back list do, said once: each hands up the first
`k` held frames, in order, and puts their blocks back (`RxCtx.release`). Only
the number `k` differs, and what becomes of `LastIndSeq`. Nothing above this
module unfolds a loop.
-/

namespace ExtDrv.Rt3370

open ExtDrv.Serial

/-! ## The comparisons, as distances -/

theorem bitSet_iff (x : BitVec 32) : ((x &&& 0x800#32) != 0#32) = true ↔ x.toNat / 2048 % 2 = 1 := by
  have hnat : (x &&& 0x800#32).toNat = (x.toNat.testBit 11).toNat * 2 ^ 11 := by
    rw [BitVec.toNat_and]
    exact Nat.and_two_pow x.toNat 11
  rw [bne_iff_ne, ne_eq, ← BitVec.toNat_inj, hnat, Nat.testBit_eq_decide_div_mod_eq]
  by_cases h : x.toNat / 2 ^ 11 % 2 = 1 <;> simp

theorem seqSmaller_iff (a b : Nat) : seqSmaller a b = true ↔ 2048 ≤ fwd 4096 b a := by
  unfold seqSmaller fwd
  rw [bitSet_iff, BitVec.toNat_sub, BitVec.toNat_ofNat, BitVec.toNat_ofNat]
  omega

theorem seqStepone_iff {a b : Nat} (ha : a < 4096) (hb : b < 4096) :
    seqStepone a b = true ↔ fwd 4096 b a = 1 := by
  have hmask : (b + 1) &&& maxSeq = (b + 1) % 4096 := Nat.and_two_pow_sub_one_eq_mod (b + 1) 12
  rw [seqStepone, hmask, beq_iff_eq]
  exact eq_ahead_iff hb ha (by decide)

/-- `WinStartSeq` lies one window before the frame. -/
theorem winStartSeq_eq {s w : Nat} (hs : s < 4096) (hw : w ≤ 255) :
    winStartSeq s w = (s + 4096 - w) % 4096 := by
  have hmask : ∀ n, n &&& 0xFFF = n % 4096 := fun n => Nat.and_two_pow_sub_one_eq_mod n 12
  simp only [winStartSeq, maxSeq, hmask]
  split <;> omega

theorem winStartSeq_lt {s w : Nat} (hs : s < 4096) (hw : w ≤ 255) : winStartSeq s w < 4096 := by
  rw [winStartSeq_eq hs hw]
  exact Nat.mod_lt _ (by decide)

theorem fwd_winStartSeq {s w : Nat} (hs : s < 4096) (hw : w ≤ 255) :
    fwd 4096 (winStartSeq s w) s = w := by
  rw [winStartSeq_eq hs hw]
  unfold fwd
  omega

/-! ## Releasing the first frames -/

/-- The blocks linked in the entry. -/
abbrev RxCtx.held (c : RxCtx) : List ReorderingMpdu := c.ent.list.next

/-- The sequence numbers held, in list order. -/
def heldSeqs (xs : List ReorderingMpdu) : List Nat := xs.map fun mpdu => (mpdu.Sequence : Nat)

/-- Hand up the first `k` held frames and put their blocks back. -/
def RxCtx.release (c : RxCtx) (k : Nat) : RxCtx :=
  { pool := .ofList ((c.held.take k).reverse ++ c.pool.next),
    ent := { c.ent with list := .ofList (c.held.drop k) },
    up := c.up ++ (c.held.take k).map ReorderingMpdu.indicated }

@[simp] theorem RxCtx.setLastIndSeq_held (c : RxCtx) (s : Nat) :
    (c.setLastIndSeq s).held = c.held := rfl

@[simp] theorem RxCtx.release_held (c : RxCtx) (k : Nat) :
    (c.release k).held = c.held.drop k := rfl

theorem RxCtx.release_zero (c : RxCtx) : c.release 0 = c := by
  obtain ⟨pool, ent, up⟩ := c
  simp [RxCtx.release]

theorem RxCtx.indicateHead_cons {c : RxCtx} {mpdu : ReorderingMpdu} {rest : List ReorderingMpdu}
    (h : c.held = mpdu :: rest) : c.indicateHead = c.release 1 := by
  simp only [RxCtx.indicateHead, baDequeue_cons h, baMpduBlkFree, baEnqueue_eq, RxCtx.release, h]
  rfl

theorem RxCtx.indicateHead_held {c : RxCtx} {mpdu : ReorderingMpdu} {rest : List ReorderingMpdu}
    (h : c.held = mpdu :: rest) : c.indicateHead.held = rest := by
  rw [RxCtx.indicateHead_cons h, RxCtx.release_held, h]
  rfl

theorem RxCtx.release_succ {c : RxCtx} {mpdu : ReorderingMpdu} {rest : List ReorderingMpdu}
    (h : c.held = mpdu :: rest) (k : Nat) : c.indicateHead.release k = c.release (k + 1) := by
  obtain ⟨pool, ent, up⟩ := c
  rw [RxCtx.indicateHead_cons h]
  change ent.list.next = mpdu :: rest at h
  simp [RxCtx.release, RxCtx.held, h]

@[simp] theorem RxCtx.release_pool (c : RxCtx) (k : Nat) :
    (c.release k).pool.next = (c.held.take k).reverse ++ c.pool.next := rfl

@[simp] theorem RxCtx.release_up (c : RxCtx) (k : Nat) :
    (c.release k).up = c.up ++ (c.held.take k).map ReorderingMpdu.indicated := rfl

@[simp] theorem RxCtx.release_LastIndSeq (c : RxCtx) (k : Nat) :
    (c.release k).ent.LastIndSeq = c.ent.LastIndSeq := rfl

@[simp] theorem RxCtx.release_LastIndSeqAtTimer (c : RxCtx) (k : Nat) :
    (c.release k).ent.LastIndSeqAtTimer = c.ent.LastIndSeqAtTimer := rfl

@[simp] theorem RxCtx.release_setLastIndSeq (c : RxCtx) (k s : Nat) :
    (c.setLastIndSeq s).release k = (c.release k).setLastIndSeq s := rfl

@[simp] theorem RxCtx.setLastIndSeq_twice (c : RxCtx) (s t : Nat) :
    (c.setLastIndSeq s).setLastIndSeq t = c.setLastIndSeq t := rfl

/-! ## What each loop releases -/

theorem leSeqLoop_eq (s : Nat) :
    ∀ (n : Nat) (c : RxCtx), c.held.length ≤ n →
      leSeqLoop s n c
        = c.release (c.held.takeWhile fun mpdu => leSeqTest s mpdu.Sequence).length := by
  intro n
  induction n with
  | zero =>
      intro c hn
      have hnil : c.held = [] := List.length_eq_zero_iff.mp (Nat.le_zero.mp hn)
      simp [leSeqLoop, hnil, RxCtx.release_zero]
  | succ n ih =>
      intro c hn
      cases hc : c.held with
      | nil => simp [leSeqLoop, baReorderingMpduProbe, hc, RxCtx.release_zero]
      | cons mpdu rest =>
          simp only [leSeqLoop, baReorderingMpduProbe, hc, List.head?_cons]
          -- the loop stops at the first frame that fails the test
          by_cases hp : leSeqTest s mpdu.Sequence = true
          · have hrest : c.indicateHead.held = rest := by
              rw [RxCtx.indicateHead_cons hc]
              simp [hc]
            rw [if_pos hp, ih c.indicateHead (by rw [hrest]; simpa [hc] using hn), hrest,
              RxCtx.release_succ hc, List.takeWhile_cons, if_pos hp, List.length_cons]
          · rw [if_neg hp, List.takeWhile_cons, if_neg hp, List.length_nil, RxCtx.release_zero]

/-- `ba_indicate_reordering_mpdus_le_seq` releases the held prefix that passes
its test. -/
theorem baIndicateReorderingMpdusLeSeq_eq (c : RxCtx) (s : Nat) :
    baIndicateReorderingMpdusLeSeq c s
      = c.release (c.held.takeWhile fun mpdu => leSeqTest s mpdu.Sequence).length :=
  leSeqLoop_eq s _ c c.ent.list.qlen_eq.symm.le

theorem refreshLoop_eq (s : Nat) :
    ∀ (n : Nat) (c : RxCtx), c.held.length ≤ n →
      (refreshLoop n c).setLastIndSeq s = (c.release c.held.length).setLastIndSeq s := by
  intro n
  induction n with
  | zero =>
      intro c hn
      have hnil : c.held = [] := List.length_eq_zero_iff.mp (Nat.le_zero.mp hn)
      simp [refreshLoop, hnil, RxCtx.release_zero]
  | succ n ih =>
      intro c hn
      cases hc : c.held with
      | nil => simp [refreshLoop, baReorderingMpduProbe, hc, RxCtx.release_zero]
      | cons mpdu rest =>
          have hrest := RxCtx.indicateHead_held hc
          simp only [refreshLoop, baReorderingMpduProbe, hc, List.head?_cons]
          rw [ih _ (by rw [RxCtx.setLastIndSeq_held, hrest]; simpa [hc] using hn),
            RxCtx.setLastIndSeq_held, RxCtx.release_setLastIndSeq, RxCtx.setLastIndSeq_twice, hrest,
            RxCtx.release_succ hc, List.length_cons]

/-- `ba_refresh_reordering_mpdus` releases everything and forgets the last
sequence number. -/
theorem baRefreshReorderingMpdus_eq (c : RxCtx) :
    baRefreshReorderingMpdus c = (c.release c.held.length).setLastIndSeq resetRcvSeq :=
  refreshLoop_eq resetRcvSeq _ c c.ent.list.qlen_eq.symm.le

/-- The held frames that follow `startSeq` without a gap. -/
def inOrderRun : Nat → List ReorderingMpdu → List ReorderingMpdu
  | _, [] => []
  | startSeq, mpdu :: rest =>
      if seqStepone mpdu.Sequence startSeq then mpdu :: inOrderRun mpdu.Sequence rest else []

/-- The last sequence number of a run, `last` for none. -/
def lastSeqOf (last : Nat) : List ReorderingMpdu → Nat
  | [] => last
  | mpdu :: rest => lastSeqOf mpdu.Sequence rest

theorem inOrderLoop_eq :
    ∀ (n : Nat) (c : RxCtx) (startSeq last : Nat), c.held.length ≤ n →
      inOrderLoop n c startSeq last
        = (c.release (inOrderRun startSeq c.held).length,
            lastSeqOf last (inOrderRun startSeq c.held)) := by
  intro n
  induction n with
  | zero =>
      intro c startSeq last hn
      have hnil : c.held = [] := List.length_eq_zero_iff.mp (Nat.le_zero.mp hn)
      simp [inOrderLoop, hnil, inOrderRun, lastSeqOf, RxCtx.release_zero]
  | succ n ih =>
      intro c startSeq last hn
      cases hc : c.held with
      | nil =>
          simp [inOrderLoop, baReorderingMpduProbe, hc, inOrderRun, lastSeqOf, RxCtx.release_zero]
      | cons mpdu rest =>
          simp only [inOrderLoop, baReorderingMpduProbe, hc, List.head?_cons, inOrderRun]
          by_cases hp : seqStepone mpdu.Sequence startSeq = true
          · have hrest : c.indicateHead.held = rest := by
              rw [RxCtx.indicateHead_cons hc]
              simp [hc]
            simp only [hp, Bool.not_true, Bool.false_eq_true, if_false, if_true]
            rw [ih c.indicateHead _ _ (by rw [hrest]; simpa [hc] using hn), hrest,
              RxCtx.release_succ hc, List.length_cons, lastSeqOf]
          · simp only [hp, Bool.not_false, if_true, Bool.false_eq_true, if_false, lastSeqOf,
              List.length_nil, RxCtx.release_zero]

theorem lastSeqOf_lt {last : Nat} (h : last < 4096) (xs : List ReorderingMpdu) :
    lastSeqOf last xs < 4096 := by
  induction xs generalizing last with
  | nil => exact h
  | cons mpdu rest ih => exact ih mpdu.Sequence.isLt

/-- `ba_indicate_reordering_mpdus_in_order` and its caller's update of
`LastIndSeq`: release the frames that follow without a gap, and move up to the
last of them. -/
theorem indicateInOrderFrom_eq (c : RxCtx) (startSeq : Nat) :
    indicateInOrderFrom c startSeq
      = (c.release (inOrderRun startSeq c.held).length).setLastIndSeq
          (lastSeqOf c.ent.LastIndSeq (inOrderRun startSeq c.held)) := by
  unfold indicateInOrderFrom baIndicateReorderingMpdusInOrder
  rw [inOrderLoop_eq _ c startSeq resetRcvSeq c.ent.list.qlen_eq.symm.le]
  cases hrun : inOrderRun startSeq c.held with
  | nil =>
      simp only [lastSeqOf, List.length_nil, RxCtx.release_zero, ne_eq, not_true_eq_false, if_false]
      rfl
  | cons mpdu rest =>
      have hlt : lastSeqOf resetRcvSeq (mpdu :: rest) < 4096 :=
        lastSeqOf_lt mpdu.Sequence.isLt rest
      simp only [ne_eq]
      -- the last number of a run is never the reset value
      rw [if_pos (show ¬ lastSeqOf resetRcvSeq (mpdu :: rest) = resetRcvSeq by
        simp only [resetRcvSeq] at hlt ⊢; omega)]
      rfl

theorem inOrderRun_le (startSeq : Nat) (xs : List ReorderingMpdu) :
    inOrderRun startSeq xs <+: xs := by
  induction xs generalizing startSeq with
  | nil => exact List.prefix_rfl
  | cons mpdu rest ih =>
      simp only [inOrderRun]
      split
      · exact List.prefix_cons_inj mpdu |>.mpr (ih _)
      · exact List.nil_prefix

theorem inOrderRun_take (startSeq : Nat) (xs : List ReorderingMpdu) :
    xs.take (inOrderRun startSeq xs).length = inOrderRun startSeq xs :=
  (List.prefix_iff_eq_take.mp (inOrderRun_le startSeq xs)).symm

theorem take_length_takeWhile {α : Type*} (p : α → Bool) (xs : List α) :
    xs.take (xs.takeWhile p).length = xs.takeWhile p :=
  (List.prefix_iff_eq_take.mp (List.takeWhile_prefix p)).symm

theorem drop_length_takeWhile {α : Type*} (p : α → Bool) (xs : List α) :
    xs.drop (xs.takeWhile p).length = xs.dropWhile p := by
  induction xs with
  | nil => rfl
  | cons x xs ih => by_cases hx : p x = true <;> simp [hx, ih]

/-! ## Enqueueing -/

/-- The block the frame is held in. -/
def RxBlk.block (rx : RxBlk) (addr : Nat) : ReorderingMpdu :=
  { addr := addr, Sequence := rx.Sequence, OpMode := rx.OpMode, bAMSDU := rx.fRX_AMSDU,
    pPacket := rx.pRxPacket }

/-- The free list without its first block. -/
def RxCtx.popBlock (c : RxCtx) : RxCtx := { c with pool := .ofList c.pool.next.tail }

/-- `ba_enqueue_reordering_packet` gives up holding the frame back. -/
def FlushesInstead (c : RxCtx) (rx : RxBlk) : Prop := rx.fRX_EAP = true ∨ c.pool.next = []

instance (c : RxCtx) (rx : RxBlk) : Decidable (FlushesInstead c rx) :=
  inferInstanceAs (Decidable (_ ∨ _))

theorem baMpduBlkAlloc_nil {l : ReorderingList} (h : l.next = []) : baMpduBlkAlloc l = none := by
  simp [baMpduBlkAlloc, baDequeue_nil h]

theorem baMpduBlkAlloc_cons {l : ReorderingList} {b : ReorderingMpdu} {rest : List ReorderingMpdu}
    (h : l.next = b :: rest) :
    baMpduBlkAlloc l = some (⟨b.addr, 0, 0, false, 0⟩, .ofList rest) := by
  simp [baMpduBlkAlloc, baDequeue_cons h]

theorem baEnqueueReorderingPacket_flush (osHz : Nat) {c : RxCtx} {rx : RxBlk}
    (nowInd : BitVec 32) (h : FlushesInstead c rx) :
    baEnqueueReorderingPacket osHz c rx nowInd
      = indicateLegacyOrAmsdu osHz
          ((baIndicateReorderingMpdusLeSeq c.popBlock rx.Sequence).setLastIndSeq rx.Sequence)
          rx nowInd := by
  obtain ⟨pool, ent, up⟩ := c
  cases hp : pool.next with
  -- the failed allocation left the pool as it was
  | nil =>
      have hpool : (.ofList pool.next.tail : ReorderingList) = pool :=
        ReorderingList.ext' (by simp [hp])
      simp only [baEnqueueReorderingPacket, baMpduBlkAlloc_nil hp, RxCtx.popBlock, hpool]
  -- an EAP frame takes a block first, which nothing gives back
  | cons b rest =>
      have hE : rx.fRX_EAP = true := h.resolve_right (by simp [hp])
      simp only [baEnqueueReorderingPacket, baMpduBlkAlloc_cons hp, RxCtx.popBlock, hp, hE,
        List.tail_cons]

theorem baEnqueueReorderingPacket_insert (osHz : Nat) {c : RxCtx} {rx : RxBlk}
    (nowInd : BitVec 32) {b : ReorderingMpdu} {rest : List ReorderingMpdu}
    (hE : rx.fRX_EAP = false) (hp : c.pool.next = b :: rest) :
    baEnqueueReorderingPacket osHz c rx nowInd
      = match insertScan (rx.block b.addr) c.held with
        | none => { c with pool := .ofList (rx.block b.addr :: rest) }
        | some xs => { c with pool := .ofList rest, ent := { c.ent with list := .ofList xs } } := by
  simp only [baEnqueueReorderingPacket, baMpduBlkAlloc_cons hp, hE,
    baReorderingMpduInsertsorted_eq, baMpduBlkFree, baEnqueue_eq, RxBlk.block]
  cases insertScan _ c.held <;> rfl

/-! ## What the reordering leaves alone -/

/-- The terms of the session: set by the session add, read by the reordering. -/
def BaRecEntry.terms (ent : BaRecEntry) : Fin 32 × Fin 16 × Nat × Nat × RecBlockackStatus :=
  (ent.Wcid, ent.TID, ent.BAWinSize, ent.TimeOutValue, ent.REC_BA_Status)

theorem BaRecEntry.terms_eq_iff {e e' : BaRecEntry} :
    e.terms = e'.terms ↔ e.Wcid = e'.Wcid ∧ e.TID = e'.TID ∧ e.BAWinSize = e'.BAWinSize
      ∧ e.TimeOutValue = e'.TimeOutValue ∧ e.REC_BA_Status = e'.REC_BA_Status := by
  simp [BaRecEntry.terms]

@[simp] theorem release_terms (c : RxCtx) (k : Nat) :
    (c.release k).ent.terms = c.ent.terms := rfl

@[simp] theorem setLastIndSeq_terms (c : RxCtx) (s : Nat) :
    (c.setLastIndSeq s).ent.terms = c.ent.terms := rfl

@[simp] theorem setLastIndSeqAtTimer_terms (c : RxCtx) (now : BitVec 32) :
    (c.setLastIndSeqAtTimer now).ent.terms = c.ent.terms := rfl

@[simp] theorem leSeq_terms (c : RxCtx) (s : Nat) :
    (baIndicateReorderingMpdusLeSeq c s).ent.terms = c.ent.terms := by
  rw [baIndicateReorderingMpdusLeSeq_eq, release_terms]

@[simp] theorem refresh_terms (c : RxCtx) :
    (baRefreshReorderingMpdus c).ent.terms = c.ent.terms := by
  rw [baRefreshReorderingMpdus_eq, setLastIndSeq_terms, release_terms]

@[simp] theorem indicateInOrderFrom_terms (c : RxCtx) (s : Nat) :
    (indicateInOrderFrom c s).ent.terms = c.ent.terms := by
  rw [indicateInOrderFrom_eq, setLastIndSeq_terms, release_terms]

@[simp] theorem flush_terms (osHz : Nat) (c : RxCtx) (now32 : BitVec 32) :
    (baFlushReorderingTimeoutMpdus osHz c now32).ent.terms = c.ent.terms := by
  unfold baFlushReorderingTimeoutMpdus
  split
  · rfl
  · split
    · simp
    · split <;> simp

@[simp] theorem indicateLegacyOrAmsdu_terms (osHz : Nat) (c : RxCtx) (rx : RxBlk)
    (nowInd : BitVec 32) : (indicateLegacyOrAmsdu osHz c rx nowInd).ent.terms = c.ent.terms := by
  unfold indicateLegacyOrAmsdu RxCtx.announce
  split
  · rfl
  · split
    · rfl
    · split <;> simp

@[simp] theorem enqueue_terms (osHz : Nat) (c : RxCtx) (rx : RxBlk) (nowInd : BitVec 32) :
    (baEnqueueReorderingPacket osHz c rx nowInd).ent.terms = c.ent.terms := by
  by_cases h : FlushesInstead c rx
  · rw [baEnqueueReorderingPacket_flush osHz nowInd h]
    simp [RxCtx.popBlock]
  · obtain ⟨hE, hpool⟩ := not_or.mp h
    obtain ⟨b, rest, hp⟩ := List.exists_cons_of_ne_nil hpool
    rw [baEnqueueReorderingPacket_insert osHz nowInd (by simpa using hE) hp]
    split <;> rfl

theorem ampduDeliver_terms (osHz : Nat) (c : RxCtx) (rx : RxBlk) (now32 nowInd : BitVec 32) :
    (ampduDeliver osHz c rx now32 nowInd).ent.terms = c.ent.terms := by
  unfold ampduDeliver
  split <;> simp

@[simp] theorem ampduAtEntry_terms (osHz : Nat) (c : RxCtx) (rx : RxBlk)
    (now32 nowInd : BitVec 32) :
    (ampduAtEntry osHz c rx now32 nowInd).ent.terms = c.ent.terms := by
  simp [ampduAtEntry, ampduArrive, ampduDeliver_terms]

@[simp] theorem barAtEntry_terms (c : RxCtx) (s : Fin 4096) :
    (barAtEntry c s).ent.terms = c.ent.terms := by
  unfold barAtEntry
  split <;> simp

@[simp] theorem idleTimeout_terms (c : RxCtx) (now32 : BitVec 32) :
    (baRecSessionIdleTimeout c now32).ent.terms = c.ent.terms := by
  unfold baRecSessionIdleTimeout
  split
  · split <;> simp
  · rfl

end ExtDrv.Rt3370
