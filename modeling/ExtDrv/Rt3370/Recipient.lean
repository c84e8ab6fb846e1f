import ExtDrv.Lib.Run
import ExtDrv.Rt3370.BaTable
import ExtDrv.Rt3370.Window

/-!
# The hold-back lists of the recipient entries

All recipient entries under everything that can happen to them: sessions added
and torn down, data MPDUs, BlockAckReqs, the time-out flush and the idle timer,
whatever station and TID lead to them.

The list invariant holds throughout such a run exactly when no step strands a
held frame. A frame of the window that is handed up in place of being held may
strand its successor: that branch of `ba_enqueue_reordering_packet` has no
in-order pass behind it. The other two ways are those of a TID from 8 on, which
leads to the entries by the slot array behind.
-/

namespace ExtDrv.Rt3370

open ExtDrv.Serial

/-! ## The list invariant -/

/-- The hold-back list of an entry: sorted seen from `LastIndSeq`, no sequence
number twice, counted by `qlen`, no longer than the window, inside
(`LastIndSeq` + 1, `LastIndSeq` + `BAWinSize`], and empty before the first
frame. -/
structure ListInv (ent : BaRecEntry) : Prop where
  sorted : (heldSeqs ent.list.next).Pairwise fun s t =>
    fwd 4096 ent.LastIndSeq s < fwd 4096 ent.LastIndSeq t
  nodup : (heldSeqs ent.list.next).Nodup
  counted : ent.list.qlen = ent.list.next.length
  fits : ent.list.qlen ≤ ent.BAWinSize
  inWindow : ∀ s ∈ heldSeqs ent.list.next,
    1 < fwd 4096 ent.LastIndSeq s ∧ fwd 4096 ent.LastIndSeq s ≤ ent.BAWinSize
  resetEmpty : ent.LastIndSeq = resetRcvSeq → ent.list.next = []

/-- What every run keeps besides: the window size is a `UCHAR`, and `LastIndSeq`
is a sequence number or the reset value. -/
structure EntryOk (ent : BaRecEntry) : Prop where
  lastOk : ent.LastIndSeq < 4096 ∨ ent.LastIndSeq = resetRcvSeq
  sizeLe : ent.BAWinSize ≤ 255

theorem heldSeqs_lt (xs : List ReorderingMpdu) : ∀ s ∈ heldSeqs xs, s < 4096 := by
  intro s hs
  obtain ⟨mpdu, _, rfl⟩ := List.mem_map.mp hs
  exact mpdu.Sequence.isLt

/-- The list invariant is the window from 2 ahead on. -/
theorem listInv_iff {ent : BaRecEntry}
    (hlast : ent.LastIndSeq < 4096 ∨ ent.LastIndSeq = resetRcvSeq) :
    ListInv ent ↔ HeldFrom 2 ent := by
  constructor
  · intro h
    rcases hlast with hl | hl
    · exact .inr ⟨hl, h.sorted, fun s hs => (h.inWindow s hs).1, fun s hs => (h.inWindow s hs).2,
        heldSeqs_lt _⟩
    · exact .inl ⟨hl, h.resetEmpty hl⟩
  · rintro (⟨hl, hn⟩ | ⟨hl, hwin⟩)
    · have hq : ent.list.qlen = 0 := by rw [ent.list.qlen_eq, hn]; rfl
      constructor
      · rw [hn]
        exact List.Pairwise.nil
      · rw [hn]
        exact List.nodup_nil
      · exact ent.list.qlen_eq
      · omega
      · rw [hn]
        intro s hs
        cases hs
      · intro _
        exact hn
    · have hlen := hwin.length_le
      rw [heldSeqs, List.length_map, ← ent.list.qlen_eq] at hlen
      refine ⟨hwin.sorted, ?_, ent.list.qlen_eq, by omega,
        fun s hs => ⟨hwin.low s hs, hwin.high s hs⟩, ?_⟩
      · exact hwin.sorted.imp fun hlt heq => absurd hlt (by rw [heq]; exact lt_irrefl _)
      · intro hr
        simp only [resetRcvSeq] at hr
        omega

theorem HeldFrom.lastOk {lo : Nat} {ent : BaRecEntry} (h : HeldFrom lo ent) :
    ent.LastIndSeq < 4096 ∨ ent.LastIndSeq = resetRcvSeq := by
  rcases h with ⟨hl, _⟩ | ⟨hl, _⟩
  · exact .inr hl
  · exact .inl hl

theorem EntryOk.of_held {lo : Nat} {ent ent' : BaRecEntry} (hok : EntryOk ent)
    (hterms : ent'.terms = ent.terms) (h : HeldFrom lo ent') : EntryOk ent' := by
  obtain ⟨_, _, hsize, _, _⟩ := BaRecEntry.terms_eq_iff.mp hterms
  exact ⟨h.lastOk, hsize ▸ hok.sizeLe⟩

/-! ## The branches that strand a held frame -/

/-- The MPDU `rx` falls within the window and is handed up in place of being
held (an EAPOL frame, or no free block) while the frame after it is held, and
no time-out flush runs as it goes up. -/
def StrandsNext (osHz : Nat) (c : RxCtx) (rx : RxBlk) (now32 nowInd : BitVec 32) : Prop :=
  let c := ampduArrive osHz c now32
  ampduCase c.ent rx.Sequence = .withinWin ∧ FlushesInstead c rx
    ∧ ((rx.Sequence : Nat) + 1) % 4096 ∈ heldSeqs c.held
    ∧ (rx.fRX_AMSDU = true ∨ rx.fRX_EAP = true
        ∨ rtmpTimeAfter nowInd (now32 + reorderingPacketTimeout osHz) = false)

/-- Case V up to the enqueueing: hand up what falls out of the window, and move
it. -/
def RxCtx.moveWindow (c : RxCtx) (start : Nat) (now32 : BitVec 32) : RxCtx :=
  ((baIndicateReorderingMpdusLeSeq c start).setLastIndSeq start).setLastIndSeqAtTimer now32

/-- The MPDU `rx` surpasses the window of an entry that has none, and is held: as
`LastIndSeq` is moved up to it, it waits for itself. -/
def StrandsItself (osHz : Nat) (c : RxCtx) (rx : RxBlk) (now32 : BitVec 32) : Prop :=
  let c := ampduArrive osHz c now32
  ampduCase c.ent rx.Sequence = .surpassesWin ∧ c.ent.BAWinSize = 0
    ∧ ¬ FlushesInstead (c.moveWindow (winStartSeq rx.Sequence c.ent.BAWinSize) now32) rx

/-- A step that strands a held frame: an MPDU that strands one at the entry it
is led to, or an ADDBA request that gets an entry, free or not, that still holds
frames. -/
def Strands (ad : RtmpAdapter) : BaOp → Prop
  | .ampdu rx now32 nowInd => rx.oversize = false ∧ ∃ h : rx.WirelessCliID < 32,
      let idx := (ad.Content ⟨rx.WirelessCliID, h⟩).recSlot rx.TID
      idx ≠ 0 ∧ (StrandsNext ad.cfg.osHz (ad.recCtx idx) rx now32 nowInd
        ∨ StrandsItself ad.cfg.osHz (ad.recCtx idx) rx now32)
  | .addBaReq wcid f => (f.sane && !ad.cfg.bBADecline) = true ∧ ∃ h : wcid < 32,
      (ad.Content ⟨wcid, h⟩).isHtSta = true ∧ (ad.Content ⟨wcid, h⟩).recSlot f.TID = 0
        ∧ ∃ i, (ad.baTableAllocRecEntry 0).2.1 = some i ∧ (ad.BARecEntry i).list.next ≠ []
  | _ => False

/-- The window from 1 ahead on is the one from 2 on without the next number. -/
theorem heldFrom_two_iff {ent : BaRecEntry} (hl : ent.LastIndSeq < 4096) (h : HeldFrom 1 ent) :
    HeldFrom 2 ent ↔ (ent.LastIndSeq + 1) % 4096 ∉ heldSeqs ent.list.next := by
  have hwin := h.window_of_lt hl
  have hone : fwd 4096 ent.LastIndSeq ((ent.LastIndSeq + 1) % 4096) = 1 :=
    fwd_ahead hl (by decide)
  constructor
  · intro h2 hmem
    have := (h2.window_of_lt hl).low _ hmem
    omega
  · intro hnot
    refine .inr ⟨hl, hwin.sorted, fun x hx => ?_, hwin.high, hwin.lt⟩
    have hlow := hwin.low x hx
    have hx1 : fwd 4096 ent.LastIndSeq x ≠ 1 := fun h1 =>
      hnot (((eq_ahead_iff hl (hwin.lt x hx) (by decide)).mpr h1) ▸ hx)
    omega

/-- The successor of a frame survives the flush up to the frame. -/
theorem succ_mem_leSeq {l w s : Nat} {xs : List Nat} (hl : l < 4096) (hw : w ≤ 255)
    (hs : s < 4096) (h : Window 4096 l 2 w xs) (hd : fwd 4096 l s ≤ w) :
    (s + 1) % 4096 ∈ xs.dropWhile (leSeqTest s) ↔ (s + 1) % 4096 ∈ xs := by
  refine ⟨fun hm => (List.dropWhile_sublist _).mem hm, fun hm => ?_⟩
  have hsucc : (s + 1) % 4096 < 4096 := Nat.mod_lt _ (by decide)
  have hone : fwd 4096 s ((s + 1) % 4096) = 1 := fwd_ahead hs (by decide)
  have hadd : fwd 4096 l ((s + 1) % 4096) = fwd 4096 l s + 1 := by
    rw [fwd_add hl hs hsucc (by omega), hone]
  rw [← List.takeWhile_append_dropWhile (p := leSeqTest s) (l := xs)] at hm
  rcases List.mem_append.mp hm with hm | hm
  · have htest := List.mem_takeWhile_imp hm
    have hmem : (s + 1) % 4096 ∈ xs := (List.takeWhile_sublist _).mem hm
    have := (leSeqTest_iff hl hs hsucc (by omega) ((h.high _ hmem).trans hw)).mp htest
    omega
  · exact hm

/-! ## One step -/

section Step

variable (osHz : Nat) {c : RxCtx}

theorem arrive_held {lo : Nat} (now32 : BitVec 32) (hw : c.ent.BAWinSize ≤ 255) (h1 : 1 ≤ lo)
    (h2 : lo ≤ 2) (h : HeldFrom lo c.ent) : HeldFrom lo (ampduArrive osHz c now32).ent :=
  setLastIndSeqAtTimer_held now32 (flush_held osHz now32 hw h1 h2 h)

theorem arrive_terms (now32 : BitVec 32) :
    (ampduArrive osHz c now32).ent.terms = c.ent.terms := by
  simp [ampduArrive]

/-- Case IV, the frame handed up in place of being held. -/
theorem deliver_within_flush_iff {rx : RxBlk} (nowInd : BitVec 32) (hw : c.ent.BAWinSize ≤ 255)
    (hl : c.ent.LastIndSeq < 4096) (h : HeldFrom 2 c.ent)
    (hd : fwd 4096 c.ent.LastIndSeq rx.Sequence ≤ c.ent.BAWinSize) (hfl : FlushesInstead c rx) :
    HeldFrom 2 (baEnqueueReorderingPacket osHz c rx nowInd).ent
      ↔ ¬ (((rx.Sequence : Nat) + 1) % 4096 ∈ heldSeqs c.held
          ∧ (rx.fRX_AMSDU = true ∨ rx.fRX_EAP = true
            ∨ rtmpTimeAfter nowInd (c.ent.LastIndSeqAtTimer + reorderingPacketTimeout osHz)
              = false)) := by
  rw [baEnqueueReorderingPacket_flush osHz nowInd hfl]
  have hs : (rx.Sequence : Nat) < 4096 := rx.Sequence.isLt
  have hwin := h.window_of_lt hl
  have hmove := enqueue_move_held hw hl h (by omega : fwd 4096 c.ent.LastIndSeq rx.Sequence ≤ 2048)
  have hheld : heldSeqs (baIndicateReorderingMpdusLeSeq c.popBlock rx.Sequence).held
      = (heldSeqs c.held).dropWhile (leSeqTest rx.Sequence) := leSeq_held c.popBlock rx.Sequence
  have htimer : (baIndicateReorderingMpdusLeSeq c.popBlock rx.Sequence).ent.LastIndSeqAtTimer
      = c.ent.LastIndSeqAtTimer := by
    rw [baIndicateReorderingMpdusLeSeq_eq]
    rfl
  have hsize := congrArg (·.2.2.1) (leSeq_terms c.popBlock rx.Sequence)
  have hmem := succ_mem_leSeq hl hw hs hwin hd
  rw [← hheld] at hmem
  generalize baIndicateReorderingMpdusLeSeq c.popBlock rx.Sequence = d at *
  rw [← hmem, ← htimer]
  rcases indicate_cases osHz (c := d.setLastIndSeq rx.Sequence) rx nowInd (hsize.le.trans hw) hmove
    with ⟨hno, heq⟩ | ⟨hyes, h2⟩
  · rw [heq, heldFrom_two_iff hs hmove]
    change ((rx.Sequence : Nat) + 1) % 4096 ∉ heldSeqs d.held ↔ _
    refine ⟨fun hnot hand => hnot hand.1, fun hnot hin => hnot ⟨hin, ?_⟩⟩
    -- something is held, so only the clock can keep the flush from running
    have hpos : 0 < d.ent.list.qlen := by
      rw [d.ent.list.qlen_eq]
      have hlen := List.length_pos_of_mem hin
      rwa [heldSeqs, List.length_map] at hlen
    have hno' : (!rx.fRX_AMSDU && !rx.fRX_EAP && (decide (0 < d.ent.list.qlen)
        && rtmpTimeAfter nowInd (d.ent.LastIndSeqAtTimer + reorderingPacketTimeout osHz)))
          = false := hno
    cases ha : rx.fRX_AMSDU <;> cases he : rx.fRX_EAP <;> simp_all
  · refine ⟨fun _ hand => ?_, fun _ => h2⟩
    have hyes' : (!rx.fRX_AMSDU && !rx.fRX_EAP && (decide (0 < d.ent.list.qlen)
        && rtmpTimeAfter nowInd (d.ent.LastIndSeqAtTimer + reorderingPacketTimeout osHz)))
          = true := hyes
    cases ha : rx.fRX_AMSDU <;> cases he : rx.fRX_EAP <;> simp_all

theorem moveWindow_size (start : Nat) (now32 : BitVec 32) :
    (c.moveWindow start now32).ent.BAWinSize = c.ent.BAWinSize :=
  congrArg (·.2.2.1) (leSeq_terms c start)

theorem moveWindow_qlen_le (start : Nat) (now32 : BitVec 32) :
    (c.moveWindow start now32).ent.list.qlen ≤ c.ent.list.qlen := by
  rw [RxCtx.moveWindow, baIndicateReorderingMpdusLeSeq_eq]
  change (c.ent.list.next.drop _).length ≤ c.ent.list.qlen
  rw [c.ent.list.qlen_eq, List.length_drop]
  exact Nat.sub_le _ _

/-- Case V, the window moved so that it ends on the frame. -/
structure Moved (c : RxCtx) (sequence : Nat) : Prop where
  held : HeldFrom 1 c.ent
  size_le : c.ent.BAWinSize ≤ 255
  last_lt : c.ent.LastIndSeq < 4096
  fwd_eq : fwd 4096 c.ent.LastIndSeq sequence = c.ent.BAWinSize

theorem moveWindow_held {s : Nat} (now32 : BitVec 32) (hw : c.ent.BAWinSize ≤ 255)
    (hl : c.ent.LastIndSeq < 4096) (h : HeldFrom 2 c.ent) (hs : s < 4096)
    (hdw : c.ent.BAWinSize < fwd 4096 c.ent.LastIndSeq s)
    (hdh : fwd 4096 c.ent.LastIndSeq s < 2048) :
    Moved (c.moveWindow (winStartSeq s c.ent.BAWinSize) now32) s := by
  have hwin := h.window_of_lt hl
  have hst := winStartSeq_lt hs hw
  have hdist := fwd_winStartSeq hs hw
  have hback := fwd_sub_right hl hst hs (by rw [hdist]; exact hdw.le)
  have hmove := leSeq_move hl hw hwin hst hst (by omega)
    (by omega : fwd 4096 c.ent.LastIndSeq (winStartSeq s c.ent.BAWinSize) + 1 ≤ _)
  have hsize := moveWindow_size (c := c) (winStartSeq s c.ent.BAWinSize) now32
  exact ⟨setLastIndSeqAtTimer_held now32 hmove, hsize.le.trans hw, hst, hdist.trans hsize.symm⟩

/-- A frame that waits for itself is behind its window. -/
theorem strandsItself_ent {rx : RxBlk} {now32 : BitVec 32} (nowInd : BitVec 32)
    (hok : EntryOk c.ent) (h : HeldFrom 2 c.ent) (hst : StrandsItself osHz c rx now32) :
    (ampduAtEntry osHz c rx now32 nowInd).ent.LastIndSeq = rx.Sequence ∧
      (rx.Sequence : Nat) ∈ heldSeqs (ampduAtEntry osHz c rx now32 nowInd).held := by
  have harrive := arrive_held osHz now32 hok.sizeLe (by decide) le_rfl h
  have hok' := hok.of_held (arrive_terms osHz now32) harrive
  obtain ⟨hc, hzero, hfl⟩ := hst
  unfold ampduAtEntry
  generalize ampduArrive osHz c now32 = d at *
  have hs : (rx.Sequence : Nat) < 4096 := rx.Sequence.isLt
  have hcase := ampduCase_spec hs hok'.lastOk hok'.sizeLe
  rw [hc] at hcase
  obtain ⟨hl, _, hdw, hdh⟩ := hcase
  have hmove := moveWindow_held now32 hok'.sizeLe hl harrive hs hdw hdh
  -- the window moved is empty and starts on the frame
  have hnil : (d.moveWindow (winStartSeq rx.Sequence d.ent.BAWinSize) now32).held = [] := by
    have hwin := hmove.held.window_of_lt hmove.last_lt
    have hsize := (moveWindow_size (c := d) (winStartSeq rx.Sequence d.ent.BAWinSize) now32).trans
      hzero
    refine List.eq_nil_iff_forall_not_mem.mpr fun mpdu hmem => ?_
    have hseq := List.mem_map_of_mem (f := fun m : ReorderingMpdu => (m.Sequence : Nat)) hmem
    have hlow := hwin.low _ hseq
    have hhigh := hwin.high _ hseq
    omega
  have hstart : winStartSeq rx.Sequence d.ent.BAWinSize = (rx.Sequence : Nat) := by
    rw [hzero, winStartSeq_eq hs (by decide)]
    omega
  obtain ⟨hE, hpool⟩ := not_or.mp hfl
  obtain ⟨b, rest, hp⟩ := List.exists_cons_of_ne_nil hpool
  have hrun : inOrderRun (rx.Sequence : Nat) [rx.block b.addr] = [] := by
    have hone : seqStepone (rx.Sequence : Nat) rx.Sequence = false := by
      rw [Bool.eq_false_iff, ne_eq, seqStepone_iff hs hs, fwd_self hs]
      decide
    simp [inOrderRun, RxBlk.block, hone]
  have hdel : ampduDeliver osHz d rx now32 nowInd
      = indicateInOrderFrom (baEnqueueReorderingPacket osHz
          (d.moveWindow (winStartSeq rx.Sequence d.ent.BAWinSize) now32) rx nowInd)
        (baEnqueueReorderingPacket osHz
          (d.moveWindow (winStartSeq rx.Sequence d.ent.BAWinSize) now32) rx nowInd).ent.LastIndSeq := by
    simp only [ampduDeliver, hc, RxCtx.moveWindow]
  have hlast : (d.moveWindow (winStartSeq rx.Sequence d.ent.BAWinSize) now32).ent.LastIndSeq
      = rx.Sequence := hstart
  rw [hdel, baEnqueueReorderingPacket_insert osHz nowInd (by simpa using hE) hp, hnil]
  generalize d.moveWindow (winStartSeq rx.Sequence d.ent.BAWinSize) now32 = m at hlast ⊢
  simp only [insertScan, indicateInOrderFrom_eq, hlast, RxCtx.held, ReorderingList.ofList_next, hrun,
    List.length_nil, RxCtx.release_zero, lastSeqOf]
  exact ⟨rfl, List.mem_singleton_self _⟩

/-- **A data MPDU** keeps the window exactly when it strands no frame. -/
theorem ampduAtEntry_held_iff (rx : RxBlk) (now32 nowInd : BitVec 32)
    (hok : EntryOk c.ent) (h : HeldFrom 2 c.ent) :
    HeldFrom 2 (ampduAtEntry osHz c rx now32 nowInd).ent
      ↔ ¬ (StrandsNext osHz c rx now32 nowInd ∨ StrandsItself osHz c rx now32) := by
  by_cases hself : StrandsItself osHz c rx now32
  · refine iff_of_false (fun hheld => ?_) (not_not_intro (.inr hself))
    obtain ⟨hlast, hmem⟩ := strandsItself_ent osHz nowInd hok h hself
    have hs : (rx.Sequence : Nat) < 4096 := rx.Sequence.isLt
    have hlow := (hheld.window_of_lt (hlast ▸ hs)).low _ hmem
    rw [hlast, fwd_self hs] at hlow
    omega
  rw [or_iff_left hself]
  have harrive := arrive_held osHz now32 hok.sizeLe (by decide) le_rfl h
  have hsize : (ampduArrive osHz c now32).ent.BAWinSize = c.ent.BAWinSize :=
    congrArg (·.2.2.1) (arrive_terms osHz now32)
  have htimer : (ampduArrive osHz c now32).ent.LastIndSeqAtTimer = now32 := rfl
  have hok' := hok.of_held (arrive_terms osHz now32) harrive
  unfold StrandsItself at hself
  unfold ampduAtEntry StrandsNext
  dsimp only
  generalize ampduArrive osHz c now32 = d at *
  have hs : (rx.Sequence : Nat) < 4096 := rx.Sequence.isLt
  have hw := hok'.sizeLe
  have hcase := ampduCase_spec hs hok'.lastOk hw
  unfold ampduDeliver
  cases hc : ampduCase d.ent rx.Sequence with
  | reset =>
      rw [hc] at hcase
      have hnil := harrive.nil_of_reset hcase
      have hset : HeldFrom 2 ((d.setLastIndSeq rx.Sequence).setLastIndSeqAtTimer now32).ent :=
        HeldFrom.of_nil 2 hs hnil
      have hind := indicate_held osHz rx nowInd
        (c := (d.setLastIndSeq rx.Sequence).setLastIndSeqAtTimer now32) hw (by decide) le_rfl hset
      simpa using hind
  | inOrder =>
      rw [hc] at hcase
      obtain ⟨hl, hd⟩ := hcase
      have hwin : Window 4096 rx.Sequence 1 d.ent.BAWinSize (heldSeqs d.ent.list.next) :=
        (harrive.window_of_lt hl).rebase hl hs (by omega) (by omega)
      have hind := indicate_held osHz rx nowInd (c := d.setLastIndSeq rx.Sequence) hw le_rfl
        (by decide) (.inr ⟨hs, hwin⟩)
      simpa using setLastIndSeqAtTimer_held now32 (indicateInOrderFrom_held hind)
  | duplicate => simpa using harrive
  | old => simpa using harrive
  | withinWin =>
      rw [hc] at hcase
      obtain ⟨hl, hd2, hdw⟩ := hcase
      by_cases hfl : FlushesInstead d rx
      · have hiff := deliver_within_flush_iff osHz nowInd hw hl harrive hdw hfl
        rw [htimer] at hiff
        simpa [hfl] using hiff
      · have hins := enqueue_insert_held osHz nowInd hw hl harrive hd2 hdw hfl
        simpa [hfl] using hins
  | surpassesWin =>
      rw [hc] at hcase
      obtain ⟨hl, hd2, hdw, hdh⟩ := hcase
      have hmove := moveWindow_held now32 hw hl harrive hs hdw hdh
      have henq := enqueue_held_one osHz rx nowInd hmove.size_le hmove.last_lt hmove.held
        (fun hfl => by
          rw [hmove.fwd_eq, moveWindow_size]
          exact Nat.pos_of_ne_zero fun hzero => hself ⟨hc, hzero, hfl⟩) hmove.fwd_eq.le
      simpa [RxCtx.moveWindow] using indicateInOrderFrom_held henq

/-- A BlockAckReq ahead of `LastIndSeq` sets it to the number before its own. -/
theorem bar_before {l s : Nat} (hl : l < 4096) (hs : s < 4096) (hsm : seqSmaller l s = true) :
    (if s = 0 then maxSeq else s - 1) < 4096 ∧ fwd 4096 l s ≤ 2048
      ∧ fwd 4096 l (if s = 0 then maxSeq else s - 1) + 1 = fwd 4096 l s := by
  have hb : (if s = 0 then maxSeq else s - 1) < 4096 := by
    simp only [maxSeq]
    split <;> omega
  have hbs : fwd 4096 (if s = 0 then maxSeq else s - 1) s = 1 := by
    rw [fwd_of_lt hb hs]
    simp only [maxSeq]
    split <;> split <;> omega
  have hge := (seqSmaller_iff _ _).mp hsm
  have hne : l ≠ s := by
    intro heq
    rw [heq, fwd_self hs] at hge
    omega
  have hpos : 0 < fwd 4096 l s := Nat.pos_of_ne_zero (mt (fwd_eq_zero_iff hl hs).mp hne)
  have hself : fwd 4096 l l = 0 := fwd_self hl
  have hwrap := fwd_wrap hl hs hl (by omega)
  have hback := fwd_sub_right hl hb hs (by omega)
  exact ⟨hb, by omega, by omega⟩

/-- A BlockAckReq keeps the window. -/
theorem barAtEntry_held (startSeq : Fin 4096) (hw : c.ent.BAWinSize ≤ 255)
    (h : HeldFrom 2 c.ent) : HeldFrom 2 (barAtEntry c startSeq).ent := by
  unfold barAtEntry
  split
  · rename_i hsm
    rcases h with ⟨_, hn⟩ | ⟨hl, hwin⟩
    · -- nothing is held: `LastIndSeq` alone moves
      refine HeldFrom.of_nil 2 ?_ ?_
      · change (if (startSeq : Nat) = 0 then maxSeq else (startSeq : Nat) - 1) < 4096
        simp only [maxSeq]
        split <;> omega
      · rw [baIndicateReorderingMpdusLeSeq_eq]
        change c.ent.list.next.drop _ = []
        rw [hn]
        exact List.drop_nil
    · obtain ⟨hb, hle, hback⟩ := bar_before hl startSeq.isLt hsm
      exact leSeq_move hl hw hwin startSeq.isLt hb hle (by omega)
  · exact h

theorem idleTimeout_held (now32 : BitVec 32) (h : HeldFrom 2 c.ent) :
    HeldFrom 2 (baRecSessionIdleTimeout c now32).ent := by
  unfold baRecSessionIdleTimeout
  split
  · split
    · exact refresh_held 2 c
    · exact h
  · exact h

/-- An MPDU that strands the frame after it leaves that one ahead. -/
theorem strandsNext_held_one {rx : RxBlk} {now32 nowInd : BitVec 32} (hok : EntryOk c.ent)
    (h : HeldFrom 2 c.ent) (hst : StrandsNext osHz c rx now32 nowInd) :
    HeldFrom 1 (ampduAtEntry osHz c rx now32 nowInd).ent := by
  have harrive := arrive_held osHz now32 hok.sizeLe (by decide) le_rfl h
  have hok' := hok.of_held (arrive_terms osHz now32) harrive
  have hcase := ampduCase_spec rx.Sequence.isLt hok'.lastOk hok'.sizeLe
  rw [hst.1] at hcase
  obtain ⟨hl, hd2, hdw⟩ := hcase
  have henq := enqueue_held_one osHz rx nowInd hok'.sizeLe hl (harrive.mono (by decide))
    (fun _ => by omega) hdw
  simp only [ampduAtEntry, ampduDeliver, hst.1]
  exact henq

/-- An entry in which no frame is stranded. -/
structure EntrySound (ent : BaRecEntry) : Prop where
  ok : EntryOk ent
  held : HeldFrom 2 ent

theorem EntrySound.listInv {ent : BaRecEntry} (h : EntrySound ent) : ListInv ent :=
  (listInv_iff h.ok.lastOk).mpr h.held

theorem EntrySound.of_terms {ent ent' : BaRecEntry} (h : EntrySound ent)
    (hterms : ent'.terms = ent.terms) (hheld : HeldFrom 2 ent') : EntrySound ent' :=
  ⟨h.ok.of_held hterms hheld, hheld⟩

theorem EntrySound.status {ent : BaRecEntry} (h : EntrySound ent) (st : RecBlockackStatus) :
    EntrySound { ent with REC_BA_Status := st } :=
  ⟨⟨h.ok.lastOk, h.ok.sizeLe⟩, h.held.congr rfl rfl rfl⟩

/-- A data MPDU breaks the invariant of the entry exactly when it strands a
frame. -/
theorem ampduAtEntry_listInv_iff (rx : RxBlk) (now32 nowInd : BitVec 32) (h : EntrySound c.ent) :
    ListInv (ampduAtEntry osHz c rx now32 nowInd).ent
      ↔ ¬ (StrandsNext osHz c rx now32 nowInd ∨ StrandsItself osHz c rx now32) := by
  have hiff := ampduAtEntry_held_iff osHz rx now32 nowInd h.ok h.held
  rw [← hiff]
  by_cases hst : StrandsNext osHz c rx now32 nowInd ∨ StrandsItself osHz c rx now32
  · rcases hst with hnext | hself
    · exact listInv_iff (strandsNext_held_one osHz h.ok h.held hnext).lastOk
    · obtain ⟨hlast, _⟩ := strandsItself_ent osHz nowInd h.ok h.held hself
      exact listInv_iff (.inl (hlast ▸ rx.Sequence.isLt))
  · exact listInv_iff (hiff.mpr hst).lastOk

theorem recWinSize_le (bufSize limit : Nat) : recWinSize bufSize limit ≤ 255 := by
  unfold recWinSize
  dsimp only
  split <;> omega

/-- An entry that is filled is sound exactly when it holds nothing. -/
theorem fill_sound {ent : BaRecEntry} (hnil : ent.list.next = []) (w : Fin 32) (tid : Fin 16)
    (bufSize limit timeOut : Nat) :
    EntrySound (ent.fill w tid (recWinSize bufSize limit) timeOut) :=
  ⟨⟨.inr rfl, recWinSize_le bufSize limit⟩, HeldFrom.of_reset 2 rfl hnil⟩

end Step

/-! ## The entries of the adapter -/

/-- The originator's side leaves the recipient's alone. -/
structure SameRec (ad ad' : RtmpAdapter) : Prop where
  entries : ad'.BARecEntry = ad.BARecEntry
  pool : ad'.mpdu_blk_pool = ad.mpdu_blk_pool
  up : ad'.up = ad.up

section Adapter

variable {ad : RtmpAdapter}

theorem SameRec.rfl' (ad : RtmpAdapter) : SameRec ad ad := ⟨rfl, rfl, rfl⟩

theorem freeOri_sameRec (idx : Fin 128) : SameRec ad (ad.baTableFreeOriEntry idx) := by
  unfold RtmpAdapter.baTableFreeOriEntry
  split
  · exact .rfl' ad
  · dsimp only
    split
    · split <;> exact ⟨rfl, rfl, rfl⟩
    · exact .rfl' ad

theorem allocOri_sameRec (idx : Fin 128) : SameRec ad (ad.baTableAllocOriEntry idx).1 := by
  unfold RtmpAdapter.baTableAllocOriEntry
  split
  · exact .rfl' ad
  · split <;> exact ⟨rfl, rfl, rfl⟩

theorem oriSetUp_sameRec (w : Fin 32) (tid timeOut : Nat) (isForced : Bool) :
    SameRec ad (ad.baOriSessionSetUp w tid timeOut isForced) := by
  unfold RtmpAdapter.baOriSessionSetUp
  split
  · rename_i h
    split
    · exact .rfl' ad
    · split
      · exact .rfl' ad
      · dsimp only
        have hr : SameRec ad (if (ad.Content w).BAOriWcidArray ⟨tid, h⟩ = 0 then
            ad.baTableAllocOriEntry ((ad.Content w).BAOriWcidArray ⟨tid, h⟩)
            else (ad, some ((ad.Content w).BAOriWcidArray ⟨tid, h⟩),
              (ad.Content w).BAOriWcidArray ⟨tid, h⟩)).1 := by
          split
          · exact allocOri_sameRec _
          · exact .rfl' ad
        generalize (if (ad.Content w).BAOriWcidArray ⟨tid, h⟩ = 0 then
            ad.baTableAllocOriEntry ((ad.Content w).BAOriWcidArray ⟨tid, h⟩)
            else (ad, some ((ad.Content w).BAOriWcidArray ⟨tid, h⟩),
              (ad.Content w).BAOriWcidArray ⟨tid, h⟩)) = r at hr ⊢
        obtain ⟨ad', ent, idx⟩ := r
        cases ent with
        | none => exact hr
        | some i =>
            dsimp only
            split
            · exact hr
            · exact ⟨hr.entries, hr.pool, hr.up⟩
  · exact .rfl' ad

theorem oriAdd_sameRec (w : Fin 32) (f : FrameAddba) : SameRec ad (ad.baOriSessionAdd w f) := by
  unfold RtmpAdapter.baOriSessionAdd
  dsimp only
  split
  · exact ⟨rfl, rfl, rfl⟩
  · exact .rfl' ad

theorem oriTearDown_sameRec (wcid : Nat) (tid : Fin 16) (bPassive memOk : Bool) :
    SameRec ad (ad.baOriSessionTearDown wcid tid bPassive memOk) := by
  unfold RtmpAdapter.baOriSessionTearDown
  split
  · dsimp only
    split
    · exact .rfl' ad
    · split
      · exact .rfl' ad
      · exact freeOri_sameRec _
  · exact .rfl' ad

theorem oriTimeout_sameRec (i : Fin 128) (busy scan : Bool) :
    SameRec ad (ad.baOriSessionSetupTimeout i busy scan) := by
  unfold RtmpAdapter.baOriSessionSetupTimeout
  split
  · exact .rfl' ad
  · dsimp only
    split
    · split
      · exact .rfl' ad
      · exact ⟨rfl, rfl, rfl⟩
    · exact freeOri_sameRec _

theorem addBaRsp_sameRec (wcid : Nat) (f : FrameAddba) (memOk : Bool) :
    SameRec ad (ad.peerAddBaRspAction wcid f memOk) := by
  unfold RtmpAdapter.peerAddBaRspAction
  split
  · rename_i hw
    split
    · have hr : SameRec ad (if f.StatusCode = 0 then ad.baOriSessionAdd ⟨wcid, hw⟩ f
          else ad.baOriSessionTearDown wcid f.TID true memOk) := by
        split
        · exact oriAdd_sameRec _ f
        · exact oriTearDown_sameRec wcid _ true memOk
      generalize (if f.StatusCode = 0 then ad.baOriSessionAdd ⟨wcid, hw⟩ f
        else ad.baOriSessionTearDown wcid f.TID true memOk) = ad' at hr ⊢
      dsimp only
      split
      · exact ⟨hr.entries, hr.pool, hr.up⟩
      · exact hr
    · exact .rfl' ad
  · exact .rfl' ad

/-- Allocating and freeing change the status of an entry. -/
theorem allocRec_forall {P : Fin 128 → BaRecEntry → Prop}
    (hP : ∀ i e st, P i e → P i { e with REC_BA_Status := st })
    (h : ∀ i, P i (ad.BARecEntry i)) (idx : Fin 128) :
    ∀ i, P i ((ad.baTableAllocRecEntry idx).1.BARecEntry i) := by
  unfold RtmpAdapter.baTableAllocRecEntry
  split
  · exact h
  · split
    · exact h
    · exact (Function.forall_update_iff _ P).mpr ⟨hP _ _ _ (h _), fun i _ => h i⟩

theorem freeRec_forall {P : Fin 128 → BaRecEntry → Prop}
    (hP : ∀ i e st, P i e → P i { e with REC_BA_Status := st })
    (h : ∀ i, P i (ad.BARecEntry i)) (idx : Fin 128) :
    ∀ i, P i ((ad.baTableFreeRecEntry idx).BARecEntry i) := by
  unfold RtmpAdapter.baTableFreeRecEntry
  split
  · exact h
  · dsimp only
    split
    · exact (Function.forall_update_iff _ P).mpr ⟨hP _ _ _ (h _), fun i _ => h i⟩
    · exact h

theorem putRec_forall {P : BaRecEntry → Prop} {c : RxCtx} (h : ∀ i, P (ad.BARecEntry i))
    (hc : P c.ent) (idx : Fin 128) : ∀ i, P ((ad.putRec idx c).BARecEntry i) :=
  (Function.forall_update_iff ad.BARecEntry fun _ e => P e).mpr ⟨hc, fun i _ => h i⟩

/-- The entry of an ADDBA request: the station's own, flushed, or the allocated one. -/
theorem recAdd_entries (w : Fin 32) (f : FrameAddba) {idx : Fin 128}
    (hidx : (ad.Content w).recSlot f.TID = idx) :
    (ad.baRecSessionAdd w f).2.BARecEntry =
      if idx = 0 then
        match (ad.baTableAllocRecEntry idx).2.1 with
        | none => (ad.baTableAllocRecEntry idx).1.BARecEntry
        | some i => Function.update (ad.baTableAllocRecEntry idx).1.BARecEntry i
            (((ad.baTableAllocRecEntry idx).1.BARecEntry i).fill w f.TID
              (recWinSize f.BufSize ad.cfg.RxBAWinLimit) f.TimeOutValue)
      else Function.update ad.BARecEntry idx
        ((baRefreshReorderingMpdus (ad.recCtx idx)).ent.fill w f.TID
          (recWinSize f.BufSize ad.cfg.RxBAWinLimit) f.TimeOutValue) := by
  unfold RtmpAdapter.baRecSessionAdd
  by_cases h0 : idx = 0
  · simp only [hidx, if_pos h0]
    generalize ad.baTableAllocRecEntry idx = r
    obtain ⟨ad', ent, idx'⟩ := r
    cases ent <;> rfl
  · simp [hidx, h0, RtmpAdapter.putRec, RtmpAdapter.setSta]

theorem recTearDown_entrySound (h : ∀ i, EntrySound (ad.BARecEntry i)) (wcid : Nat) (tid : Fin 16)
    (bPassive memOk : Bool) :
    ∀ i, EntrySound ((ad.baRecSessionTearDown wcid tid bPassive memOk).BARecEntry i) := by
  have hfree (ad : RtmpAdapter) (h : ∀ i, EntrySound (ad.BARecEntry i)) (idx : Fin 128) :
      ∀ i, EntrySound ((ad.baTableFreeRecEntry idx).BARecEntry i) :=
    freeRec_forall (P := fun _ => EntrySound) (fun _ _ st he => he.status st) h idx
  unfold RtmpAdapter.baRecSessionTearDown
  split
  · dsimp only
    generalize (ad.Content _).recSlot tid = idx
    split
    · exact h
    · split
      · split
        · exact h
        · have hnil : (ad.recCtx idx).closeSession.ent.list.next = [] := by
            simp only [RxCtx.closeSession, baRefreshReorderingMpdus_eq]
            exact List.drop_length
          have hclosed : EntrySound (ad.recCtx idx).closeSession.ent :=
            ⟨⟨.inr rfl, Nat.zero_le 255⟩, HeldFrom.of_reset 2 rfl hnil⟩
          refine hfree (((ad.putRec idx _).setSta _ _).setSta _ _) ?_ idx
          exact putRec_forall h hclosed idx
      · exact hfree ad h idx
  · exact h

theorem recAdd_entrySound (h : ∀ i, EntrySound (ad.BARecEntry i)) (w : Fin 32) (f : FrameAddba)
    (hnew : (ad.Content w).recSlot f.TID = 0 →
      ∀ i, (ad.baTableAllocRecEntry 0).2.1 = some i → (ad.BARecEntry i).list.next = []) :
    ∀ i, EntrySound ((ad.baRecSessionAdd w f).2.BARecEntry i) := by
  rw [recAdd_entries w f rfl]
  split
  · rename_i h0
    have halloc := allocRec_forall (P := fun i e => EntrySound e ∧ e.list = (ad.BARecEntry i).list)
      (fun _ _ st he => ⟨he.1.status st, he.2⟩) (fun i => ⟨h i, rfl⟩) 0
    rw [h0]
    cases hr : (ad.baTableAllocRecEntry 0).2.1 with
    | none => exact fun i => (halloc i).1
    | some i =>
        refine (Function.forall_update_iff _ fun _ e => EntrySound e).mpr ⟨?_, fun j _ => (halloc j).1⟩
        exact fill_sound (by rw [(halloc i).2]; exact hnew h0 i hr) ..
  · refine (Function.forall_update_iff _ fun _ e => EntrySound e).mpr ⟨?_, fun j _ => h j⟩
    refine fill_sound ?_ ..
    rw [baRefreshReorderingMpdus_eq]
    exact List.drop_length

/-- An ADDBA request that gets an entry with frames leaves them before the first one. -/
theorem recAdd_strands {w : Fin 32} {f : FrameAddba} (h0 : (ad.Content w).recSlot f.TID = 0)
    {i : Fin 128} (hi : (ad.baTableAllocRecEntry 0).2.1 = some i)
    (hheld : (ad.BARecEntry i).list.next ≠ []) :
    ¬ ListInv ((ad.baRecSessionAdd w f).2.BARecEntry i) := by
  have hlist := allocRec_forall (P := fun i e => e.list = (ad.BARecEntry i).list)
    (fun _ _ _ he => he) (fun _ => rfl) 0 i
  rw [recAdd_entries w f h0, if_pos rfl, hi]
  dsimp only
  rw [Function.update_self]
  intro hinv
  apply hheld
  rw [← hlist]
  exact hinv.resetEmpty rfl

/-- **One step** keeps every list unless it strands a frame. -/
theorem baStep_entrySound (h : ∀ i, EntrySound (ad.BARecEntry i)) (op : BaOp)
    (hop : ¬ Strands ad op) : ∀ i, EntrySound ((baStep ad op).BARecEntry i) := by
  have hsame {ad' : RtmpAdapter} (hrec : SameRec ad ad') :
      ∀ i, EntrySound (ad'.BARecEntry i) := by rwa [hrec.entries]
  cases op with
  | oriSetUp w tid timeOut isForced => exact hsame (oriSetUp_sameRec w tid timeOut isForced)
  | oriTearDown wcid tid bPassive memOk =>
      exact hsame (oriTearDown_sameRec wcid tid bPassive memOk)
  | oriTimeout i busy scan => exact hsame (oriTimeout_sameRec i busy scan)
  | recTearDown wcid tid bPassive memOk => exact recTearDown_entrySound h wcid tid bPassive memOk
  | addBaReq wcid f =>
      show ∀ i, EntrySound ((ad.peerAddBaReqAction wcid f).BARecEntry i)
      unfold RtmpAdapter.peerAddBaReqAction
      split
      · rename_i hw
        split
        · rename_i hsane
          obtain ⟨hsane, hht⟩ := Bool.and_eq_true_iff.mp hsane
          refine recAdd_entrySound h _ f fun h0 i hi => ?_
          by_contra hheld
          exact hop ⟨hsane, hw, hht, h0, i, hi, hheld⟩
        · exact h
      · exact h
  | addBaRsp wcid f memOk => exact hsame (addBaRsp_sameRec wcid f memOk)
  | delBa wcid lenOk initiator tid =>
      show ∀ i, EntrySound ((ad.peerDelBaAction wcid lenOk initiator tid).BARecEntry i)
      unfold RtmpAdapter.peerDelBaAction
      split
      · split
        · exact recTearDown_entrySound h wcid tid true true
        · exact hsame (oriTearDown_sameRec wcid tid true true)
      · exact h
  | ampdu rx now32 nowInd =>
      show ∀ i, EntrySound ((ad.indicateAmpduPacket rx now32 nowInd).BARecEntry i)
      unfold RtmpAdapter.indicateAmpduPacket
      split
      · exact h
      · rename_i hover
        split
        · rename_i hw
          dsimp only
          split
          · exact h
          · rename_i h0
            have hidx := h ((ad.Content ⟨rx.WirelessCliID, hw⟩).recSlot rx.TID)
            refine putRec_forall h (hidx.of_terms (ampduAtEntry_terms ad.cfg.osHz _ rx _ _) ?_) _
            refine (ampduAtEntry_held_iff ad.cfg.osHz rx now32 nowInd hidx.ok hidx.held).mpr ?_
            exact fun hst => hop ⟨by simpa using hover, hw, h0, hst⟩
        · exact h
  | bar wcid frameOk tid startSeq =>
      show ∀ i, EntrySound ((ad.cntlEnqueueForRecv wcid frameOk tid startSeq).BARecEntry i)
      unfold RtmpAdapter.cntlEnqueueForRecv
      split
      · split
        · rename_i hw
          have hidx := h ((ad.Content ⟨wcid, hw.1⟩).BARecWcidArray ⟨tid, hw.2⟩)
          exact putRec_forall h (hidx.of_terms (barAtEntry_terms _ startSeq)
            (barAtEntry_held startSeq hidx.ok.sizeLe hidx.held)) _
        · exact h
      · exact h
  | legacy wcid tid now32 =>
      show ∀ i, EntrySound ((ad.legacyFlush wcid tid now32).BARecEntry i)
      unfold RtmpAdapter.legacyFlush
      split
      · rename_i hw
        split
        · exact h
        · dsimp only
          split
          · have hidx := h ((ad.Content ⟨wcid, hw⟩).recSlot tid)
            exact putRec_forall h (hidx.of_terms (flush_terms ad.cfg.osHz _ now32)
              (flush_held ad.cfg.osHz now32 hidx.ok.sizeLe (by decide) le_rfl hidx.held)) _
          · exact h
      · exact h
  | idleTimeout i now32 =>
      exact putRec_forall h ((h i).of_terms (idleTimeout_terms (ad.recCtx i) now32)
        (idleTimeout_held now32 (h i).held)) i

/-- A step that strands a frame breaks the invariant of its list. -/
theorem baStep_strands (h : ∀ i, EntrySound (ad.BARecEntry i)) {op : BaOp} (hop : Strands ad op) :
    ∃ i, ¬ ListInv ((baStep ad op).BARecEntry i) := by
  cases op with
  | ampdu rx now32 nowInd =>
      obtain ⟨hover, hw, h0, hst⟩ := hop
      refine ⟨(ad.Content ⟨rx.WirelessCliID, hw⟩).recSlot rx.TID, ?_⟩
      simp only [baStep, RtmpAdapter.indicateAmpduPacket, hover, Bool.false_eq_true, if_false,
        dif_pos hw, if_neg h0, RtmpAdapter.putRec, Function.update_self]
      rw [ampduAtEntry_listInv_iff ad.cfg.osHz rx now32 nowInd (h _)]
      exact not_not_intro hst
  | addBaReq wcid f =>
      obtain ⟨hsane, hw, hht, h0, i, hi, hheld⟩ := hop
      refine ⟨i, ?_⟩
      have hcond : (f.sane && !ad.cfg.bBADecline && (ad.Content ⟨wcid, hw⟩).isHtSta) = true := by
        rw [hsane, hht]
        rfl
      simp only [baStep, RtmpAdapter.peerAddBaReqAction, dif_pos hw, if_pos hcond]
      exact recAdd_strands h0 hi hheld
  | _ => exact hop.elim

end Adapter

/-! ## Runs -/

/-- **The hold-back lists over runs**: from the adapter without a session, under
any sequence of events, the list invariant holds of every entry in every state
exactly when no step strands a held frame. -/
theorem listInv_always_iff (cfg : BaCfg) (caps : Fin 32 → StaCaps) (num : Nat) (ops : List BaOp) :
    Run.Always baStep (fun ad => ∀ i, ListInv (ad.BARecEntry i)) (baStart cfg caps num) ops
      ↔ Run.Along baStep (fun ad op => ¬ Strands ad op) (baStart cfg caps num) ops := by
  have hsound {ad : RtmpAdapter} (hok : ∀ i, EntryOk (ad.BARecEntry i))
      (hinv : ∀ i, ListInv (ad.BARecEntry i)) : ∀ i, EntrySound (ad.BARecEntry i) :=
    fun i => ⟨hok i, (listInv_iff (hok i).lastOk).mp (hinv i)⟩
  have hstart (i : Fin 128) : EntrySound ((baStart cfg caps num).BARecEntry i) :=
    have hzero : EntrySound .zero :=
      ⟨⟨.inl (by decide), by decide⟩, HeldFrom.of_nil 2 (by decide) rfl⟩
    hzero
  refine Run.always_iff_along_of_inv (J := fun ad => ∀ i, EntryOk (ad.BARecEntry i)) ?_ ?_
    (fun i => (hstart i).ok) fun i => (hstart i).listInv
  · exact fun ad op hok hinv hop i => (baStep_entrySound (hsound hok hinv) op hop i).ok
  · intro ad op hok hinv
    constructor
    · intro hnext hop
      obtain ⟨i, hi⟩ := baStep_strands (hsound hok hinv) hop
      exact hi (hnext i)
    · exact fun hop i => (baStep_entrySound (hsound hok hinv) op hop i).listInv

/-- A data frame of station 1, TID 0. -/
def frameOf (s : Fin 4096) (eap : Bool) : RxBlk :=
  { Sequence := s, DataSize := 100, OpMode := 0, fRX_AMSDU := false, fRX_EAP := eap,
    pRxPacket := s, WirelessCliID := 1, TID := 0 }

/-- Frame 0 starts the session and frame 3 is held; the EAPOL frame 2 is then
handed up, and 3 stays behind although it is next. -/
theorem listInv_broken :
    ¬ ∀ (cfg : BaCfg) (caps : Fin 32 → StaCaps) (num : Nat) (ops : List BaOp),
        Run.Always baStep (fun ad => ∀ i, ListInv (ad.BARecEntry i)) (baStart cfg caps num) ops := by
  intro h
  have hlast := (h plainCfg (fun _ => htSta) 2 [.addBaReq 1 (addbaFor 0),
    .ampdu (frameOf 0 false) 0 0, .ampdu (frameOf 3 false) 0 0, .ampdu (frameOf 2 true) 0 0]).last 1
  have hwin := hlast.inWindow 3 (by decide +kernel)
  revert hwin
  decide +kernel

end ExtDrv.Rt3370
