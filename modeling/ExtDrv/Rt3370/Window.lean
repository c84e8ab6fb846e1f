import ExtDrv.Rt3370.Indicate

/-!
# The window of held frames

Where the held sequence numbers lie, seen from `LastIndSeq`. `HeldFrom lo`
says they strictly increase, start at `lo` ahead and end within the window;
every function is described by how it moves `lo`. Between two events `lo` is
2: a frame one ahead would have been handed up. The flushes leave 1 behind
them, and an in-order pass turns 1 back into 2.
-/

namespace ExtDrv.Rt3370

open ExtDrv.Serial

/-! ## The invariant -/

/-- The held frames lie from `lo` ahead of `LastIndSeq` on, within the window;
before the first frame of a session nothing is held. -/
def HeldFrom (lo : Nat) (ent : BaRecEntry) : Prop :=
  (ent.LastIndSeq = resetRcvSeq ∧ ent.list.next = []) ∨
  (ent.LastIndSeq < 4096 ∧ Window 4096 ent.LastIndSeq lo ent.BAWinSize (heldSeqs ent.list.next))

theorem HeldFrom.mono {lo lo' : Nat} {ent : BaRecEntry} (h : HeldFrom lo ent) (hlo : lo' ≤ lo) :
    HeldFrom lo' ent :=
  h.imp_right fun ⟨hl, hw⟩ => ⟨hl, hw.mono hlo le_rfl⟩

theorem HeldFrom.of_reset (lo : Nat) {ent : BaRecEntry} (hl : ent.LastIndSeq = resetRcvSeq)
    (hn : ent.list.next = []) : HeldFrom lo ent := .inl ⟨hl, hn⟩

theorem HeldFrom.of_nil (lo : Nat) {ent : BaRecEntry} (hl : ent.LastIndSeq < 4096)
    (hn : ent.list.next = []) : HeldFrom lo ent := by
  refine .inr ⟨hl, ?_⟩
  rw [hn]
  exact Window.nil

/-- Only `LastIndSeq`, the window size and the list are looked at. -/
theorem HeldFrom.congr {lo : Nat} {e e' : BaRecEntry} (h : HeldFrom lo e)
    (hl : e'.LastIndSeq = e.LastIndSeq) (hw : e'.BAWinSize = e.BAWinSize)
    (hn : e'.list.next = e.list.next) : HeldFrom lo e' := by
  unfold HeldFrom at *
  rw [hl, hw, hn]
  exact h

/-- Where something is held, `LastIndSeq` is a sequence number. -/
theorem HeldFrom.window {lo : Nat} {ent : BaRecEntry} (h : HeldFrom lo ent)
    (hn : ent.list.next ≠ []) :
    ent.LastIndSeq < 4096 ∧
      Window 4096 ent.LastIndSeq lo ent.BAWinSize (heldSeqs ent.list.next) :=
  h.resolve_left fun ⟨_, hnil⟩ => hn hnil

theorem HeldFrom.window_of_lt {lo : Nat} {ent : BaRecEntry} (h : HeldFrom lo ent)
    (hl : ent.LastIndSeq < 4096) :
    Window 4096 ent.LastIndSeq lo ent.BAWinSize (heldSeqs ent.list.next) := by
  rcases h with ⟨hr, _⟩ | ⟨_, hwin⟩
  · simp only [resetRcvSeq] at hr
    omega
  · exact hwin

/-- Before the first frame of a session nothing is held. -/
theorem HeldFrom.nil_of_reset {lo : Nat} {ent : BaRecEntry} (h : HeldFrom lo ent)
    (hr : ent.LastIndSeq = resetRcvSeq) : ent.list.next = [] := by
  rcases h with ⟨_, hnil⟩ | ⟨hl, _⟩
  · exact hnil
  · simp only [resetRcvSeq] at hr
    omega

/-! ## Comparisons within a window -/

section Compare

variable {l s : Nat} {mpdu : ReorderingMpdu}

/-- The test of the `le_seq` loop, on a held frame: not beyond `s`. -/
theorem leSeqTest_iff {x : Nat} (hl : l < 4096) (hs : s < 4096) (hx : x < 4096)
    (hls : fwd 4096 l s ≤ 2048) (hlx : fwd 4096 l x ≤ 255) :
    leSeqTest s x = true ↔ fwd 4096 l x ≤ fwd 4096 l s := by
  have heq : x = s ↔ fwd 4096 l x = fwd 4096 l s := (fwd_left_inj hl hx hs).symm
  rw [leSeqTest, Bool.or_eq_true, beq_iff_eq, seqSmaller_iff, heq]
  rcases Nat.lt_or_ge (fwd 4096 l x) (fwd 4096 l s) with h | h
  · have hw := fwd_wrap hl hs hx h
    omega
  · have hd := fwd_sub hl hs hx h
    omega

/-- `SEQ_SMALLER` on two frames of one window. -/
theorem seqSmaller_window {x y : Nat} (hl : l < 4096) (hx : x < 4096) (hy : y < 4096)
    (hlx : fwd 4096 l x ≤ 255) (hly : fwd 4096 l y ≤ 255) :
    seqSmaller x y = true ↔ fwd 4096 l x < fwd 4096 l y := by
  rw [seqSmaller_iff]
  rcases Nat.lt_or_ge (fwd 4096 l x) (fwd 4096 l y) with h | h
  · have hw := fwd_wrap hl hy hx h
    omega
  · have hd := fwd_sub hl hy hx h
    omega

/-- **The cases of `Indicate_AMPDU_Packet`**, by the distance `d` from
`LastIndSeq` to the frame: in order at 1, duplicate at 0, old from half the
number space on, within the window up to `BAWinSize`, beyond it otherwise. -/
theorem ampduCase_spec {ent : BaRecEntry} (hs : s < 4096)
    (hl : ent.LastIndSeq < 4096 ∨ ent.LastIndSeq = resetRcvSeq) (hw : ent.BAWinSize ≤ 255) :
    match ampduCase ent s with
    | .reset => ent.LastIndSeq = resetRcvSeq
    | .inOrder => ent.LastIndSeq < 4096 ∧ fwd 4096 ent.LastIndSeq s = 1
    | .duplicate => ent.LastIndSeq < 4096 ∧ fwd 4096 ent.LastIndSeq s = 0
    | .old => ent.LastIndSeq < 4096 ∧ 2048 ≤ fwd 4096 ent.LastIndSeq s
    | .withinWin => ent.LastIndSeq < 4096 ∧ 2 ≤ fwd 4096 ent.LastIndSeq s
        ∧ fwd 4096 ent.LastIndSeq s ≤ ent.BAWinSize
    | .surpassesWin => ent.LastIndSeq < 4096 ∧ 2 ≤ fwd 4096 ent.LastIndSeq s
        ∧ ent.BAWinSize < fwd 4096 ent.LastIndSeq s ∧ fwd 4096 ent.LastIndSeq s < 2048 := by
  unfold ampduCase
  by_cases hreset : ent.LastIndSeq = resetRcvSeq
  · simp only [if_pos hreset]
    exact hreset
  have hl := hl.resolve_right hreset
  have hone := seqStepone_iff hs hl
  have hzero := fwd_eq_zero_iff hl hs
  simp only [if_neg hreset]
  by_cases h1 : seqStepone s ent.LastIndSeq = true
  · simp only [if_pos h1]
    exact ⟨hl, hone.mp h1⟩
  by_cases h0 : s = ent.LastIndSeq
  · simp only [if_neg h1, if_pos h0]
    exact ⟨hl, hzero.mpr h0.symm⟩
  by_cases hold : seqSmaller s ent.LastIndSeq = true
  · simp only [if_neg h1, if_neg h0, if_pos hold]
    exact ⟨hl, (seqSmaller_iff _ _).mp hold⟩
  have hd1 := mt hone.mpr h1
  have hd0 := mt hzero.mp (Ne.symm h0)
  have hdold := mt (seqSmaller_iff s ent.LastIndSeq).mpr hold
  -- the edge of the window, `BAWinSize + 1` ahead
  have hedge : (ent.LastIndSeq + ent.BAWinSize + 1) &&& maxSeq
      = (ent.LastIndSeq + (ent.BAWinSize + 1)) % 4096 := by
    rw [← Nat.add_assoc]
    exact Nat.and_two_pow_sub_one_eq_mod _ 12
  have hlt : (ent.LastIndSeq + (ent.BAWinSize + 1)) % 4096 < 4096 := Nat.mod_lt _ (by decide)
  have hahead : fwd 4096 ent.LastIndSeq ((ent.LastIndSeq + (ent.BAWinSize + 1)) % 4096)
      = ent.BAWinSize + 1 := fwd_ahead hl (by omega)
  rw [if_neg h1, if_neg h0, if_neg hold, hedge]
  rcases Nat.lt_or_ge (fwd 4096 ent.LastIndSeq s) (ent.BAWinSize + 1) with h | h
  · have hw := fwd_wrap hl hlt hs (by omega)
    rw [if_pos ((seqSmaller_iff _ _).mpr (by omega))]
    exact ⟨hl, by omega, by omega⟩
  · have hd := fwd_sub hl hlt hs (by omega)
    rw [if_neg (mt (seqSmaller_iff _ _).mp (by omega))]
    exact ⟨hl, by omega, by omega, by omega⟩

end Compare

/-! ## Insertion -/

/-- The scan keeps the window. -/
theorem insertScan_window {l lo w : Nat} {mpdu : ReorderingMpdu} (hl : l < 4096) (hw : w ≤ 255)
    {xs ys : List ReorderingMpdu} (h : Window 4096 l lo w (heldSeqs xs))
    (hlo : lo ≤ fwd 4096 l mpdu.Sequence) (hhi : fwd 4096 l mpdu.Sequence ≤ w)
    (hins : insertScan mpdu xs = some ys) : Window 4096 l lo w (heldSeqs ys) := by
  have hm : (mpdu.Sequence : Nat) < 4096 := mpdu.Sequence.isLt
  induction xs generalizing lo ys with
  | nil =>
      simp only [insertScan, Option.some.injEq] at hins
      subst hins
      exact Window.nil.cons hm hlo hhi
  | cons scan rest ih =>
      have hscan : (scan.Sequence : Nat) < 4096 := scan.Sequence.isLt
      have hlow : lo ≤ fwd 4096 l scan.Sequence := h.low _ List.mem_cons_self
      have hhigh : fwd 4096 l scan.Sequence ≤ w := h.high _ List.mem_cons_self
      have hbehind : Window 4096 l (fwd 4096 l scan.Sequence + 1) w (heldSeqs rest) :=
        h.above_head
      have hsmaller := seqSmaller_window hl hscan hm (by omega) (by omega)
      simp only [insertScan] at hins
      split at hins
      · -- the frame goes further back
        rename_i hlt
        obtain ⟨zs, hz, rfl⟩ := Option.map_eq_some_iff.mp hins
        exact (ih hbehind (hsmaller.mp hlt) hz).cons hscan hlow hhigh
      · rename_i hge
        split at hins
        · cases hins
        · -- its place is in front of `scan`
          rename_i hne
          cases hins
          have hne' : fwd 4096 l mpdu.Sequence ≠ fwd 4096 l scan.Sequence := fun heq =>
            hne (Fin.ext ((fwd_left_inj hl hm hscan).mp heq).symm)
          have hlt := mt hsmaller.mpr hge
          have hall : Window 4096 l lo w
              ((mpdu.Sequence : Nat) :: (scan.Sequence : Nat) :: heldSeqs rest) :=
            (hbehind.cons hscan (by omega) hhigh).cons hm hlo hhi
          exact hall

/-! ## The flushes -/

theorem heldSeqs_dropWhile (p : Nat → Bool) (xs : List ReorderingMpdu) :
    heldSeqs (xs.dropWhile fun mpdu => p mpdu.Sequence) = (heldSeqs xs).dropWhile p := by
  induction xs with
  | nil => rfl
  | cons mpdu rest ih =>
      by_cases hp : p mpdu.Sequence = true <;> simp_all [heldSeqs]

theorem leSeq_held (c : RxCtx) (s : Nat) :
    heldSeqs (baIndicateReorderingMpdusLeSeq c s).held
      = (heldSeqs c.held).dropWhile (leSeqTest s) := by
  rw [baIndicateReorderingMpdusLeSeq_eq, RxCtx.release_held, drop_length_takeWhile,
    heldSeqs_dropWhile]

/-- Handing up everything not beyond `s`, up to half the number space ahead. -/
theorem leSeq_window {c : RxCtx} {lo w s : Nat} (hl : c.ent.LastIndSeq < 4096) (hw : w ≤ 255)
    (h : Window 4096 c.ent.LastIndSeq lo w (heldSeqs c.held)) (hs : s < 4096)
    (hls : fwd 4096 c.ent.LastIndSeq s ≤ 2048) :
    Window 4096 c.ent.LastIndSeq (max lo (fwd 4096 c.ent.LastIndSeq s + 1)) w
      (heldSeqs (baIndicateReorderingMpdusLeSeq c s).held) := by
  rw [leSeq_held]
  exact h.dropWhile fun x hx =>
    leSeqTest_iff hl hs (h.lt x hx) hls ((h.high x hx).trans hw)

/-- **Flush and move**: hand up everything not beyond `s`, then set
`LastIndSeq` to `b`, which lies at least `lo'` before what is left. -/
theorem leSeq_move {c : RxCtx} {lo lo' s b : Nat} (hl : c.ent.LastIndSeq < 4096)
    (hw : c.ent.BAWinSize ≤ 255)
    (h : Window 4096 c.ent.LastIndSeq lo c.ent.BAWinSize (heldSeqs c.held))
    (hs : s < 4096) (hb : b < 4096) (hls : fwd 4096 c.ent.LastIndSeq s ≤ 2048)
    (hlb : fwd 4096 c.ent.LastIndSeq b + lo' ≤ max lo (fwd 4096 c.ent.LastIndSeq s + 1)) :
    HeldFrom lo' ((baIndicateReorderingMpdusLeSeq c s).setLastIndSeq b).ent := by
  have hwin : Window 4096 b lo' c.ent.BAWinSize
      (heldSeqs (baIndicateReorderingMpdusLeSeq c s).held) :=
    (leSeq_window hl hw h hs hls).rebase hl hb hlb (by omega)
  have hsize : (baIndicateReorderingMpdusLeSeq c s).ent.BAWinSize = c.ent.BAWinSize :=
    congrArg (·.2.2.1) (leSeq_terms c s)
  refine .inr ⟨hb, ?_⟩
  change Window 4096 b lo' (baIndicateReorderingMpdusLeSeq c s).ent.BAWinSize _
  rw [hsize]
  exact hwin

/-- An in-order pass takes the frames that follow without a gap: none is left
one ahead. -/
theorem inOrderRun_window {l w : Nat} {xs : List ReorderingMpdu} (hl : l < 4096)
    (h : Window 4096 l 1 w (heldSeqs xs)) :
    Window 4096 (lastSeqOf l (inOrderRun l xs)) 2 w
      (heldSeqs (xs.drop (inOrderRun l xs).length)) := by
  induction xs generalizing l with
  | nil => exact Window.nil
  | cons mpdu rest ih =>
      have hm : (mpdu.Sequence : Nat) < 4096 := mpdu.Sequence.isLt
      have hlow : 1 ≤ fwd 4096 l mpdu.Sequence := h.low _ List.mem_cons_self
      have hhigh : fwd 4096 l mpdu.Sequence ≤ w := h.high _ List.mem_cons_self
      have hbehind : Window 4096 l (fwd 4096 l mpdu.Sequence + 1) w (heldSeqs rest) :=
        h.above_head
      have hone := seqStepone_iff hm hl
      simp only [inOrderRun]
      split
      · rename_i hstep
        have hd := hone.mp hstep
        have hrest : Window 4096 mpdu.Sequence 1 w (heldSeqs rest) :=
          hbehind.rebase hl hm (by omega) (by omega)
        exact ih hm hrest
      · rename_i hstep
        have hd := mt hone.mpr hstep
        have hall : Window 4096 l 2 w ((mpdu.Sequence : Nat) :: heldSeqs rest) :=
          hbehind.cons hm (by omega) hhigh
        exact hall

theorem indicateInOrderFrom_held {c : RxCtx} (h : HeldFrom 1 c.ent) :
    HeldFrom 2 (indicateInOrderFrom c c.ent.LastIndSeq).ent := by
  rw [indicateInOrderFrom_eq]
  rcases h with ⟨hl, hn⟩ | ⟨hl, hwin⟩
  · refine HeldFrom.of_reset 2 ?_ ?_
    · change lastSeqOf c.ent.LastIndSeq (inOrderRun c.ent.LastIndSeq c.ent.list.next) = _
      rw [hn]
      exact hl
    · change c.ent.list.next.drop _ = []
      rw [hn]
      exact List.drop_nil
  · exact .inr ⟨lastSeqOf_lt hl _, inOrderRun_window hl hwin⟩

theorem refresh_held (lo : Nat) (c : RxCtx) : HeldFrom lo (baRefreshReorderingMpdus c).ent := by
  rw [baRefreshReorderingMpdus_eq]
  exact HeldFrom.of_reset lo rfl List.drop_length

theorem setLastIndSeqAtTimer_held {lo : Nat} {c : RxCtx} (now32 : BitVec 32)
    (h : HeldFrom lo c.ent) : HeldFrom lo (c.setLastIndSeqAtTimer now32).ent :=
  h.congr rfl rfl rfl

/-- `ba_flush_reordering_timeout_mpdus` does nothing, or leaves no frame one
ahead. -/
theorem flush_cases (osHz : Nat) {c : RxCtx} (now32 : BitVec 32) (hw : c.ent.BAWinSize ≤ 255)
    (h : HeldFrom 1 c.ent) :
    (baFlushReorderingTimeoutMpdus osHz c now32 = c ∧ legacyFlushDue osHz c.ent now32 = false)
      ∨ HeldFrom 2 (baFlushReorderingTimeoutMpdus osHz c now32).ent := by
  unfold baFlushReorderingTimeoutMpdus
  by_cases hq : c.ent.list.qlen ≤ 0
  · exact .inl ⟨if_pos hq, by simp [legacyFlushDue]; omega⟩
  rw [if_neg hq]
  by_cases hall : flushAllDue osHz c.ent now32 = true
  · rw [if_pos hall]
    exact .inr (setLastIndSeqAtTimer_held now32 (refresh_held 2 c))
  rw [if_neg hall]
  by_cases hone : flushOneDue osHz c.ent now32 = true
  · rw [if_pos hone]
    have hne : c.ent.list.next ≠ [] := by
      intro hnil
      have := c.ent.list.qlen_eq
      rw [hnil] at this
      exact hq this.le
    obtain ⟨hl, hwin⟩ := h.window hne
    have hmask : (c.ent.LastIndSeq + 1) &&& maxSeq = (c.ent.LastIndSeq + 1) % 4096 :=
      Nat.and_two_pow_sub_one_eq_mod _ 12
    have hd : fwd 4096 c.ent.LastIndSeq ((c.ent.LastIndSeq + 1) % 4096) = 1 :=
      fwd_ahead hl (by decide)
    have hmove : HeldFrom 1 ((baIndicateReorderingMpdusLeSeq c ((c.ent.LastIndSeq + 1) &&& maxSeq))
        |>.setLastIndSeq ((c.ent.LastIndSeq + 1) &&& maxSeq)).ent := by
      rw [hmask]
      have hlt : (c.ent.LastIndSeq + 1) % 4096 < 4096 := Nat.mod_lt _ (by decide)
      exact leSeq_move hl hw hwin hlt hlt (by omega) (by omega)
    exact .inr (indicateInOrderFrom_held (setLastIndSeqAtTimer_held now32 hmove))
  · rw [if_neg hone]
    refine .inl ⟨rfl, ?_⟩
    rw [legacyFlushDue, Bool.and_comm]
    exact Bool.eq_false_iff.mpr hone

theorem flush_held (osHz : Nat) {c : RxCtx} {lo : Nat} (now32 : BitVec 32)
    (hw : c.ent.BAWinSize ≤ 255) (h1 : 1 ≤ lo) (h2 : lo ≤ 2) (h : HeldFrom lo c.ent) :
    HeldFrom lo (baFlushReorderingTimeoutMpdus osHz c now32).ent := by
  rcases flush_cases osHz now32 hw (h.mono h1) with ⟨heq, _⟩ | h'
  · rw [heq]
    exact h
  · exact h'.mono h2

/-! ## A data MPDU -/

/-- `Indicate_Legacy_Packet` is reached, and its time-out flush is due. -/
def legacyFlushes (osHz : Nat) (ent : BaRecEntry) (rx : RxBlk) (nowInd : BitVec 32) : Bool :=
  !rx.fRX_AMSDU && !rx.fRX_EAP && legacyFlushDue osHz ent nowInd

/-- Handing the frame itself up leaves the entry alone, or runs a flush that
leaves no frame one ahead. -/
theorem indicate_cases (osHz : Nat) {c : RxCtx} (rx : RxBlk) (nowInd : BitVec 32)
    (hw : c.ent.BAWinSize ≤ 255) (h : HeldFrom 1 c.ent) :
    (legacyFlushes osHz c.ent rx nowInd = false
        ∧ (indicateLegacyOrAmsdu osHz c rx nowInd).ent = c.ent)
      ∨ (legacyFlushes osHz c.ent rx nowInd = true
        ∧ HeldFrom 2 (indicateLegacyOrAmsdu osHz c rx nowInd).ent) := by
  unfold indicateLegacyOrAmsdu legacyFlushes
  by_cases ha : rx.fRX_AMSDU = true
  · exact .inl ⟨by simp [ha], by rw [if_pos ha]; rfl⟩
  by_cases he : rx.fRX_EAP = true
  · exact .inl ⟨by simp [he], by rw [if_neg ha, if_pos he]; rfl⟩
  rw [if_neg ha, if_neg he]
  by_cases hd : legacyFlushDue osHz c.ent nowInd = true
  · rw [if_pos hd]
    refine .inr ⟨by simp [ha, he, hd], ?_⟩
    rcases flush_cases osHz nowInd hw h with ⟨_, hnot⟩ | h'
    · exact absurd hd (by simp [hnot])
    · exact h'
  · rw [if_neg hd]
    exact .inl ⟨by simp [hd], rfl⟩

theorem indicate_held (osHz : Nat) {c : RxCtx} {lo : Nat} (rx : RxBlk) (nowInd : BitVec 32)
    (hw : c.ent.BAWinSize ≤ 255) (h1 : 1 ≤ lo) (h2 : lo ≤ 2) (h : HeldFrom lo c.ent) :
    HeldFrom lo (indicateLegacyOrAmsdu osHz c rx nowInd).ent := by
  rcases indicate_cases osHz rx nowInd hw (h.mono h1) with ⟨_, heq⟩ | ⟨_, h'⟩
  · rw [heq]
    exact h
  · exact h'.mono h2

/-- A frame held back lands within the window. -/
theorem enqueue_insert_held (osHz : Nat) {c : RxCtx} {lo : Nat} {rx : RxBlk}
    (nowInd : BitVec 32) (hw : c.ent.BAWinSize ≤ 255) (hl : c.ent.LastIndSeq < 4096)
    (h : HeldFrom lo c.ent) (hlo : lo ≤ fwd 4096 c.ent.LastIndSeq rx.Sequence)
    (hhi : fwd 4096 c.ent.LastIndSeq rx.Sequence ≤ c.ent.BAWinSize)
    (hfl : ¬ FlushesInstead c rx) :
    HeldFrom lo (baEnqueueReorderingPacket osHz c rx nowInd).ent := by
  obtain ⟨hE, hpool⟩ := not_or.mp hfl
  obtain ⟨b, rest, hp⟩ := List.exists_cons_of_ne_nil hpool
  have hwin := h.window_of_lt hl
  rw [baEnqueueReorderingPacket_insert osHz nowInd (by simpa using hE) hp]
  cases hins : insertScan (rx.block b.addr) c.held with
  | none => exact h
  | some xs => exact .inr ⟨hl, insertScan_window hl hw hwin hlo hhi hins⟩

/-- The frame is handed up in place of being held: everything up to it goes
first, and `LastIndSeq` moves onto it. -/
theorem enqueue_move_held {c : RxCtx} {lo : Nat} {rx : RxBlk} (hw : c.ent.BAWinSize ≤ 255)
    (hl : c.ent.LastIndSeq < 4096) (h : HeldFrom lo c.ent)
    (hd : fwd 4096 c.ent.LastIndSeq rx.Sequence ≤ 2048) :
    HeldFrom 1 ((baIndicateReorderingMpdusLeSeq c.popBlock rx.Sequence).setLastIndSeq
      rx.Sequence).ent := by
  have hs : (rx.Sequence : Nat) < 4096 := rx.Sequence.isLt
  have hwin := h.window_of_lt hl
  exact leSeq_move (c := c.popBlock) hl hw hwin hs hs hd (by
    change fwd 4096 c.ent.LastIndSeq rx.Sequence + 1 ≤ max lo (fwd 4096 c.ent.LastIndSeq _ + 1)
    omega)

theorem enqueue_held_one (osHz : Nat) {c : RxCtx} (rx : RxBlk) (nowInd : BitVec 32)
    (hw : c.ent.BAWinSize ≤ 255) (hl : c.ent.LastIndSeq < 4096) (h : HeldFrom 1 c.ent)
    (hlo : ¬ FlushesInstead c rx → 1 ≤ fwd 4096 c.ent.LastIndSeq rx.Sequence)
    (hhi : fwd 4096 c.ent.LastIndSeq rx.Sequence ≤ c.ent.BAWinSize) :
    HeldFrom 1 (baEnqueueReorderingPacket osHz c rx nowInd).ent := by
  by_cases hfl : FlushesInstead c rx
  · rw [baEnqueueReorderingPacket_flush osHz nowInd hfl]
    refine indicate_held osHz rx nowInd ?_ le_rfl (by decide)
      (enqueue_move_held hw hl h (by omega))
    have hsize := congrArg (·.2.2.1) (leSeq_terms c.popBlock rx.Sequence)
    exact hsize.le.trans hw
  · exact enqueue_insert_held osHz nowInd hw hl h (hlo hfl) hhi hfl

end ExtDrv.Rt3370
