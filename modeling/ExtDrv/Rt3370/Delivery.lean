import ExtDrv.Lib.Resequence
import ExtDrv.Rt3370.Recipient

/-!
# In-order delivery

The frames one session hands up the stack, over runs of data MPDUs and
BlockAckReqs without a time-out flush: their sequence numbers strictly advance
as long as no step takes one of three ways out of order (`KeepsOrder`).
-/

namespace ExtDrv.Rt3370

open ExtDrv.Serial

/-! ## The machine -/

/-- What the peer sends in a session. -/
inductive SessionOp
  | mpdu (freelist : ReorderingList) (rx : RxBlk) (now32 nowInd : BitVec 32)
  | bar (startSeq : Fin 4096)

/-- `BARecSessionAdd`, in the entry: a running session is flushed first. -/
def RxCtx.sessionAdd (c : RxCtx) (wcid : Fin 32) (tid : Fin 16)
    (bufSize rxBAWinLimit timeOutValue : Nat) : RxCtx :=
  let c := if c.ent.REC_BA_Status = .recipientNone then c else baRefreshReorderingMpdus c
  { c with ent := c.ent.fill wcid tid (recWinSize bufSize rxBAWinLimit) timeOutValue }

/-- A data MPDU of the session; an oversize frame is dropped. -/
def RxCtx.mpdu (osHz : Nat) (c : RxCtx) (rx : RxBlk) (now32 nowInd : BitVec 32) : RxCtx :=
  if rx.oversize then c else ampduAtEntry osHz c rx now32 nowInd

/-- **One step** of the session. The block pool is shared with the other
sessions, so every MPDU brings the free list as it finds it. -/
def sessionStep (osHz : Nat) (c : RxCtx) : SessionOp → RxCtx
  | .mpdu freelist rx now32 nowInd => { c with pool := freelist }.mpdu osHz rx now32 nowInd
  | .bar startSeq => barAtEntry c startSeq

/-- The entry of the zeroed adapter. -/
def recStart : RxCtx := { pool := .ofList [], ent := .zero, up := [] }

/-- An entry `BARecSessionAdd` has just filled; `timer` is what an earlier
session left in it. -/
def sessionStart (timer : BitVec 32) (wcid : Fin 32) (tid : Fin 16)
    (bufSize rxBAWinLimit timeOutValue : Nat) : RxCtx :=
  (recStart.setLastIndSeqAtTimer timer).sessionAdd wcid tid bufSize rxBAWinLimit timeOutValue

/-- The sequence numbers handed up, oldest first. -/
def upSeqs (up : List Indicated) : List Nat := up.map fun frame => (frame.Sequence : Nat)

/-- The numbers handed up strictly advance: each comes after the previous one,
less than half the number space ahead. -/
def Advances (c : RxCtx) : Prop := (upSeqs c.up).IsChain (After 4096 2048)

instance (c : RxCtx) : Decidable (Advances c) :=
  inferInstanceAs (Decidable ((upSeqs c.up).IsChain (After 4096 2048)))

/-! ## Conditions on a step -/

/-- No time-out flush: when the MPDU arrives nothing held has timed out, and
nothing does before the frame itself is handed up. -/
def NoTimeoutFlush (osHz : Nat) (c : RxCtx) : SessionOp → Prop
  | .mpdu _ _ now32 nowInd =>
      flushAllDue osHz c.ent now32 = false ∧ flushOneDue osHz c.ent now32 = false
        ∧ (0 < c.ent.list.qlen →
            rtmpTimeAfter nowInd (now32 + reorderingPacketTimeout osHz) = false)
  | .bar _ => True

instance (osHz : Nat) (c : RxCtx) : ∀ op, Decidable (NoTimeoutFlush osHz c op)
  | .mpdu _ _ now32 nowInd =>
      inferInstanceAs (Decidable (flushAllDue osHz c.ent now32 = false
        ∧ flushOneDue osHz c.ent now32 = false ∧ (0 < c.ent.list.qlen →
            rtmpTimeAfter nowInd (now32 + reorderingPacketTimeout osHz) = false)))
  | .bar _ => .isTrue trivial

/-- A frame the entry takes in: next in order, within the window or beyond
it. -/
def TakenIn (ent : BaRecEntry) (sequence : Nat) : Prop :=
  ampduCase ent sequence = .inOrder ∨ ampduCase ent sequence = .withinWin
    ∨ ampduCase ent sequence = .surpassesWin

instance (ent : BaRecEntry) (sequence : Nat) : Decidable (TakenIn ent sequence) :=
  inferInstanceAs (Decidable (_ ∨ _ ∨ _))

/-- An in-window frame handed up in place of being held is neither held already
nor followed by a held one. -/
def FlushKeepsOrder (c : RxCtx) (rx : RxBlk) : Prop :=
  ampduCase c.ent rx.Sequence = .withinWin → FlushesInstead c rx →
    (rx.Sequence : Nat) ∉ heldSeqs c.held ∧ ((rx.Sequence : Nat) + 1) % 4096 ∉ heldSeqs c.held

instance (c : RxCtx) (rx : RxBlk) : Decidable (FlushKeepsOrder c rx) :=
  inferInstanceAs (Decidable (_ → _ → _ ∧ _))

/-- A frame taken in while nothing is held lies less than half the number space
after the last one handed up, going through `LastIndSeq`. -/
def JumpKeepsOrder (c : RxCtx) (rx : RxBlk) : Prop :=
  c.held = [] → TakenIn c.ent rx.Sequence → ∀ d ∈ (upSeqs c.up).getLast?,
    fwd 4096 d c.ent.LastIndSeq + fwd 4096 c.ent.LastIndSeq rx.Sequence < 2048

instance (c : RxCtx) (rx : RxBlk) : Decidable (JumpKeepsOrder c rx) :=
  inferInstanceAs (Decidable (c.held = [] → TakenIn c.ent rx.Sequence →
    ∀ d ∈ (upSeqs c.up).getLast?,
      fwd 4096 d c.ent.LastIndSeq + fwd 4096 c.ent.LastIndSeq rx.Sequence < 2048))

/-- A step that keeps the output in order: a BlockAckReq that moves the window
does not name a held frame, and an MPDU takes neither the flush of
`ba_enqueue_reordering_packet` onto held frames nor a jump of half the number
space. -/
def KeepsOrder (c : RxCtx) : SessionOp → Prop
  | .mpdu freelist rx _ _ => rx.oversize = false →
      FlushKeepsOrder { c with pool := freelist } rx ∧ JumpKeepsOrder c rx
  | .bar startSeq =>
      seqSmaller c.ent.LastIndSeq startSeq = true → (startSeq : Nat) ∉ heldSeqs c.held

instance (c : RxCtx) : ∀ op, Decidable (KeepsOrder c op)
  | .mpdu freelist rx _ _ =>
      inferInstanceAs (Decidable (rx.oversize = false →
        FlushKeepsOrder { c with pool := freelist } rx ∧ JumpKeepsOrder c rx))
  | .bar startSeq =>
      inferInstanceAs (Decidable (seqSmaller c.ent.LastIndSeq startSeq = true →
        (startSeq : Nat) ∉ heldSeqs c.held))

/-! ## What the functions hand up -/

/-- The output is in order and what is held continues it, seen from
`LastIndSeq`. -/
structure InStep (c : RxCtx) : Prop where
  last_lt : c.ent.LastIndSeq < 4096
  ready : Ready 4096 2048 (upSeqs c.up) c.ent.LastIndSeq (heldSeqs c.held)

theorem InStep.congr {c d : RxCtx} (h : InStep c) (hup : d.up = c.up)
    (hl : d.ent.LastIndSeq = c.ent.LastIndSeq) (hheld : d.held = c.held) : InStep d := by
  refine ⟨hl ▸ h.last_lt, ?_⟩
  rw [hup, hl, hheld]
  exact h.ready

theorem upSeqs_append (up up' : List Indicated) : upSeqs (up ++ up') = upSeqs up ++ upSeqs up' :=
  List.map_append

theorem upSeqs_indicated (xs : List ReorderingMpdu) :
    upSeqs (xs.map ReorderingMpdu.indicated) = heldSeqs xs := by
  simp [upSeqs, heldSeqs, ReorderingMpdu.indicated]

theorem heldSeqs_takeWhile (p : Nat → Bool) (xs : List ReorderingMpdu) :
    heldSeqs (xs.takeWhile fun mpdu => p mpdu.Sequence) = (heldSeqs xs).takeWhile p := by
  induction xs with
  | nil => rfl
  | cons mpdu rest ih =>
      by_cases hp : p mpdu.Sequence = true <;> simp_all [heldSeqs]

theorem leSeq_up (c : RxCtx) (s : Nat) :
    upSeqs (baIndicateReorderingMpdusLeSeq c s).up
      = upSeqs c.up ++ (heldSeqs c.held).takeWhile (leSeqTest s) := by
  rw [baIndicateReorderingMpdusLeSeq_eq, RxCtx.release_up, upSeqs_append, upSeqs_indicated,
    ← heldSeqs_takeWhile, take_length_takeWhile]

/-- Where the scan puts the frame. -/
theorem insertScan_split {mpdu : ReorderingMpdu} {xs ys : List ReorderingMpdu}
    (h : insertScan mpdu xs = some ys) :
    heldSeqs ys = (heldSeqs xs).takeWhile (fun x => seqSmaller x mpdu.Sequence)
      ++ (mpdu.Sequence : Nat) :: (heldSeqs xs).dropWhile fun x => seqSmaller x mpdu.Sequence := by
  induction xs generalizing ys with
  | nil =>
      simp only [insertScan, Option.some.injEq] at h
      subst h
      rfl
  | cons scan rest ih =>
      simp only [insertScan] at h
      split at h
      · rename_i hlt
        obtain ⟨zs, hz, rfl⟩ := Option.map_eq_some_iff.mp h
        have hih := ih hz
        simp only [heldSeqs, List.map_cons] at hih ⊢
        rw [List.takeWhile_cons, List.dropWhile_cons, if_pos hlt, if_pos hlt, hih]
        rfl
      · rename_i hge
        split at h
        · cases h
        · cases h
          simp only [heldSeqs, List.map_cons]
          rw [List.takeWhile_cons, List.dropWhile_cons, if_neg hge, if_neg hge]
          rfl

section Functions

variable {c : RxCtx} {w : Nat}

/-- Flush up to `s` and move to `b`: in step, if nothing flushed lies beyond
`b` and nothing left before it. -/
theorem leSeq_inStep {s b : Nat} (h : InStep c)
    (hwin : Window 4096 c.ent.LastIndSeq 1 w (heldSeqs c.held)) (hw : w < 2048) (hb : b < 4096)
    (htest : ∀ x ∈ heldSeqs c.held,
      leSeqTest s x = true ↔ fwd 4096 c.ent.LastIndSeq x ≤ fwd 4096 c.ent.LastIndSeq b)
    (hsplit : Window 4096 c.ent.LastIndSeq (fwd 4096 c.ent.LastIndSeq b) w
      ((heldSeqs c.held).dropWhile (leSeqTest s))) :
    InStep ((baIndicateReorderingMpdusLeSeq c s).setLastIndSeq b) := by
  refine ⟨hb, ?_⟩
  rw [RxCtx.setLastIndSeq_held, leSeq_held]
  change Ready 4096 2048 (upSeqs (baIndicateReorderingMpdusLeSeq c s).up) b _
  rw [leSeq_up]
  have hsplitEq := List.takeWhile_append_dropWhile (p := leSeqTest s) (l := heldSeqs c.held)
  refine Ready.deliver (l := c.ent.LastIndSeq) (w := w) ?_ ?_ (by decide) hw h.last_lt hb ?_
    hsplit.low
  · rw [hsplitEq]
    exact h.ready
  · rw [hsplitEq]
    exact hwin
  · intro x hx
    exact (htest x ((List.takeWhile_sublist _).mem hx)).mp (List.mem_takeWhile_imp hx)

/-- An in-order pass. -/
theorem inOrderRun_ready {up : List Nat} {l : Nat} {xs : List ReorderingMpdu} (hl : l < 4096)
    (hw : w < 2048) (hwin : Window 4096 l 1 w (heldSeqs xs))
    (h : Ready 4096 2048 up l (heldSeqs xs)) :
    Ready 4096 2048 (up ++ heldSeqs (inOrderRun l xs)) (lastSeqOf l (inOrderRun l xs))
      (heldSeqs (xs.drop (inOrderRun l xs).length)) := by
  induction xs generalizing l up with
  | nil => simpa [inOrderRun, heldSeqs, lastSeqOf] using h
  | cons mpdu rest ih =>
      have hm : (mpdu.Sequence : Nat) < 4096 := mpdu.Sequence.isLt
      have hbehind : Window 4096 l (fwd 4096 l mpdu.Sequence + 1) w (heldSeqs rest) :=
        hwin.above_head
      by_cases hstep : seqStepone mpdu.Sequence l = true
      · have hone := (seqStepone_iff hm hl).mp hstep
        have hnext : Ready 4096 2048 (up ++ [(mpdu.Sequence : Nat)]) mpdu.Sequence
            (heldSeqs rest) :=
          (show Ready 4096 2048 up l ([(mpdu.Sequence : Nat)] ++ heldSeqs rest) from h).deliver
            hwin (by decide) hw hl hm (by simp) (hbehind.mono (Nat.le_succ _) le_rfl).low
        have hrest : Window 4096 mpdu.Sequence 1 w (heldSeqs rest) :=
          hbehind.rebase hl hm (by omega) (by omega)
        have hdone := ih hm hrest hnext
        simp only [inOrderRun, if_pos hstep, lastSeqOf, List.length_cons, List.drop_succ_cons]
        simpa [heldSeqs] using hdone
      · simp only [inOrderRun, if_neg hstep, lastSeqOf, List.length_nil, List.drop_zero]
        simpa [heldSeqs] using h

theorem indicateInOrderFrom_inStep (hw : c.ent.BAWinSize ≤ 255) (hheld : HeldFrom 1 c.ent)
    (h : InStep c) : InStep (indicateInOrderFrom c c.ent.LastIndSeq) := by
  have hl := h.last_lt
  have hwin := hheld.window_of_lt hl
  rw [indicateInOrderFrom_eq]
  refine ⟨lastSeqOf_lt hl _, ?_⟩
  change Ready 4096 2048 (upSeqs (c.up ++ _)) (lastSeqOf c.ent.LastIndSeq _)
    (heldSeqs (c.held.drop _))
  rw [inOrderRun_take, upSeqs_append, upSeqs_indicated]
  exact inOrderRun_ready hl (by omega) hwin h.ready

/-- The frame itself handed up behind the flush: in step when it was not held
and continues the output. -/
theorem enqueue_flush_inStep {rx : RxBlk} (h : InStep c) (hw : w ≤ 255)
    (hwin : Window 4096 c.ent.LastIndSeq 1 w (heldSeqs c.held))
    (hlo : 1 ≤ fwd 4096 c.ent.LastIndSeq rx.Sequence)
    (hhi : fwd 4096 c.ent.LastIndSeq rx.Sequence ≤ w)
    (hnew : (rx.Sequence : Nat) ∉ heldSeqs c.held)
    (hjump : heldSeqs c.held = [] → ∀ d ∈ (upSeqs c.up).getLast?,
      fwd 4096 d c.ent.LastIndSeq + fwd 4096 c.ent.LastIndSeq rx.Sequence < 2048) :
    InStep (((baIndicateReorderingMpdusLeSeq c.popBlock rx.Sequence).setLastIndSeq
      rx.Sequence).announce rx) := by
  have hl := h.last_lt
  have hs : (rx.Sequence : Nat) < 4096 := rx.Sequence.isLt
  have htest : ∀ x ∈ heldSeqs c.held, leSeqTest rx.Sequence x = true
      ↔ fwd 4096 c.ent.LastIndSeq x ≤ fwd 4096 c.ent.LastIndSeq rx.Sequence := fun x hx =>
    leSeqTest_iff hl hs (hwin.lt x hx) (by omega) ((hwin.high x hx).trans hw)
  have hsplit : Window 4096 c.ent.LastIndSeq 1 w
      ((heldSeqs c.held).takeWhile (leSeqTest rx.Sequence)
        ++ (rx.Sequence : Nat) :: (heldSeqs c.held).dropWhile (leSeqTest rx.Sequence)) :=
    hwin.insert_split htest hl hs hnew le_rfl hlo le_rfl hhi
  have hsplitEq := List.takeWhile_append_dropWhile (p := leSeqTest rx.Sequence)
    (l := heldSeqs c.held)
  have hins := Ready.insert (hsplitEq.symm ▸ h.ready) hsplit (fun hnil => hjump (hsplitEq ▸ hnil))
  rw [List.append_cons] at hins hsplit
  have hdone := hins.deliver hsplit (by decide) (by omega) hl hs ?_ ?_
  · refine ⟨hs, ?_⟩
    change Ready 4096 2048 (upSeqs ((baIndicateReorderingMpdusLeSeq c.popBlock rx.Sequence).up
      ++ [rx.indicated])) rx.Sequence
      (heldSeqs (baIndicateReorderingMpdusLeSeq c.popBlock rx.Sequence).held)
    rw [upSeqs_append, leSeq_up, leSeq_held, List.append_assoc]
    exact hdone
  · intro x hx
    rcases List.mem_append.mp hx with hx | hx
    · exact (htest x ((List.takeWhile_sublist _).mem hx)).mp (List.mem_takeWhile_imp hx)
    · rw [List.mem_singleton.mp hx]
  · intro y hy
    have hpair := (List.pairwise_append.mp hsplit.sorted).2.2
    exact (hpair rx.Sequence (by simp) y hy).le

theorem legacyFlushDue_of_quiet {osHz n : Nat} {ent : BaRecEntry} {now32 nowInd : BitVec 32}
    (hlen : ent.list.qlen ≤ n) (htimer : ent.LastIndSeqAtTimer = now32)
    (h : 0 < n → rtmpTimeAfter nowInd (now32 + reorderingPacketTimeout osHz) = false) :
    legacyFlushDue osHz ent nowInd = false := by
  unfold legacyFlushDue
  by_cases hq : 0 < ent.list.qlen
  · rw [htimer, h (hq.trans_le hlen), Bool.and_false]
  · simp [hq]

/-- Without a time-out flush the frame just goes up. -/
theorem indicate_quiet {osHz : Nat} {rx : RxBlk} {nowInd : BitVec 32}
    (h : legacyFlushDue osHz c.ent nowInd = false) :
    indicateLegacyOrAmsdu osHz c rx nowInd = c.announce rx := by
  unfold indicateLegacyOrAmsdu
  rw [h]
  split
  · rfl
  · split <;> rfl

theorem flush_quiet {osHz : Nat} {now32 : BitVec 32} (hall : flushAllDue osHz c.ent now32 = false)
    (hone : flushOneDue osHz c.ent now32 = false) :
    baFlushReorderingTimeoutMpdus osHz c now32 = c := by
  unfold baFlushReorderingTimeoutMpdus
  rw [hall, hone]
  split <;> rfl

/-- **`ba_enqueue_reordering_packet`** keeps in step. -/
theorem enqueue_inStep (osHz : Nat) {rx : RxBlk} (nowInd : BitVec 32) (h : InStep c)
    (hw : c.ent.BAWinSize ≤ 255) (hheld : HeldFrom 1 c.ent)
    (hlo : 1 ≤ fwd 4096 c.ent.LastIndSeq rx.Sequence)
    (hhi : fwd 4096 c.ent.LastIndSeq rx.Sequence ≤ c.ent.BAWinSize)
    (hnew : FlushesInstead c rx → (rx.Sequence : Nat) ∉ heldSeqs c.held)
    (hjump : heldSeqs c.held = [] → ∀ d ∈ (upSeqs c.up).getLast?,
      fwd 4096 d c.ent.LastIndSeq + fwd 4096 c.ent.LastIndSeq rx.Sequence < 2048)
    (hquiet : 0 < c.ent.list.qlen →
      rtmpTimeAfter nowInd (c.ent.LastIndSeqAtTimer + reorderingPacketTimeout osHz) = false) :
    InStep (baEnqueueReorderingPacket osHz c rx nowInd) := by
  have hl := h.last_lt
  have hwin := hheld.window_of_lt hl
  by_cases hfl : FlushesInstead c rx
  · rw [baEnqueueReorderingPacket_flush osHz nowInd hfl]
    have hdone := enqueue_flush_inStep h hw hwin hlo hhi (hnew hfl) hjump
    rw [indicate_quiet]
    · exact hdone
    · rw [baIndicateReorderingMpdusLeSeq_eq]
      refine legacyFlushDue_of_quiet ?_ rfl hquiet
      change (c.ent.list.next.drop _).length ≤ c.ent.list.qlen
      rw [c.ent.list.qlen_eq, List.length_drop]
      exact Nat.sub_le _ _
  · obtain ⟨hE, hpool⟩ := not_or.mp hfl
    obtain ⟨b, rest, hp⟩ := List.exists_cons_of_ne_nil hpool
    rw [baEnqueueReorderingPacket_insert osHz nowInd (by simpa using hE) hp]
    cases hins : insertScan (rx.block b.addr) c.held with
    | none => exact h.congr rfl rfl rfl
    | some xs =>
        refine ⟨hl, ?_⟩
        change Ready 4096 2048 (upSeqs c.up) c.ent.LastIndSeq (heldSeqs xs)
        have hxs := insertScan_window hl hw hwin hlo hhi hins
        rw [insertScan_split hins] at hxs ⊢
        refine Ready.insert ?_ hxs fun hnil => hjump ?_
        · rw [List.takeWhile_append_dropWhile]
          exact h.ready
        · rwa [List.takeWhile_append_dropWhile] at hnil

end Functions

/-! ## A data MPDU -/

section Mpdu

variable {c : RxCtx} {rx : RxBlk}

/-- Case I: the next frame goes up. -/
theorem announce_next_inStep (h : InStep c) (hw : c.ent.BAWinSize ≤ 255)
    (hpos : 1 ≤ c.ent.BAWinSize) (hheld : HeldFrom 2 c.ent)
    (hone : fwd 4096 c.ent.LastIndSeq rx.Sequence = 1)
    (hjump : heldSeqs c.held = [] → ∀ d ∈ (upSeqs c.up).getLast?,
      fwd 4096 d c.ent.LastIndSeq + fwd 4096 c.ent.LastIndSeq rx.Sequence < 2048) :
    InStep ((c.setLastIndSeq rx.Sequence).announce rx) := by
  have hl := h.last_lt
  have hs : (rx.Sequence : Nat) < 4096 := rx.Sequence.isLt
  have hwin := hheld.window_of_lt hl
  have hall : Window 4096 c.ent.LastIndSeq 1 c.ent.BAWinSize
      ((rx.Sequence : Nat) :: heldSeqs c.held) :=
    Window.cons hs (by omega) (by omega) (by rw [hone]; exact hwin)
  have hins : Ready 4096 2048 (upSeqs c.up) c.ent.LastIndSeq
      ([(rx.Sequence : Nat)] ++ heldSeqs c.held) :=
    (show Ready 4096 2048 (upSeqs c.up) c.ent.LastIndSeq ([] ++ heldSeqs c.held) from
      h.ready).insert hall hjump
  have hdone := hins.deliver hall (by decide) (by omega) hl hs (by simp) fun y hy => by
    have := hwin.low y hy
    omega
  refine ⟨hs, ?_⟩
  change Ready 4096 2048 (upSeqs (c.up ++ [rx.indicated])) rx.Sequence (heldSeqs c.held)
  rw [upSeqs_append]
  exact hdone

/-- Case V: the window moves so that it ends on the frame, and the frame still
continues the output. -/
theorem moveWindow_inStep {start : Nat} (now32 : BitVec 32) (h : InStep c)
    (hw : c.ent.BAWinSize ≤ 255) (hheld : HeldFrom 2 c.ent) (hst : start < 4096)
    (hdist : fwd 4096 start rx.Sequence = c.ent.BAWinSize)
    (hdw : c.ent.BAWinSize < fwd 4096 c.ent.LastIndSeq rx.Sequence)
    (hdh : fwd 4096 c.ent.LastIndSeq rx.Sequence < 2048)
    (hjump : heldSeqs c.held = [] → ∀ d ∈ (upSeqs c.up).getLast?,
      fwd 4096 d c.ent.LastIndSeq + fwd 4096 c.ent.LastIndSeq rx.Sequence < 2048) :
    InStep (c.moveWindow start now32)
      ∧ (rx.Sequence : Nat) ∉ heldSeqs (c.moveWindow start now32).held
      ∧ (heldSeqs (c.moveWindow start now32).held = [] →
          ∀ d ∈ (upSeqs (c.moveWindow start now32).up).getLast?,
            fwd 4096 d start + fwd 4096 start rx.Sequence < 2048) := by
  have hl := h.last_lt
  have hs : (rx.Sequence : Nat) < 4096 := rx.Sequence.isLt
  have hwin := hheld.window_of_lt hl
  have hback := fwd_sub_right hl hst hs (by rw [hdist]; exact hdw.le)
  have hnew : (rx.Sequence : Nat) ∉ heldSeqs c.held := fun hmem => by
    have := hwin.high _ hmem
    omega
  have hup : upSeqs (c.moveWindow start now32).up = _ := leSeq_up c start
  have hm : heldSeqs (c.moveWindow start now32).held = _ := leSeq_held c start
  have hdrop := leSeq_window hl hw hwin hst (by omega)
  rw [leSeq_held] at hdrop
  have htest : ∀ x ∈ heldSeqs c.held, leSeqTest start x = true
      ↔ fwd 4096 c.ent.LastIndSeq x ≤ fwd 4096 c.ent.LastIndSeq start := fun x hx =>
    leSeqTest_iff hl hst (hwin.lt x hx) (by omega) ((hwin.high x hx).trans hw)
  have hmoved := leSeq_inStep (w := c.ent.BAWinSize) h (hwin.mono (by decide) le_rfl) (by omega)
    hst htest (hdrop.mono (by omega) le_rfl)
  -- with the frame taken in at the far end, the same move shows it continues the output
  have hfar : Window 4096 c.ent.LastIndSeq 1 (fwd 4096 c.ent.LastIndSeq rx.Sequence)
      ((heldSeqs c.held).takeWhile (fun _ => true)
        ++ (rx.Sequence : Nat) :: (heldSeqs c.held).dropWhile fun _ => true) :=
    hwin.insert_split (fun x hx => by
      have := hwin.high x hx
      simp only [true_iff]
      omega) hl hs hnew (by decide) (by omega) hdw.le le_rfl
  have htake : (heldSeqs c.held).takeWhile (fun _ => true) = heldSeqs c.held := by simp
  have hdropAll : (heldSeqs c.held).dropWhile (fun _ => true) = [] := by simp
  rw [htake, hdropAll] at hfar
  have hins : Ready 4096 2048 (upSeqs c.up) c.ent.LastIndSeq
      (heldSeqs c.held ++ [(rx.Sequence : Nat)]) :=
    Ready.insert (by rw [List.append_nil]; exact h.ready) hfar
      fun hnil => hjump (by rwa [List.append_nil] at hnil)
  have hsplitEq : heldSeqs c.held ++ [(rx.Sequence : Nat)]
      = (heldSeqs c.held).takeWhile (leSeqTest start)
        ++ ((heldSeqs c.held).dropWhile (leSeqTest start) ++ [(rx.Sequence : Nat)]) := by
    rw [← List.append_assoc, List.takeWhile_append_dropWhile]
  rw [hsplitEq] at hins hfar
  have hdone := hins.deliver (b := start) hfar (by decide) hdh hl hst
    (fun x hx => (htest x ((List.takeWhile_sublist _).mem hx)).mp (List.mem_takeWhile_imp hx))
    (fun y hy => by
      rcases List.mem_append.mp hy with hy | hy
      · have := hdrop.low y hy
        omega
      · rw [List.mem_singleton.mp hy]
        omega)
  refine ⟨hmoved.congr rfl rfl rfl, ?_, ?_⟩
  · rw [hm]
    exact fun hmem => hnew ((List.dropWhile_sublist _).mem hmem)
  · intro hnil d hd
    rw [hm] at hnil
    rw [hup] at hd
    rw [hnil] at hdone
    exact hdone.ahead d hd _ rfl

/-- Case V as a whole: the window moves, the frame is held at its far end or
handed up, and what has become due in order goes up. -/
theorem surpass_inStep (osHz : Nat) {now32 nowInd : BitVec 32} (h : InStep c)
    (hw : c.ent.BAWinSize ≤ 255) (hpos : 1 ≤ c.ent.BAWinSize) (hheld : HeldFrom 2 c.ent)
    (hdw : c.ent.BAWinSize < fwd 4096 c.ent.LastIndSeq rx.Sequence)
    (hdh : fwd 4096 c.ent.LastIndSeq rx.Sequence < 2048)
    (hjump : heldSeqs c.held = [] → ∀ d ∈ (upSeqs c.up).getLast?,
      fwd 4096 d c.ent.LastIndSeq + fwd 4096 c.ent.LastIndSeq rx.Sequence < 2048)
    (hquiet : 0 < c.ent.list.qlen →
      rtmpTimeAfter nowInd (now32 + reorderingPacketTimeout osHz) = false) :
    let c' := baEnqueueReorderingPacket osHz
      (c.moveWindow (winStartSeq rx.Sequence c.ent.BAWinSize) now32) rx nowInd
    InStep (indicateInOrderFrom c' c'.ent.LastIndSeq) := by
  have hs : (rx.Sequence : Nat) < 4096 := rx.Sequence.isLt
  have hl := h.last_lt
  obtain ⟨hm, hnot, hmj⟩ := moveWindow_inStep now32 h hw hheld
    (winStartSeq_lt hs hw) (fwd_winStartSeq hs hw) hdw hdh hjump
  have hmoved := moveWindow_held now32 hw hl hheld hs hdw hdh
  have hsize := moveWindow_size (c := c) (winStartSeq rx.Sequence c.ent.BAWinSize) now32
  have hlen := moveWindow_qlen_le (c := c) (winStartSeq rx.Sequence c.ent.BAWinSize) now32
  have hlo : 1 ≤ fwd 4096 (c.moveWindow (winStartSeq rx.Sequence c.ent.BAWinSize)
      now32).ent.LastIndSeq rx.Sequence := by
    rw [hmoved.fwd_eq, hsize]
    exact hpos
  have henq := enqueue_inStep osHz nowInd hm hmoved.size_le hmoved.held hlo
    hmoved.fwd_eq.le (fun _ => hnot) hmj fun hq => hquiet (hq.trans_le hlen)
  have hone := enqueue_held_one osHz rx nowInd hmoved.size_le hmoved.last_lt hmoved.held (fun _ => hlo)
    hmoved.fwd_eq.le
  have hterms := congrArg (·.2.2.1) (enqueue_terms osHz
    (c.moveWindow (winStartSeq rx.Sequence c.ent.BAWinSize) now32) rx nowInd)
  exact indicateInOrderFrom_inStep (hterms.le.trans hmoved.size_le) hone henq

/-- **A data MPDU** keeps in step, once nothing has timed out. -/
theorem ampduDeliver_inStep (osHz : Nat) {now32 nowInd : BitVec 32} (hok : EntryOk c.ent)
    (hpos : 1 ≤ c.ent.BAWinSize) (hheld : HeldFrom 2 c.ent)
    (h : InStep c ∨ c.ent.LastIndSeq = resetRcvSeq ∧ c.up = [])
    (htimer : c.ent.LastIndSeqAtTimer = now32)
    (hquiet : 0 < c.ent.list.qlen →
      rtmpTimeAfter nowInd (now32 + reorderingPacketTimeout osHz) = false)
    (hflush : FlushKeepsOrder c rx) (hjump : JumpKeepsOrder c rx) :
    InStep (ampduDeliver osHz c rx now32 nowInd) := by
  have hs : (rx.Sequence : Nat) < 4096 := rx.Sequence.isLt
  have hw := hok.sizeLe
  have hcase := ampduCase_spec hs hok.lastOk hw
  have hjump' : TakenIn c.ent rx.Sequence → heldSeqs c.held = [] →
      ∀ d ∈ (upSeqs c.up).getLast?,
        fwd 4096 d c.ent.LastIndSeq + fwd 4096 c.ent.LastIndSeq rx.Sequence < 2048 :=
    fun ht hnil => hjump (List.map_eq_nil_iff.mp hnil) ht
  have hstep : c.ent.LastIndSeq < 4096 → InStep c := fun hl =>
    h.resolve_right fun ⟨hr, _⟩ => by
      simp only [resetRcvSeq] at hr
      omega
  unfold ampduDeliver
  cases hc : ampduCase c.ent rx.Sequence with
  | reset =>
      rw [hc] at hcase
      obtain ⟨_, hup⟩ := h.resolve_left fun hin => by
        have := hin.last_lt
        simp only [resetRcvSeq] at hcase
        omega
      have hnil := hheld.nil_of_reset hcase
      dsimp only
      rw [indicate_quiet]
      · refine ⟨hs, ?_⟩
        change Ready 4096 2048 (upSeqs (c.up ++ [rx.indicated])) rx.Sequence
          (heldSeqs c.ent.list.next)
        rw [hup, hnil]
        exact ⟨List.IsChain.singleton _, by simp [upSeqs, RxBlk.indicated], by simp [heldSeqs]⟩
      · exact legacyFlushDue_of_quiet (n := c.ent.list.qlen) le_rfl rfl hquiet
  | inOrder =>
      rw [hc] at hcase
      obtain ⟨hl, hd⟩ := hcase
      have hnext := announce_next_inStep (hstep hl) hw hpos hheld hd (hjump' (.inl hc))
      have hwin : Window 4096 rx.Sequence 1 c.ent.BAWinSize (heldSeqs c.ent.list.next) :=
        (hheld.window_of_lt hl).rebase hl hs (by omega) (by omega)
      have hdone := indicateInOrderFrom_inStep (c := (c.setLastIndSeq rx.Sequence).announce rx) hw
        (.inr ⟨hs, hwin⟩) hnext
      dsimp only
      rw [indicate_quiet]
      · exact hdone.congr rfl rfl rfl
      · exact legacyFlushDue_of_quiet (n := c.ent.list.qlen) le_rfl htimer hquiet
  | duplicate =>
      rw [hc] at hcase
      exact hstep hcase.1
  | old =>
      rw [hc] at hcase
      exact hstep hcase.1
  | withinWin =>
      rw [hc] at hcase
      obtain ⟨hl, hd2, hdw⟩ := hcase
      exact enqueue_inStep osHz nowInd (hstep hl) hw (hheld.mono (by decide)) (by omega) hdw
        (fun hfl => (hflush hc hfl).1) (hjump' (.inr (.inl hc))) (htimer.symm ▸ hquiet)
  | surpassesWin =>
      rw [hc] at hcase
      obtain ⟨hl, -, hdw, hdh⟩ := hcase
      exact surpass_inStep osHz (hstep hl) hw hpos hheld hdw hdh (hjump' (.inr (.inr hc))) hquiet

end Mpdu

/-! ## Runs -/

/-- What a run keeps: the window of held frames, and the output in step with
it; before the first frame nothing has gone up. -/
structure SessionInv (c : RxCtx) : Prop extends EntrySound c.ent where
  pos : 1 ≤ c.ent.BAWinSize
  inStep : InStep c ∨ c.ent.LastIndSeq = resetRcvSeq ∧ c.up = []

theorem SessionInv.advances {c : RxCtx} (h : SessionInv c) : Advances c := by
  rcases h.inStep with hin | ⟨_, hup⟩
  · exact hin.ready.chain
  · unfold Advances
    rw [hup]
    exact List.IsChain.nil

theorem sessionStart_inv (timer : BitVec 32) (wcid : Fin 32) (tid : Fin 16)
    (bufSize limit timeOut : Nat) :
    SessionInv (sessionStart timer wcid tid bufSize limit timeOut) := by
  have hpos : 1 ≤ recWinSize bufSize limit := by
    unfold recWinSize
    dsimp only
    split <;> omega
  exact ⟨fill_sound rfl .., hpos, .inr ⟨rfl, rfl⟩⟩

/-- A BlockAckReq that names no held frame keeps in step. -/
theorem barAtEntry_inStep {c : RxCtx} {startSeq : Fin 4096} (hinv : SessionInv c)
    (hkeep : seqSmaller c.ent.LastIndSeq startSeq = true → (startSeq : Nat) ∉ heldSeqs c.held) :
    InStep (barAtEntry c startSeq)
      ∨ (barAtEntry c startSeq).ent.LastIndSeq = resetRcvSeq ∧ (barAtEntry c startSeq).up = [] := by
  unfold barAtEntry
  split
  · rename_i hsm
    refine .inl ?_
    have hs : (startSeq : Nat) < 4096 := startSeq.isLt
    rcases hinv.inStep with hin | ⟨hr, hup⟩
    · have hl := hin.last_lt
      have hw := hinv.ok.sizeLe
      have hwin := hinv.held.window_of_lt hl
      obtain ⟨hb, hle, hback⟩ := bar_before hl hs hsm
      have hdrop := leSeq_window hl hw hwin hs hle
      rw [leSeq_held] at hdrop
      refine leSeq_inStep hin (hwin.mono (by decide) le_rfl) (by omega) hb (fun x hx => ?_)
        (hdrop.mono (by omega) le_rfl)
      -- the named frame is not held, so up to it is up to the number before it
      have hx' : fwd 4096 c.ent.LastIndSeq x ≠ fwd 4096 c.ent.LastIndSeq startSeq := fun heq =>
        hkeep hsm ((fwd_left_inj hl (hwin.lt x hx) hs).mp heq ▸ hx)
      rw [leSeqTest_iff hl hs (hwin.lt x hx) hle ((hwin.high x hx).trans hw)]
      omega
    · have hnil := hinv.held.nil_of_reset hr
      refine ⟨?_, ?_⟩
      · change (if (startSeq : Nat) = 0 then maxSeq else (startSeq : Nat) - 1) < 4096
        simp only [maxSeq]
        split <;> omega
      · rw [baIndicateReorderingMpdusLeSeq_eq]
        change Ready 4096 2048 (upSeqs (c.up ++ (c.ent.list.next.take _).map _)) _ _
        rw [hup, hnil, List.take_nil]
        exact Ready.nil
  · exact hinv.inStep

/-- **One step** keeps the session in order. -/
theorem sessionStep_inv (osHz : Nat) {c : RxCtx} (op : SessionOp) (hinv : SessionInv c)
    (hquiet : NoTimeoutFlush osHz c op) (hkeep : KeepsOrder c op) :
    SessionInv (sessionStep osHz c op) := by
  cases op with
  | bar startSeq =>
      have hterms := barAtEntry_terms c startSeq
      obtain ⟨_, _, hsize, _, _⟩ := BaRecEntry.terms_eq_iff.mp hterms
      have hheld := barAtEntry_held startSeq hinv.ok.sizeLe hinv.held
      exact ⟨hinv.toEntrySound.of_terms hterms hheld, hsize ▸ hinv.pos, barAtEntry_inStep hinv hkeep⟩
  | mpdu freelist rx now32 nowInd =>
      show SessionInv (if rx.oversize then _ else _)
      split
      · exact ⟨hinv.toEntrySound, hinv.pos, hinv.inStep.imp (fun h => h.congr rfl rfl rfl) id⟩
      · rename_i hover
        obtain ⟨hflush, hjump⟩ := hkeep (by simpa using hover)
        have hterms := ampduAtEntry_terms osHz { c with pool := freelist } rx now32 nowInd
        obtain ⟨_, _, hsize, _, _⟩ := BaRecEntry.terms_eq_iff.mp hterms
        have harrive := flush_quiet (c := { c with pool := freelist }) hquiet.1 hquiet.2.1
        -- a step that keeps the output in order strands no held frame
        have hheld : HeldFrom 2 (ampduAtEntry osHz { c with pool := freelist } rx now32 nowInd).ent := by
          refine (ampduAtEntry_held_iff osHz (c := { c with pool := freelist }) rx now32 nowInd
            hinv.ok hinv.held).mpr ?_
          rintro (⟨hcase, hfl, hmem, _⟩ | ⟨_, hzero, _⟩)
          · rw [ampduArrive, harrive] at hcase hfl hmem
            exact (hflush hcase hfl).2 hmem
          · rw [ampduArrive, harrive] at hzero
            exact absurd hzero (Nat.ne_of_gt hinv.pos)
        refine ⟨hinv.toEntrySound.of_terms hterms hheld, hsize ▸ hinv.pos, .inl ?_⟩
        rw [ampduAtEntry, ampduArrive, harrive]
        exact ampduDeliver_inStep osHz ⟨hinv.ok.lastOk, hinv.ok.sizeLe⟩ hinv.pos
          (hinv.held.congr rfl rfl rfl) (hinv.inStep.imp (fun h => h.congr rfl rfl rfl) id) rfl
          hquiet.2.2 hflush hjump

/-- **In-order delivery**: over every run of a session's MPDUs and BlockAckReqs
without a time-out flush, whose steps keep order, the sequence numbers handed
up strictly advance. -/
theorem delivery_in_order (osHz : Nat) (timer : BitVec 32) (wcid : Fin 32) (tid : Fin 16)
    (bufSize limit timeOut : Nat) (ops : List SessionOp)
    (hquiet : Run.Along (sessionStep osHz) (NoTimeoutFlush osHz)
      (sessionStart timer wcid tid bufSize limit timeOut) ops)
    (hkeep : Run.Along (sessionStep osHz) KeepsOrder
      (sessionStart timer wcid tid bufSize limit timeOut) ops) :
    Run.Always (sessionStep osHz) Advances
      (sessionStart timer wcid tid bufSize limit timeOut) ops := by
  have hstart := sessionStart_inv timer wcid tid bufSize limit timeOut
  generalize sessionStart timer wcid tid bufSize limit timeOut = c at *
  refine Run.Always.mono (I := SessionInv) (fun _ h => h.advances) ?_
  refine Run.always_of_along (P := fun c op => NoTimeoutFlush osHz c op ∧ KeepsOrder c op)
    (fun c op hinv hp => sessionStep_inv osHz op hinv hp.1 hp.2) hstart ?_
  exact hquiet.and hkeep

/-- A free list of one block. -/
def oneBlock : ReorderingList := .ofList [⟨0, 0, 0, false, 0⟩]

/-- Frames out of order, a duplicate and a BlockAckReq. -/
theorem delivery_in_order_run :
    Run.Always (sessionStep 100) Advances (sessionStart 0 1 0 8 64 0)
      [.mpdu oneBlock (frameOf 4095 false) 0 0, .mpdu oneBlock (frameOf 1 false) 0 0,
        .mpdu oneBlock (frameOf 1 false) 0 0, .mpdu oneBlock (frameOf 0 false) 0 0,
        .bar 5, .mpdu oneBlock (frameOf 5 false) 0 0] :=
  delivery_in_order 100 0 1 0 8 64 0 _ (by decide) (by decide)

/-- Frame 3 is held when a BlockAckReq names it: it goes up, `LastIndSeq` steps
back to 2, and its retransmission goes up again. -/
theorem delivered_twice :
    ¬ ∀ (osHz : Nat) (timer : BitVec 32) (wcid : Fin 32) (tid : Fin 16)
        (bufSize limit timeOut : Nat) (ops : List SessionOp),
        Run.Along (sessionStep osHz) (NoTimeoutFlush osHz)
          (sessionStart timer wcid tid bufSize limit timeOut) ops →
        Run.Always (sessionStep osHz) Advances
          (sessionStart timer wcid tid bufSize limit timeOut) ops := by
  intro h
  have hlast := (h 100 0 1 0 8 64 0 [.mpdu oneBlock (frameOf 0 false) 0 0,
    .mpdu oneBlock (frameOf 3 false) 0 0, .bar 3, .mpdu oneBlock (frameOf 3 false) 0 0]
    (by decide)).last
  revert hlast
  decide

end ExtDrv.Rt3370
