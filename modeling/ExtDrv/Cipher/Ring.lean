import ExtDrv.Cipher.Queue
import Mathlib.Data.Fintype.Card
import Mathlib.Tactic.FinCases

/-!
# The node ring of a multi-packet channel

Two counters move independently: `IBUF_CNT` goes down when the engine
finishes a node, `OFULL_CNT` goes down when the interrupt routine
acknowledges it. `RingInv` ties both, and the three ring indices, to the
history of the channel. `SlotSafe` says that the slots of the nodes not yet
acknowledged are theirs alone and hold what their submit wrote.
-/

namespace ExtDrv.Cipher

open RingBuf Run

variable {Cb : Type}

/-! ## Counting -/

/-- The count registers and ring indices, against the history. -/
structure RingInv (v : ChanView Cb) : Prop where
  queued : v.regs.ibufCnt + v.hist.finished = v.hist.nodes.length
  full : v.regs.ofullCnt + v.hist.acked = v.hist.finished
  inPtr : v.chan.unInData.u32CurrentPtr = slotAt 0 v.hist.nodes.length
  outPtr : v.chan.unOutData.u32CurrentPtr = slotAt 0 v.hist.acked
  readPtr : v.regs.srcLstRaddr = slotAt 0 v.hist.finished
  slots : ∀ k (h : k < v.hist.nodes.length), v.hist.nodes[k].slot = slotAt 0 k

namespace RingInv

variable {v v' : ChanView Cb}

/-- What the counts and indices are counted of. -/
theorem congr (h : RingInv v) (hchan : v'.chan = v.chan) (hhist : v'.hist = v.hist)
    (hin : v'.regs.ibufCnt = v.regs.ibufCnt) (hout : v'.regs.ofullCnt = v.regs.ofullCnt)
    (hread : v'.regs.srcLstRaddr = v.regs.srcLstRaddr) : RingInv v' where
  queued := by
    rw [hin, hhist]
    exact h.queued
  full := by
    rw [hout, hhist]
    exact h.full
  inPtr := by
    rw [hchan, hhist]
    exact h.inPtr
  outPtr := by
    rw [hchan, hhist]
    exact h.outPtr
  readPtr := by
    rw [hread, hhist]
    exact h.readPtr
  slots := by
    rw [hhist]
    exact h.slots

/-- The nodes not acknowledged are those the engine has and those it is done
with. -/
theorem unacked_length (h : RingInv v) :
    v.hist.unacked.length = v.regs.ibufCnt + v.regs.ofullCnt := by
  have h1 := h.queued
  have h2 := h.full
  simp only [ChanHist.unacked, List.length_drop]
  omega

theorem unacked_slot (h : RingInv v) (i : Nat) (hi : i < v.hist.unacked.length) :
    v.hist.unacked[i].slot = slotAt v.chan.unOutData.u32CurrentPtr i := by
  simp only [ChanHist.unacked, List.length_drop] at hi
  simp only [ChanHist.unacked, List.getElem_drop]
  rw [h.slots _ (by omega), h.outPtr, slotAt_slotAt]

/-- The submit index is the first slot past the unacknowledged nodes. -/
theorem inPtr_eq (h : RingInv v) :
    v.chan.unInData.u32CurrentPtr
      = slotAt v.chan.unOutData.u32CurrentPtr v.hist.unacked.length := by
  have h1 := h.queued
  have h2 := h.full
  rw [h.inPtr, h.outPtr, slotAt_slotAt, h.unacked_length]
  congr 1
  omega

theorem accept (h : RingInv v) {c : Chn} (pTask : CipherTask) (soft : CipherSoftChan Cb) :
    RingInv (v.accept c pTask soft) where
  queued := by
    have := h.queued
    simp only [ChanView.accept, List.length_append, List.length_singleton]
    omega
  full := h.full
  inPtr := by
    simp only [ChanView.accept, submitChan, List.length_append, List.length_singleton]
    rw [h.inPtr, wrapSucc_slotAt]
  outPtr := h.outPtr
  readPtr := h.readPtr
  slots := by
    intro k hk
    simp only [ChanView.accept, List.length_append, List.length_singleton] at hk
    simp only [ChanView.accept]
    rcases Nat.lt_or_ge k v.hist.nodes.length with hlt | hge
    · rw [List.getElem_append_left hlt]
      exact h.slots k hlt
    · have hk' : k = v.hist.nodes.length := by omega
      subst hk'
      simp [nodeAt, h.inPtr]

theorem reject (h : RingInv v) (soft : CipherSoftChan Cb) : RingInv (v.reject soft) :=
  ⟨h.queued, h.full, h.inPtr, h.outPtr, h.readPtr, h.slots⟩

theorem engine (h : RingInv v) : RingInv v.engine := by
  have h1 := h.queued
  have h2 := h.full
  unfold ChanView.engine
  split
  · exact h
  · refine ⟨?_, ?_, h.inPtr, h.outPtr, ?_, h.slots⟩
    · simp only
      omega
    · simp only
      omega
    · simp only [h.readPtr, wrapSucc_slotAt]

theorem ack (h : RingInv v) {slots : Fin ciMaxListNum → HiU32} {idx : Fin ciMaxListNum}
    {calls : List (Cb × HiU32)}
    (hidx : idx = slotAt v.chan.unOutData.u32CurrentPtr v.regs.ofullCnt) :
    RingInv (v.ack slots idx calls) := by
  have h2 := h.full
  refine ⟨h.queued, ?_, h.inPtr, ?_, h.readPtr, h.slots⟩
  · simp only [ChanView.ack]
    omega
  · simp only [ChanView.ack, hidx, h.outPtr, slotAt_slotAt]

theorem config (h : RingInv v) (c : Chn) (pConfig : HiUnfCipherCtrl) (f : Cb) :
    RingInv (v.config c pConfig f) :=
  h.congr rfl rfl rfl rfl rfl

end RingInv

/-! ## The slots -/

/-- The slots of the unacknowledged nodes are pairwise different, and each
holds what the submit of its node wrote: the two list entries, the soft
channel and the callback argument. -/
structure SlotSafe (c : Chn) (v : ChanView Cb) : Prop where
  distinct : (v.hist.unacked.map Node.slot).Nodup
  inBuf : ∀ n ∈ v.hist.unacked, v.chan.pstInBuf n.slot = n.inEntry
  outBuf : ∀ n ∈ v.hist.unacked, v.chan.pstOutBuf n.slot = n.outEntry
  witchSoftChn :
    ∀ n ∈ v.hist.unacked, v.chan.au32WitchSoftChn n.slot = BitVec.ofNat 32 c.val
  callBackArg : ∀ n ∈ v.hist.unacked, v.chan.au32CallBackArg n.slot = n.u32CallBackArg

namespace SlotSafe

variable {c : Chn} {v v' : ChanView Cb}

theorem congr (h : SlotSafe c v) (hchan : v'.chan = v.chan) (hhist : v'.hist = v.hist) :
    SlotSafe c v' where
  distinct := by
    rw [hhist]
    exact h.distinct
  inBuf := by
    rw [hchan, hhist]
    exact h.inBuf
  outBuf := by
    rw [hchan, hhist]
    exact h.outBuf
  witchSoftChn := by
    rw [hchan, hhist]
    exact h.witchSoftChn
  callBackArg := by
    rw [hchan, hhist]
    exact h.callBackArg

/-- A ring of `ciMaxListNum` slots has room for no more nodes than that. -/
theorem unacked_le (h : SlotSafe c v) : v.hist.unacked.length ≤ ciMaxListNum := by
  have hcard := h.distinct.length_le_card
  simpa using hcard

/-- Nodes no more than the ring has slots sit in different slots. -/
theorem distinct_of_le (hr : RingInv v) (hle : v.hist.unacked.length ≤ ciMaxListNum) :
    (v.hist.unacked.map Node.slot).Nodup := by
  rw [List.nodup_iff_injective_get]
  intro i j hij
  have hi : i.val < v.hist.unacked.length := by simpa using i.isLt
  have hj : j.val < v.hist.unacked.length := by simpa using j.isLt
  simp only [List.get_eq_getElem, List.getElem_map, hr.unacked_slot i.val hi,
    hr.unacked_slot j.val hj] at hij
  exact Fin.ext (slotAt_inj (by omega) (by omega) hij)

/-- With room in the ring, no unacknowledged node sits where a submit would
write. -/
theorem slot_ne (hr : RingInv v) (hlt : v.hist.unacked.length < ciMaxListNum)
    {n : Node} (hn : n ∈ v.hist.unacked) : n.slot ≠ v.chan.unInData.u32CurrentPtr := by
  obtain ⟨i, hi, rfl⟩ := List.getElem_of_mem hn
  intro heq
  rw [hr.unacked_slot i hi, hr.inPtr_eq] at heq
  have := slotAt_inj (by omega) hlt heq
  omega

/-- **Submit**: with fewer unacknowledged nodes than slots, a submit writes
no slot of theirs. -/
theorem accept (hr : RingInv v) (h : SlotSafe c v) (pTask : CipherTask)
    (soft : CipherSoftChan Cb) (hlt : v.hist.unacked.length < ciMaxListNum) :
    SlotSafe c (v.accept c pTask soft) := by
  have hacked : v.hist.acked ≤ v.hist.nodes.length := by
    have h1 := hr.queued
    have h2 := hr.full
    omega
  have hun : (v.accept c pTask soft).hist.unacked
      = v.hist.unacked ++ [nodeAt v.chan.unInData.u32CurrentPtr pTask soft.stCtrl
          (v.accept c pTask soft).chan] := by
    simp only [ChanView.accept, ChanHist.unacked]
    rw [List.drop_append_of_le_length hacked]
  refine ⟨distinct_of_le (hr.accept (c := c) pTask soft) ?_, ?_, ?_, ?_, ?_⟩
  · rw [hun]
    simp only [List.length_append, List.length_singleton]
    omega
  all_goals
    rw [hun]
    intro n hn
    rcases List.mem_append.mp hn with hold | hnew
  · simp only [ChanView.accept, submitChan, fillNode,
      Function.update_of_ne (slot_ne hr hlt hold)]
    exact h.inBuf n hold
  · rw [List.mem_singleton.mp hnew]
    rfl
  · simp only [ChanView.accept, submitChan, fillNode,
      Function.update_of_ne (slot_ne hr hlt hold)]
    exact h.outBuf n hold
  · rw [List.mem_singleton.mp hnew]
    rfl
  · simp only [ChanView.accept, submitChan, fillNode,
      Function.update_of_ne (slot_ne hr hlt hold)]
    exact h.witchSoftChn n hold
  · rw [List.mem_singleton.mp hnew]
    simp [ChanView.accept, submitChan, nodeAt, fillNode]
  · simp only [ChanView.accept, submitChan, fillNode,
      Function.update_of_ne (slot_ne hr hlt hold)]
    exact h.callBackArg n hold
  · rw [List.mem_singleton.mp hnew]
    simp [ChanView.accept, submitChan, nodeAt, fillNode]

/-- A submit into a ring full of unacknowledged nodes takes a slot twice. -/
theorem not_accept (hr : RingInv v) (pTask : CipherTask) (soft : CipherSoftChan Cb)
    (hge : ciMaxListNum ≤ v.hist.unacked.length) :
    ¬ SlotSafe c (v.accept c pTask soft) := by
  intro h
  have hle := h.unacked_le
  have hlen := (hr.accept (c := c) pTask soft).unacked_length
  have hlen' := hr.unacked_length
  simp only [ChanView.accept] at hlen hle
  omega

theorem reject (h : SlotSafe c v) (soft : CipherSoftChan Cb) : SlotSafe c (v.reject soft) :=
  ⟨h.distinct, h.inBuf, h.outBuf, h.witchSoftChn, h.callBackArg⟩

theorem engine (h : SlotSafe c v) : SlotSafe c v.engine := by
  unfold ChanView.engine
  split
  · exact h
  · exact ⟨h.distinct, h.inBuf, h.outBuf, h.witchSoftChn, h.callBackArg⟩

theorem config (h : SlotSafe c v) (pConfig : HiUnfCipherCtrl) (f : Cb) :
    SlotSafe c (v.config c pConfig f) :=
  h.congr rfl rfl

/-- The soft channel slots from the completion index on, as a queue. -/
theorem holds (hr : RingInv v) (h : SlotSafe c v) :
    Holds v.chan.au32WitchSoftChn v.chan.unOutData.u32CurrentPtr
      (List.replicate v.hist.unacked.length (BitVec.ofNat 32 c.val)) := by
  intro i hi
  rw [List.length_replicate] at hi
  rw [← hr.unacked_slot i hi, List.getElem_replicate]
  exact h.witchSoftChn _ (List.getElem_mem hi)

/-- **Acknowledge**: the completion loop reads valid soft channels only, all
of them `c`, and leaves the slots of the other nodes alone. -/
theorem ack (hr : RingInv v) (h : SlotSafe c v) (soft : Chn → CipherSoftChan Cb) :
    ∃ slots idx, dataDoneLoop soft v.regs.ofullCnt v.chan.au32WitchSoftChn
        v.chan.unOutData.u32CurrentPtr
          = some (slots, idx, (List.replicate v.regs.ofullCnt (callBack (soft c))).flatten)
      ∧ idx = slotAt v.chan.unOutData.u32CurrentPtr v.regs.ofullCnt
      ∧ ∀ calls, SlotSafe c (v.ack slots idx calls) := by
  have hlen := hr.unacked_length
  have hle := h.unacked_le
  -- the finished nodes come first, those still queued behind them
  have hsplit : List.replicate v.hist.unacked.length (BitVec.ofNat 32 c.val)
      = List.replicate v.regs.ofullCnt (BitVec.ofNat 32 c.val)
        ++ List.replicate v.regs.ibufCnt (BitVec.ofNat 32 c.val) := by
    rw [List.replicate_append_replicate, hlen, Nat.add_comm]
  have hholds := holds hr h
  rw [hsplit] at hholds
  obtain ⟨slots, hloop, hrest⟩ := dataDoneLoop_of_holds soft c v.regs.ofullCnt hholds
    (by rw [List.length_replicate]; omega)
  refine ⟨slots, _, hloop, rfl, ?_⟩
  intro calls
  have hr' : RingInv (v.ack slots (slotAt v.chan.unOutData.u32CurrentPtr v.regs.ofullCnt)
      calls) := hr.ack rfl
  have hun : (v.ack slots (slotAt v.chan.unOutData.u32CurrentPtr v.regs.ofullCnt)
      calls).hist.unacked = v.hist.unacked.drop v.regs.ofullCnt := by
    simp [ChanView.ack, ChanHist.unacked, List.drop_drop]
  have hlen' := hr'.unacked_length
  have hsub : ∀ n ∈ v.hist.unacked.drop v.regs.ofullCnt, n ∈ v.hist.unacked :=
    fun n hn => List.mem_of_mem_drop hn
  refine ⟨distinct_of_le hr' (by rw [hun, List.length_drop]; omega), ?_, ?_, ?_, ?_⟩
  · rw [hun]
    exact fun n hn => h.inBuf n (hsub n hn)
  · rw [hun]
    exact fun n hn => h.outBuf n (hsub n hn)
  · intro n hn
    obtain ⟨i, hi, rfl⟩ := List.getElem_of_mem hn
    rw [hr'.unacked_slot i hi]
    have hi' : i < v.regs.ibufCnt := by
      have hz : (v.ack slots (slotAt v.chan.unOutData.u32CurrentPtr v.regs.ofullCnt)
        calls).regs.ofullCnt = 0 := rfl
      have hb : (v.ack slots (slotAt v.chan.unOutData.u32CurrentPtr v.regs.ofullCnt)
        calls).regs.ibufCnt = v.regs.ibufCnt := rfl
      omega
    have := hrest i (by simpa using hi')
    simpa [ChanView.ack] using this
  · rw [hun]
    exact fun n hn => h.callBackArg n (hsub n hn)

end SlotSafe

/-! ## Runs -/

/-- The driver after `DRV_Cipher_Init`, with every multi-packet channel opened
and configured. -/
def drvStart (ctrl : Chn → HiU32) (key : Chn → Vector HiU32 8)
    (pConfig : Chn → HiUnfCipherCtrl) (f : Chn → Cb) : DrvRun Cb :=
  let r : DrvRun Cb := { st := drvCipherInit ctrl key, hist := fun _ => .empty, fault := false }
  let r := exec drvStep r (multiPkgChns.map .openChn)
  exec drvStep r (multiPkgChns.map fun c => .configChn c (pConfig c) (f c))

/-- Every soft channel drives the hardware channel of its number, and the
rings are counted right. -/
structure RunInv (r : DrvRun Cb) : Prop where
  hw : ∀ c, (r.view c).soft.u32HardWareChn = c
  ring : ∀ c, c ≠ ciPkgx1Chan → RingInv (r.view c)

/-- No soft channel index was out of bounds, and on every multi-packet channel
the slots of the unacknowledged nodes are safe. -/
structure RunSafe (r : DrvRun Cb) : Prop where
  noFault : r.fault = false
  slots : ∀ c, c ≠ ciPkgx1Chan → SlotSafe c (r.view c)

/-- The submit finds a slot that no unacknowledged node has: `IN_CNT` and
`OUT_FULL` together are below the ring size, or the ring is reported full. -/
def SubmitRoom (r : DrvRun Cb) : DrvOp Cb → Prop
  | .creatTask c _ _ _ _ => c ≠ ciPkgx1Chan →
      (r.st.regs.chan c).ibufCnt < ciMaxListNum →
      (r.st.regs.chan c).ibufCnt + (r.st.regs.chan c).ofullCnt < ciMaxListNum
  | _ => True

theorem drvStart_runInv (ctrl : Chn → HiU32) (key : Chn → Vector HiU32 8)
    (pConfig : Chn → HiUnfCipherCtrl) (f : Chn → Cb) :
    RunInv (drvStart ctrl key pConfig f) := by
  refine ⟨?_, ?_⟩
  · intro c
    fin_cases c <;> rfl
  · intro c hc
    fin_cases c
    · exact absurd rfl hc
    all_goals exact ⟨rfl, rfl, rfl, rfl, rfl, fun k hk => absurd hk (Nat.not_lt_zero k)⟩

theorem drvStart_runSafe (ctrl : Chn → HiU32) (key : Chn → Vector HiU32 8)
    (pConfig : Chn → HiUnfCipherCtrl) (f : Chn → Cb) :
    RunSafe (drvStart ctrl key pConfig f) := by
  refine ⟨rfl, ?_⟩
  intro c _
  have hun : ((drvStart ctrl key pConfig f).view c).hist.unacked = [] := rfl
  refine ⟨by rw [hun]; exact List.nodup_nil, ?_, ?_, ?_, ?_⟩ <;>
    (rw [hun]; intro n hn; exact absurd hn List.not_mem_nil)

section Steps

variable {r r' : DrvRun Cb} {c : Chn}

/-- A step that acts on one channel re-establishes `RunInv` there. -/
theorem RunInv.of_view (h : RunInv r) (hne : ∀ d, d ≠ c → r'.view d = r.view d)
    (hw : (r'.view c).soft.u32HardWareChn = c)
    (hring : c ≠ ciPkgx1Chan → RingInv (r'.view c)) : RunInv r' := by
  refine ⟨?_, ?_⟩
  · intro d
    by_cases hd : d = c
    · rw [hd, hw]
    · rw [hne d hd, h.hw d]
  · exact forall_view_of_ne h.ring hne hring

/-- A step that acts on one channel is safe when it is safe there. -/
theorem RunSafe.of_view (h : RunSafe r) (hne : ∀ d, d ≠ c → r'.view d = r.view d)
    (hf : r'.fault = r.fault) (hslots : c ≠ ciPkgx1Chan → SlotSafe c (r'.view c)) :
    RunSafe r' :=
  ⟨hf.trans h.noFault, forall_view_of_ne h.slots hne hslots⟩

/-- What an acknowledgement does in a safe run: the calls of the finished
nodes, all through the soft channel of the ring. -/
theorem view_runDataDone_of_safe (hc : c ≠ ciPkgx1Chan) (hi : RingInv (r.view c))
    (hs : SlotSafe c (r.view c)) :
    ∃ slots, (runDataDone c r).view c
        = (r.view c).ack slots
            (slotAt (r.view c).chan.unOutData.u32CurrentPtr (r.view c).regs.ofullCnt)
            (List.replicate (r.view c).regs.ofullCnt (callBack (r.view c).soft)).flatten
      ∧ (runDataDone c r).fault = r.fault
      ∧ SlotSafe c ((runDataDone c r).view c) := by
  have hlen := hi.unacked_length
  have hle : (r.view c).hist.unacked.length ≤ 128 := hs.unacked_le
  obtain ⟨slots, idx, hloop, hidx, hsafe⟩ := SlotSafe.ack hi hs r.st.g_stCipherSoftChans
  obtain ⟨hview, hf⟩ := view_runDataDone r hc (by omega) hloop
  refine ⟨slots, ?_, hf, ?_⟩
  · rw [hview, hidx]
    rfl
  · rw [hview]
    exact hsafe _

/-- An acknowledgement keeps a safe run safe. -/
theorem runDataDone_safe (c : Chn) (h : RunInv r ∧ RunSafe r) :
    RunInv (runDataDone c r) ∧ RunSafe (runDataDone c r) := by
  obtain ⟨hi, hs⟩ := h
  have hne : ∀ d, d ≠ c → (runDataDone c r).view d = r.view d :=
    fun d hd => view_runDataDone_ne r hd
  have hw : ((runDataDone c r).view c).soft.u32HardWareChn = c := by
    rw [view_soft, runDataDone_soft]
    exact hi.hw c
  by_cases hc : c = ciPkgx1Chan
  · refine ⟨hi.of_view hne hw fun h => absurd hc h, ?_⟩
    refine hs.of_view hne ?_ fun h => absurd hc h
    rw [hc]
    exact runDataDone_pkgx1_fault r
  · obtain ⟨slots, hview, hf, hsafe⟩ := view_runDataDone_of_safe hc (hi.ring c hc) (hs.slots c hc)
    refine ⟨hi.of_view hne hw ?_, hs.of_view hne hf fun _ => hsafe⟩
    intro _
    rw [hview]
    exact (hi.ring c hc).ack rfl

/-- The interrupt routine keeps a safe run safe. -/
theorem runIsr_safe (INTValue : HiU32) (h : RunInv r ∧ RunSafe r) :
    RunInv (runIsr INTValue r) ∧ RunSafe (runIsr INTValue r) :=
  runIsr_inv (I := fun r => RunInv r ∧ RunSafe r) r (fun c _ => runDataDone_safe c)
    INTValue h

/-- Every step keeps the counting. -/
theorem RunInv.step (hi : RunInv r) (hs : RunSafe r) (op : DrvOp Cb) :
    RunInv (drvStep r op) := by
  cases op with
  | openChn c =>
      refine hi.of_view (fun d hd => view_openChn_ne r hd)
        (by simp [drvStep, drvCipherOpenChn]) ?_
      intro hc
      have h := hi.ring c hc
      rw [view_openChn r hc]
      exact ⟨h.queued, h.full, h.inPtr, h.outPtr, h.readPtr, h.slots⟩
  | closeChn c =>
      refine hi.of_view (fun d hd => view_closeChn_ne r hd) ?_ ?_
      · rw [view_closeChn]
        exact hi.hw c
      · intro hc
        have h := hi.ring c hc
        rw [view_closeChn]
        exact ⟨h.queued, h.full, h.inPtr, h.outPtr, h.readPtr, h.slots⟩
  | configChn c pConfig f =>
      refine hi.of_view (fun d hd => view_configChn_ne r hd (hi.hw c) pConfig f) ?_ ?_
      · rw [view_soft, drvStep, drvCipherConfigChn]
        simp only [setSoft_soft_self]
        exact hi.hw c
      · intro hc
        rw [view_configChn r (hi.hw c) hc]
        exact (hi.ring c hc).config c pConfig f
  | creatTask c pTask pKey pIV idle =>
      refine hi.of_view (fun d hd => view_runCreatTask_ne r hd (hi.hw c) pTask pKey pIV idle)
        (runCreatTask_hw r hi.hw pTask pKey pIV idle c) ?_
      intro hc
      rw [drvStep, view_runCreatTask r hc (hi.hw c)]
      split
      · exact (hi.ring c hc).accept pTask _
      · exact (hi.ring c hc).reject _
  | engine c =>
      refine hi.of_view (fun d hd => view_runEngine_ne r hd) ?_ ?_
      · rw [drvStep, view_runEngine, ChanView.engine]
        split <;> exact hi.hw c
      · intro hc
        rw [drvStep, view_runEngine]
        exact (hi.ring c hc).engine
  | dataDone c => exact (runDataDone_safe c ⟨hi, hs⟩).1
  | isr INTValue => exact (runIsr_safe INTValue ⟨hi, hs⟩).1

theorem runCreatTask_fault (pTask : CipherTask) (pKey : Option (Vector HiU32 8))
    (pIV : Option (Vector HiU32 4)) (idle : Bool) :
    (runCreatTask c pTask pKey pIV idle r).fault = r.fault := by
  simp only [runCreatTask]
  split <;> rfl

theorem runEngine_fault : (runEngine c r).fault = r.fault := by
  simp only [runEngine]
  split <;> rfl

/-- A submit keeps a safe run safe exactly when it finds room. -/
theorem RunSafe.creatTask_iff (hi : RunInv r) (hs : RunSafe r) (pTask : CipherTask)
    (pKey : Option (Vector HiU32 8)) (pIV : Option (Vector HiU32 4)) (idle : Bool) :
    RunSafe (drvStep r (.creatTask c pTask pKey pIV idle))
      ↔ SubmitRoom r (.creatTask c pTask pKey pIV idle) := by
  have hne : ∀ d, d ≠ c →
      (drvStep r (.creatTask c pTask pKey pIV idle)).view d = r.view d :=
    fun d hd => view_runCreatTask_ne r hd (hi.hw c) pTask pKey pIV idle
  have hf : (drvStep r (.creatTask c pTask pKey pIV idle)).fault = r.fault :=
    runCreatTask_fault pTask pKey pIV idle
  by_cases hc : c = ciPkgx1Chan
  · exact iff_of_true (hs.of_view hne hf fun h => absurd hc h) fun h => absurd hc h
  have hring := hi.ring c hc
  have hlen := hring.unacked_length
  have hview := view_runCreatTask r hc (hi.hw c) pTask pKey pIV idle
  simp only [SubmitRoom]
  rcases Nat.lt_or_ge (r.view c).regs.ibufCnt ciMaxListNum with hlt | hge
  · rw [if_pos hlt] at hview
    constructor
    -- without room the slot taken is that of an unacknowledged node
    · intro h _ _
      have hsafe := h.slots c hc
      rw [drvStep, hview] at hsafe
      by_contra hge
      exact SlotSafe.not_accept hring pTask _
        (by rw [hlen]; exact Nat.not_lt.mp hge) hsafe
    · intro h
      have hroom : (r.view c).hist.unacked.length < ciMaxListNum := by
        rw [hlen]
        exact h hc hlt
      refine hs.of_view hne hf fun _ => ?_
      rw [drvStep, hview]
      exact SlotSafe.accept hring (hs.slots c hc) pTask _ hroom
  · rw [if_neg (by omega)] at hview
    refine iff_of_true (hs.of_view hne hf fun _ => ?_) ?_
    · rw [drvStep, hview]
      exact (hs.slots c hc).reject _
    · intro _ hlt
      exact absurd hlt (Nat.not_lt.mpr hge)

/-- **One step**: from a safe run, a step stays safe exactly when a submit
finds room. -/
theorem RunSafe.step_iff (hi : RunInv r) (hs : RunSafe r) (op : DrvOp Cb) :
    RunSafe (drvStep r op) ↔ SubmitRoom r op := by
  cases op with
  | openChn c =>
      refine iff_of_true (hs.of_view (fun d hd => view_openChn_ne r hd) rfl ?_) trivial
      intro hc
      have h := hs.slots c hc
      rw [view_openChn r hc]
      exact ⟨h.distinct, h.inBuf, h.outBuf, h.witchSoftChn, h.callBackArg⟩
  | closeChn c =>
      refine iff_of_true (hs.of_view (fun d hd => view_closeChn_ne r hd) rfl ?_) trivial
      intro hc
      have h := hs.slots c hc
      rw [view_closeChn]
      exact ⟨h.distinct, h.inBuf, h.outBuf, h.witchSoftChn, h.callBackArg⟩
  | configChn c pConfig f =>
      refine iff_of_true (hs.of_view
        (fun d hd => view_configChn_ne r hd (hi.hw c) pConfig f) rfl ?_) trivial
      intro hc
      rw [view_configChn r (hi.hw c) hc]
      exact (hs.slots c hc).config pConfig f
  | creatTask c pTask pKey pIV idle => exact RunSafe.creatTask_iff hi hs pTask pKey pIV idle
  | engine c =>
      refine iff_of_true
        (hs.of_view (fun d hd => view_runEngine_ne r hd) runEngine_fault ?_) trivial
      intro hc
      rw [drvStep, view_runEngine]
      exact (hs.slots c hc).engine
  | dataDone c => exact iff_of_true (runDataDone_safe c ⟨hi, hs⟩).2 trivial
  | isr INTValue =>
      exact iff_of_true (runIsr_safe INTValue ⟨hi, hs⟩).2 trivial

end Steps

/-- **Ring slot safety**: a run of the driver never takes the slot of a node
the interrupt routine has not acknowledged, and never reads an invalid soft
channel from a slot, exactly when every submit finds room in the sense of
`SubmitRoom`. The driver only looks at `IN_CNT`. -/
theorem slots_safe_iff_submits_have_room (ctrl : Chn → HiU32) (key : Chn → Vector HiU32 8)
    (pConfig : Chn → HiUnfCipherCtrl) (f : Chn → Cb) (ops : List (DrvOp Cb)) :
    Always drvStep RunSafe (drvStart ctrl key pConfig f) ops
      ↔ Along drvStep SubmitRoom (drvStart ctrl key pConfig f) ops := by
  have hi := drvStart_runInv ctrl key pConfig f
  have hs := drvStart_runSafe ctrl key pConfig f
  generalize drvStart ctrl key pConfig f = r at hi hs
  exact always_iff_along_of_inv (J := RunInv) (fun _ a hi hs _ => hi.step hs a)
    (fun _ a hi hs => hs.step_iff hi a) hi hs

section FullRing

/-- A task with callback argument `arg`. -/
def zeroTask (arg : HiU32) : CipherTask :=
  ⟨⟨0, 0, 0, false, Vector.replicate 4 0⟩, arg⟩

/-- The driver with every channel configured to `zeroCtrl` and one callback. -/
def zeroStart : DrvRun Unit :=
  drvStart (fun _ => 0) (fun _ => Vector.replicate 8 0) (fun _ => zeroCtrl) (fun _ => ())

/-- Submits alone fill the ring one node at a time. -/
theorem exec_submits (op : DrvOp Unit) (hop : op = .creatTask 1 (zeroTask 1) none none true)
    (n : Nat) (hn : n ≤ ciMaxListNum) :
    RunInv (exec drvStep zeroStart (List.replicate n op))
      ∧ RunSafe (exec drvStep zeroStart (List.replicate n op))
      ∧ ((exec drvStep zeroStart (List.replicate n op)).view 1).regs.ibufCnt = n
      ∧ ((exec drvStep zeroStart (List.replicate n op)).view 1).regs.ofullCnt = 0 := by
  induction n with
  | zero =>
      rw [List.replicate_zero, exec_nil, zeroStart]
      exact ⟨drvStart_runInv _ _ _ _, drvStart_runSafe _ _ _ _, rfl, rfl⟩
  | succ n ih =>
      obtain ⟨hi, hs, hb, hf⟩ := ih (by omega)
      rw [List.replicate_succ', exec_append, exec_cons, exec_nil]
      generalize exec drvStep zeroStart (List.replicate n op) = r at hi hs hb hf
      have hroom : SubmitRoom r op := by
        rw [hop]
        intro _ _
        rw [view_regs] at hb hf
        omega
      have hview := view_runCreatTask r (c := 1) (by decide) (hi.hw 1) (zeroTask 1) none none
        true
      rw [if_pos (by omega)] at hview
      refine ⟨hi.step hs op, (RunSafe.step_iff hi hs op).mpr hroom, ?_, ?_⟩
      · rw [hop, drvStep, hview]
        simp only [ChanView.accept, hb]
      · rw [hop, drvStep, hview]
        exact hf

/-- 128 submits, the engine finishes the first node, one submit more: it is
accepted, and takes the slot of the finished node before the interrupt
routine has seen it. -/
theorem full_ring_slot_taken_twice :
    ¬ Always drvStep RunSafe zeroStart
      (List.replicate 128 (.creatTask 1 (zeroTask 1) none none true)
        ++ [.engine 1, .creatTask 1 (zeroTask 1) none none true]) := by
  intro h
  have hlast := h.last
  -- the ring after 128 submits, then the two steps that break it
  obtain ⟨hi, hs, hb, hf⟩ := exec_submits _ rfl 128 (Nat.le_refl _)
  rw [exec_append] at hlast
  generalize exec drvStep zeroStart (List.replicate 128 _) = r at hi hs hb hf hlast
  rw [exec_cons, exec_cons, exec_nil] at hlast
  have hs' : RunSafe (drvStep r (.engine 1)) := (RunSafe.step_iff hi hs _).mpr trivial
  have hroom := (RunSafe.step_iff (hi.step hs (.engine 1)) hs' _).mp hlast
  have hview : (drvStep r (.engine 1)).view 1 = (r.view 1).engine := view_runEngine r
  have hb' : ((drvStep r (.engine 1)).view 1).regs.ibufCnt = 127 := by
    rw [hview]
    simp only [ChanView.engine, hb]
    rfl
  have hf' : ((drvStep r (.engine 1)).view 1).regs.ofullCnt = 1 := by
    rw [hview]
    simp only [ChanView.engine, hb, hf]
    rfl
  rw [view_regs] at hb' hf'
  simp only [SubmitRoom, hb', hf'] at hroom
  exact absurd (hroom (by decide) (by decide)) (by decide)

end FullRing

end ExtDrv.Cipher
