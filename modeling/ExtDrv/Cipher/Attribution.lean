import ExtDrv.Cipher.Ring

/-!
# Whose completion is reported

The submit stores the callback argument of a task twice: in the slot of its
node (`au32CallBackArg`) and in the soft channel (`u32PirvateData`). The
completion loop passes the soft channel's copy, which is the argument of the
task submitted last. Completions carry the right argument as long as all
outstanding tasks of a channel share it.
-/

namespace ExtDrv.Cipher

open RingBuf Run

variable {Cb : Type}

/-- The calls made for a channel are those of its acknowledged nodes, one
each, in order, with the argument the task of the node was created with. -/
structure Attributed (f : Chn → Cb) (r : DrvRun Cb) : Prop where
  noFault : r.fault = false
  calls : ∀ c, c ≠ ciPkgx1Chan → (r.hist c).calls
    = ((r.hist c).nodes.take (r.hist c).acked).map fun n => (f c, n.u32CallBackArg)

/-- An accepted submit finds room in the sense of `SubmitRoom`, and every
node not acknowledged yet was submitted with the same argument. A callback
registered anew is the one registered before. -/
def SameArg (f : Chn → Cb) (r : DrvRun Cb) : DrvOp Cb → Prop
  | .creatTask c pTask _ _ _ => c ≠ ciPkgx1Chan →
      (r.st.regs.chan c).ibufCnt < ciMaxListNum →
      (r.st.regs.chan c).ibufCnt + (r.st.regs.chan c).ofullCnt < ciMaxListNum
        ∧ ∀ n ∈ (r.hist c).unacked, n.u32CallBackArg = pTask.u32CallBackArg
  | .configChn c _ g => g = f c
  | _ => True

instance SameArg.decidable [DecidableEq Cb] (f : Chn → Cb) (r : DrvRun Cb) :
    ∀ op, Decidable (SameArg f r op)
  | .creatTask c pTask _ _ _ => inferInstanceAs (Decidable (c ≠ ciPkgx1Chan →
      (r.st.regs.chan c).ibufCnt < ciMaxListNum →
      (r.st.regs.chan c).ibufCnt + (r.st.regs.chan c).ofullCnt < ciMaxListNum
        ∧ ∀ n ∈ (r.hist c).unacked, n.u32CallBackArg = pTask.u32CallBackArg))
  | .configChn c _ g => inferInstanceAs (Decidable (g = f c))
  | .openChn _ | .closeChn _ | .engine _ | .dataDone _ | .isr _ => .isTrue trivial

/-- The channel's callback is `f`, its calls are right so far, and every
outstanding node has the argument the completion loop will pass. -/
structure AttrInv (f : Cb) (v : ChanView Cb) : Prop where
  pfnCallBack : v.soft.pfnCallBack = some f
  calls : v.hist.calls
    = (v.hist.nodes.take v.hist.acked).map fun n => (f, n.u32CallBackArg)
  current : ∀ n ∈ v.hist.unacked, n.u32CallBackArg = v.soft.u32PirvateData

namespace AttrInv

variable {f : Cb} {c : Chn} {v : ChanView Cb}

theorem accept (hr : RingInv v) (h : AttrInv f v) (pTask : CipherTask)
    {soft : CipherSoftChan Cb} (hf : soft.pfnCallBack = v.soft.pfnCallBack)
    (hsame : ∀ n ∈ v.hist.unacked, n.u32CallBackArg = pTask.u32CallBackArg) :
    AttrInv f (v.accept c pTask soft) := by
  have hacked : v.hist.acked ≤ v.hist.nodes.length := by
    have h1 := hr.queued
    have h2 := hr.full
    omega
  refine ⟨hf.trans h.pfnCallBack, ?_, ?_⟩
  -- the new node is past those acknowledged
  · simp only [ChanView.accept, List.take_append_of_le_length hacked]
    exact h.calls
  · intro n hn
    simp only [ChanView.accept, ChanHist.unacked, List.drop_append_of_le_length hacked,
      List.mem_append, List.mem_singleton] at hn
    rcases hn with hold | hnew
    · exact hsame n hold
    · rw [hnew]
      rfl

theorem reject (h : AttrInv f v) {soft : CipherSoftChan Cb}
    (hf : soft.pfnCallBack = v.soft.pfnCallBack)
    (hp : soft.u32PirvateData = v.soft.u32PirvateData) : AttrInv f (v.reject soft) :=
  ⟨hf.trans h.pfnCallBack, h.calls, fun n hn => (h.current n hn).trans hp.symm⟩

theorem engine (h : AttrInv f v) : AttrInv f v.engine := by
  unfold ChanView.engine
  split
  · exact h
  · exact ⟨h.pfnCallBack, h.calls, h.current⟩

/-- **Acknowledge**: the loop passes the soft channel's argument once per
finished node, which is the argument of each of them. -/
theorem ack (hr : RingInv v) (h : AttrInv f v) (slots : Fin ciMaxListNum → HiU32)
    (idx : Fin ciMaxListNum) :
    AttrInv f (v.ack slots idx
      (List.replicate v.regs.ofullCnt (callBack v.soft)).flatten) := by
  have hlen := hr.unacked_length
  refine ⟨h.pfnCallBack, ?_, ?_⟩
  · have hcb : callBack v.soft = [(f, v.soft.u32PirvateData)] := by
      simp [callBack, h.pfnCallBack]
    have hnew : ((v.hist.nodes.drop v.hist.acked).take v.regs.ofullCnt).map
        (fun n => (f, n.u32CallBackArg))
          = List.replicate v.regs.ofullCnt (f, v.soft.u32PirvateData) := by
      -- every finished node was submitted with the argument the loop passes
      rw [List.eq_replicate_iff]
      refine ⟨?_, ?_⟩
      · rw [List.length_map, List.length_take]
        simp only [ChanHist.unacked] at hlen
        omega
      · intro x hx
        obtain ⟨n, hn, rfl⟩ := List.mem_map.mp hx
        rw [h.current n (List.mem_of_mem_take hn)]
    have hflat : (List.replicate v.regs.ofullCnt [(f, v.soft.u32PirvateData)]).flatten
        = List.replicate v.regs.ofullCnt (f, v.soft.u32PirvateData) := by
      simp
    simp only [ChanView.ack]
    rw [hcb, hflat, h.calls, ← hnew, List.take_add, List.map_append]
  · intro n hn
    simp only [ChanView.ack, ChanHist.unacked, ← List.drop_drop] at hn
    exact h.current n (List.mem_of_mem_drop hn)

end AttrInv

/-- What a run that meets `SameArg` keeps. -/
structure AttrRun (f : Chn → Cb) (r : DrvRun Cb) : Prop where
  inv : RunInv r
  safe : RunSafe r
  attr : ∀ c, c ≠ ciPkgx1Chan → AttrInv (f c) (r.view c)

namespace AttrRun

variable {f : Chn → Cb} {r r' : DrvRun Cb} {c : Chn}

/-- A step that acts on one channel re-establishes the attribution there. -/
theorem of_view (h : AttrRun f r) (hi : RunInv r') (hs : RunSafe r')
    (hne : ∀ d, d ≠ c → r'.view d = r.view d)
    (hc : c ≠ ciPkgx1Chan → AttrInv (f c) (r'.view c)) : AttrRun f r' :=
  ⟨hi, hs, forall_view_of_ne (I := fun c v => AttrInv (f c) v) h.attr hne hc⟩

theorem dataDone (c : Chn) (h : AttrRun f r) : AttrRun f (runDataDone c r) := by
  obtain ⟨hi, hs⟩ := runDataDone_safe c ⟨h.inv, h.safe⟩
  refine h.of_view hi hs (fun d hd => view_runDataDone_ne r hd) ?_
  intro hc
  obtain ⟨slots, hview, -, -⟩ := view_runDataDone_of_safe hc (h.inv.ring c hc) (h.safe.slots c hc)
  rw [hview]
  exact (h.attr c hc).ack (h.inv.ring c hc) _ _

/-- **One step**: `SameArg` is what keeps the attribution right. -/
theorem step (h : AttrRun f r) (op : DrvOp Cb) (hop : SameArg f r op) :
    AttrRun f (drvStep r op) := by
  have hroom : SubmitRoom r op := by
    cases op with
    | creatTask c pTask pKey pIV idle => exact fun hc hlt => (hop hc hlt).1
    | _ => trivial
  have hi := h.inv.step h.safe op
  have hs := (h.safe.step_iff h.inv op).mpr hroom
  cases op with
  | openChn c =>
      refine h.of_view hi hs (fun d hd => view_openChn_ne r hd) ?_
      intro hc
      have ha := h.attr c hc
      rw [view_openChn r hc]
      exact ⟨ha.pfnCallBack, ha.calls, ha.current⟩
  | closeChn c =>
      refine h.of_view hi hs (fun d hd => view_closeChn_ne r hd) ?_
      intro hc
      have ha := h.attr c hc
      rw [view_closeChn]
      exact ⟨ha.pfnCallBack, ha.calls, ha.current⟩
  | configChn c pConfig g =>
      refine h.of_view hi hs
        (fun d hd => view_configChn_ne r hd (h.inv.hw c) pConfig g) ?_
      intro hc
      have ha := h.attr c hc
      have hg : g = f c := hop
      rw [view_configChn r (h.inv.hw c) hc, hg]
      exact ⟨rfl, ha.calls, ha.current⟩
  | creatTask c pTask pKey pIV idle =>
      refine h.of_view hi hs
        (fun d hd => view_runCreatTask_ne r hd (h.inv.hw c) pTask pKey pIV idle) ?_
      intro hc
      rw [drvStep, view_runCreatTask r hc (h.inv.hw c)]
      -- with the buffer full the task is turned away
      split
      · rename_i hlt
        exact (h.attr c hc).accept (h.inv.ring c hc) pTask
          (overrideCtrl_pfnCallBack pKey pIV _) (hop hc hlt).2
      · exact (h.attr c hc).reject (overrideCtrl_pfnCallBack pKey pIV _)
          (overrideCtrl_u32PirvateData pKey pIV _)
  | engine c =>
      refine h.of_view hi hs (fun d hd => view_runEngine_ne r hd) ?_
      intro hc
      rw [drvStep, view_runEngine]
      exact (h.attr c hc).engine
  | dataDone c => exact h.dataDone c
  | isr INTValue =>
      exact runIsr_inv (I := AttrRun f) r (fun c _ hr => hr.dataDone c) INTValue h

theorem attributed (h : AttrRun f r) : Attributed f r :=
  ⟨h.safe.noFault, fun c hc => (h.attr c hc).calls⟩

end AttrRun

theorem drvStart_attrRun (ctrl : Chn → HiU32) (key : Chn → Vector HiU32 8)
    (pConfig : Chn → HiUnfCipherCtrl) (f : Chn → Cb) :
    AttrRun f (drvStart ctrl key pConfig f) := by
  refine ⟨drvStart_runInv ctrl key pConfig f, drvStart_runSafe ctrl key pConfig f, ?_⟩
  intro c hc
  refine ⟨?_, rfl, fun n hn => absurd hn List.not_mem_nil⟩
  fin_cases c
  · exact absurd rfl hc
  all_goals rfl

/-- **Completion attribution**: in every run whose submits meet `SameArg`, the
`k`-th call made for a channel is its callback with the argument of the
`k`-th accepted task. -/
theorem calls_attributed_of_same_arg (ctrl : Chn → HiU32) (key : Chn → Vector HiU32 8)
    (pConfig : Chn → HiUnfCipherCtrl) (f : Chn → Cb) (ops : List (DrvOp Cb))
    (h : Along drvStep (SameArg f) (drvStart ctrl key pConfig f) ops) :
    Always drvStep (Attributed f) (drvStart ctrl key pConfig f) ops :=
  (always_of_along (fun _ op hr hop => hr.step op hop)
    (drvStart_attrRun ctrl key pConfig f) h).mono fun _ => AttrRun.attributed

/-- One task at a time, with different arguments, on two channels. -/
theorem calls_attributed_one_at_a_time :
    Always drvStep (Attributed fun _ => ()) zeroStart
      [.creatTask 1 (zeroTask 5) none none true, .creatTask 2 (zeroTask 9) none none true,
        .engine 1, .isr 0x600#32, .creatTask 1 (zeroTask 6) none none true, .engine 2,
        .engine 1, .isr 0x600#32] :=
  calls_attributed_of_same_arg _ _ _ _ _ (by decide)

/-- Two tasks outstanding, the first one finishes: its callback is called with
the argument of the second. -/
theorem first_completion_reports_second_task :
    ¬ Always drvStep (Attributed fun _ => ()) zeroStart
      [.creatTask 1 (zeroTask 5) none none true, .creatTask 1 (zeroTask 6) none none true,
        .engine 1, .isr 0x200#32] := by
  intro h
  have hcalls := h.last.calls 1 (by decide)
  revert hcalls
  decide

end ExtDrv.Cipher
