import ExtDrv.Cipher.Drv
import ExtDrv.Lib.Run

/-!
# Runs of the cipher driver

The driver together with what happened to it so far: for every hardware
channel the nodes accepted, how many of them the engine finished, how many
the interrupt routine acknowledged, what each was processed with and which
callbacks were called. The history is recorded, never read by the driver.

A step acts on one channel (`DRV_Cipher_ISR` on several in turn), so every
invariant is stated over the `ChanView` of a channel, and what a step does
to the view of its own channel is said once here.
-/

namespace ExtDrv.Cipher

open RingBuf RegField Run

/-! ## What a node is processed with -/

/-- Direction, mode, algorithm, bit width, key length and key. `key` is
`none` for a key from the key ladder (`key_sel`), which the driver does not
load. -/
structure NodeCtx where
  decrypt : HiU32
  enWorkMode : HiU32
  enAlg : HiU32
  enBitWidth : HiU32
  enKeyLen : HiU32
  key : Option (Vector HiU32 8)
  deriving DecidableEq

/-- What the engine reads from the control and key registers, after the
"channel n control register" table of `hal_cipher.c`. -/
def engineCtx (x : ChanRegs) : NodeCtx :=
  { decrypt := getField 0 1 x.cipherCtrl
    enWorkMode := getField 1 3 x.cipherCtrl
    enAlg := getField 4 2 x.cipherCtrl
    enBitWidth := getField 6 2 x.cipherCtrl
    enKeyLen := getField 9 2 x.cipherCtrl
    key := if getField 13 1 x.cipherCtrl = 1#32 then none else some x.cipherKey }

/-- What is in force for a task of direction `bDecrypt` under `stCtrl`; of
each enumeration the bits its register field has. The user's key is if
`bKeyByCA` is `HI_FALSE`. -/
def taskCtx (stCtrl : HiUnfCipherCtrl) (bDecrypt : Bool) : NodeCtx :=
  { decrypt := if bDecrypt then 1#32 else 0#32
    enWorkMode := stCtrl.enWorkMode &&& mask 32 3
    enAlg := stCtrl.enAlg &&& mask 32 2
    enBitWidth := stCtrl.enBitWidth &&& mask 32 2
    enKeyLen := stCtrl.enKeyLen &&& mask 32 2
    key := if stCtrl.bKeyByCA = 0#32 then some stCtrl.u32Key else none }

/-- The initial vector the engine loads for the node at `slot`: what the
node's list entry points to, if its IVSET flag is on. -/
def engineIv (pChan : CipherChan) (slot : Fin ciMaxListNum) : Option (Vector HiU32 4) :=
  let pInBuf := pChan.pstInBuf slot
  if pInBuf.u32Flags.getLsbD ciBufListFlagIvsetBit then
    some (pChan.astCipherIVValue pInBuf.u32IVStartAddr)
  else none

/-! ## The history of a channel -/

/-- An accepted node: the slot it was put in, what the submit wrote there,
and what was in force for its task. -/
structure Node where
  slot : Fin ciMaxListNum
  inEntry : CiBufListEntry
  outEntry : CiBufListEntry
  u32CallBackArg : HiU32
  ctx : NodeCtx
  deriving DecidableEq

/-- What the engine processed a node with. -/
structure Processed where
  ctx : NodeCtx
  iv : Option (Vector HiU32 4)
  deriving DecidableEq

/-- `nodes` in the order they were accepted, of which the first `finished`
are processed by the engine and the first `acked` acknowledged by the
interrupt routine; `calls` are the callbacks it made for the channel. -/
structure ChanHist (Cb : Type) where
  nodes : List Node
  finished : Nat
  acked : Nat
  processed : List Processed
  calls : List (Cb × HiU32)

def ChanHist.empty {Cb : Type} : ChanHist Cb := ⟨[], 0, 0, [], []⟩

/-- The nodes the interrupt routine has not acknowledged yet. -/
def ChanHist.unacked {Cb : Type} (h : ChanHist Cb) : List Node := h.nodes.drop h.acked

/-- A driver with its history. `fault` is set for good when
`g_stCipherSoftChans` is indexed out of bounds. -/
structure DrvRun (Cb : Type) where
  st : DrvState Cb
  hist : Chn → ChanHist Cb
  fault : Bool

variable {Cb : Type}

def DrvRun.setHist (r : DrvRun Cb) (c : Chn) (h : ChanHist Cb) : DrvRun Cb :=
  { r with hist := Function.update r.hist c h }

/-! ## Steps -/

/-- The operations on the driver: its entry points, one completion step of
the engine, and one call of `DRV_CipherDataDoneMultiPkg`. -/
inductive DrvOp (Cb : Type) where
  | openChn (softChnId : Chn)
  | closeChn (softChnId : Chn)
  | configChn (softChnId : Chn) (pConfig : HiUnfCipherCtrl) (fnCallBack : Cb)
  | creatTask (softChnId : Chn) (pTask : CipherTask) (pKey : Option (Vector HiU32 8))
      (pIV : Option (Vector HiU32 4)) (idle : Bool)
  | engine (chnId : Chn)
  | dataDone (chnId : Chn)
  | isr (INTValue : HiU32)

/-- The node a submit leaves in `pChan`, whose submit pointer was `slot`. -/
def nodeAt (slot : Fin ciMaxListNum) (pTask : CipherTask) (stCtrl : HiUnfCipherCtrl)
    (pChan : CipherChan) : Node :=
  { slot := slot
    inEntry := pChan.pstInBuf slot
    outEntry := pChan.pstOutBuf slot
    u32CallBackArg := pTask.u32CallBackArg
    ctx := taskCtx stCtrl pTask.stData2Process.bDecrypt }

/-- `DRV_Cipher_CreatTask`; an accepted multi-packet task is recorded. -/
def runCreatTask (softChnId : Chn) (pTask : CipherTask) (pKey : Option (Vector HiU32 8))
    (pIV : Option (Vector HiU32 4)) (idle : Bool) (r : DrvRun Cb) : DrvRun Cb :=
  let h := (r.st.g_stCipherSoftChans softChnId).u32HardWareChn
  let (ret, st') := drvCipherCreatTask softChnId pTask pKey pIV idle r.st
  let r' := { r with st := st' }
  if h ≠ ciPkgx1Chan ∧ ret = hiSuccess then
    r'.setHist h { r.hist h with
      nodes := (r.hist h).nodes ++
        [nodeAt (r.st.g_stCipherChans h).unInData.u32CurrentPtr pTask
          (st'.g_stCipherSoftChans softChnId).stCtrl (st'.g_stCipherChans h)] }
  else r'

/-- The engine finishes the next node of a channel, if it has one. -/
def runEngine (c : Chn) (r : DrvRun Cb) : DrvRun Cb :=
  let x := r.st.regs.chan c
  if x.ibufCnt = 0 then r
  else
    ({ r with st := engineFinish c r.st } : DrvRun Cb).setHist c { r.hist c with
      finished := (r.hist c).finished + 1
      processed := (r.hist c).processed ++
        [⟨engineCtx x, engineIv (r.st.g_stCipherChans c) x.srcLstRaddr⟩] }

/-- The calls `DRV_CipherDataDoneMultiPkg` makes. -/
def dataDoneCalls (c : Chn) (st : DrvState Cb) : List (Cb × HiU32) :=
  match drvCipherDataDoneMultiPkg c st with
  | none => []
  | some (_, _, calls) => calls

/-- `DRV_CipherDataDoneMultiPkg`. -/
def runDataDone (c : Chn) (r : DrvRun Cb) : DrvRun Cb :=
  match drvCipherDataDoneMultiPkg c r.st with
  | none => { r with fault := true }
  | some (_, st', calls) =>
      ({ r with st := st' } : DrvRun Cb).setHist c { r.hist c with
        acked := (r.hist c).acked + (halCipherGetOutBufFull c r.st.regs).getD 0
        calls := (r.hist c).calls ++ calls }

/-- `DRV_Cipher_ISR`: `runDataDone` on the channels it visits. -/
def runIsr (INTValue : HiU32) (r : DrvRun Cb) : DrvRun Cb :=
  (isrChannels INTValue).foldl (fun r c => runDataDone c r) r

def drvStep (r : DrvRun Cb) : DrvOp Cb → DrvRun Cb
  | .openChn c => { r with st := (drvCipherOpenChn c r.st).2 }
  | .closeChn c => { r with st := (drvCipherCloseChn c r.st).2 }
  | .configChn c pConfig f => { r with st := (drvCipherConfigChn c pConfig f r.st).2 }
  | .creatTask c pTask pKey pIV idle => runCreatTask c pTask pKey pIV idle r
  | .engine c => runEngine c r
  | .dataDone c => runDataDone c r
  | .isr INTValue => runIsr INTValue r

/-- The fault flag stays set. -/
theorem runDataDone_fault {r : DrvRun Cb} (c : Chn) (h : r.fault = true) :
    (runDataDone c r).fault = true := by
  unfold runDataDone
  split
  · rfl
  · exact h

theorem foldl_runDataDone_fault (cs : List Chn) {r : DrvRun Cb} (h : r.fault = true) :
    (cs.foldl (fun r c => runDataDone c r) r).fault = true := by
  induction cs generalizing r with
  | nil => exact h
  | cons c cs ih => exact ih (runDataDone_fault c h)

theorem isrLoop_eq_foldl (cs : List Chn) {r : DrvRun Cb}
    (h : (cs.foldl (fun r c => runDataDone c r) r).fault = false) :
    (isrLoop cs r.st).map Prod.fst
      = some (cs.foldl (fun r c => runDataDone c r) r).st := by
  induction cs generalizing r with
  | nil => rfl
  | cons c cs ih =>
      rw [List.foldl_cons] at h ⊢
      cases hd : drvCipherDataDoneMultiPkg c r.st with
      -- an index out of bounds would have set the fault flag for good
      | none =>
          have hfault : (runDataDone c r).fault = true := by simp [runDataDone, hd]
          rw [foldl_runDataDone_fault cs hfault] at h
          cases h
      | some x =>
          have hst : (runDataDone c r).st = x.2.1 := by
            simp [runDataDone, hd, DrvRun.setHist]
          rw [← ih h, hst]
          simp [isrLoop, hd, Option.map_map, Function.comp_def]

/-- `runIsr` is `DRV_Cipher_ISR`: as long as no index is out of bounds, it
leaves the state the interrupt routine leaves. -/
theorem runIsr_eq_drvCipherIsr (INTValue : HiU32) (r : DrvRun Cb)
    (h : (runIsr INTValue r).fault = false) :
    (drvCipherIsr INTValue r.st).map Prod.fst = some (runIsr INTValue r).st := by
  rw [runIsr, ← isrLoop_eq_foldl _ h]
  simp [drvCipherIsr, Option.map_map, Function.comp_def]

/-! ## The view of a channel -/

/-- Everything of a run that belongs to one channel: hardware and soft
channel, registers, history. -/
structure ChanView (Cb : Type) where
  chan : CipherChan
  soft : CipherSoftChan Cb
  regs : ChanRegs
  hist : ChanHist Cb

def DrvRun.view (r : DrvRun Cb) (c : Chn) : ChanView Cb :=
  { chan := r.st.g_stCipherChans c, soft := r.st.g_stCipherSoftChans c,
    regs := r.st.regs.chan c, hist := r.hist c }

/-- A submit into a ring with room, on the view of its channel; `soft` is
the soft channel after the caller's key and initial vector are taken over. -/
def ChanView.accept (v : ChanView Cb) (c : Chn) (pTask : CipherTask)
    (soft : CipherSoftChan Cb) : ChanView Cb :=
  let slot := v.chan.unInData.u32CurrentPtr
  let chan := submitChan c pTask.stData2Process pTask.u32CallBackArg soft
    { v.chan with unInData := { v.chan.unInData with u32BusyCnt := v.regs.ibufCnt } }
  { chan := chan
    soft := { soft with
      bKeyChange := false, bIVChange := false, u32PirvateData := pTask.u32CallBackArg }
    regs := { v.regs with
      cipherKey := if soft.bKeyChange = true ∧ soft.stCtrl.bKeyByCA = 0#32 then
        soft.stCtrl.u32Key else v.regs.cipherKey
      cipherCtrl := cipherCtrlWord c pTask.stData2Process.bDecrypt soft.stCtrl
        v.regs.cipherCtrl
      ibufCnt := v.regs.ibufCnt + 1 }
    hist := { v.hist with nodes := v.hist.nodes ++ [nodeAt slot pTask soft.stCtrl chan] } }

/-- A submit into a full ring: only `u32BusyCnt` and the soft channel. -/
def ChanView.reject (v : ChanView Cb) (soft : CipherSoftChan Cb) : ChanView Cb :=
  { v with
    chan := { v.chan with
      unInData := { v.chan.unInData with u32BusyCnt := v.regs.ibufCnt } }
    soft := soft }

@[simp] theorem overrideCtrl_hw (pKey : Option (Vector HiU32 8))
    (pIV : Option (Vector HiU32 4)) (s : CipherSoftChan Cb) :
    (overrideCtrl pKey pIV s).u32HardWareChn = s.u32HardWareChn := by
  cases pKey <;> cases pIV <;> rfl

@[simp] theorem overrideCtrl_pfnCallBack (pKey : Option (Vector HiU32 8))
    (pIV : Option (Vector HiU32 4)) (s : CipherSoftChan Cb) :
    (overrideCtrl pKey pIV s).pfnCallBack = s.pfnCallBack := by
  cases pKey <;> cases pIV <;> rfl

@[simp] theorem overrideCtrl_u32PirvateData (pKey : Option (Vector HiU32 8))
    (pIV : Option (Vector HiU32 4)) (s : CipherSoftChan Cb) :
    (overrideCtrl pKey pIV s).u32PirvateData = s.u32PirvateData := by
  cases pKey <;> cases pIV <;> rfl

/-- The engine finishing the next node. -/
def ChanView.engine (v : ChanView Cb) : ChanView Cb :=
  if v.regs.ibufCnt = 0 then v
  else
    { v with
      regs := { v.regs with
        ibufCnt := v.regs.ibufCnt - 1
        iemptyCnt := v.regs.iemptyCnt + 1
        obufCnt := v.regs.obufCnt - 1
        ofullCnt := v.regs.ofullCnt + 1
        srcLstRaddr := wrapSucc v.regs.srcLstRaddr }
      hist := { v.hist with
        finished := v.hist.finished + 1
        processed := v.hist.processed ++
          [⟨engineCtx v.regs, engineIv v.chan v.regs.srcLstRaddr⟩] } }

/-- The completion routine acknowledging all finished nodes, with what its
loop leaves: the slots, the index, the calls. -/
def ChanView.ack (v : ChanView Cb) (slots : Fin ciMaxListNum → HiU32)
    (idx : Fin ciMaxListNum) (calls : List (Cb × HiU32)) : ChanView Cb :=
  { v with
    chan := { v.chan with
      au32WitchSoftChn := slots
      unOutData := { v.chan.unOutData with u32CurrentPtr := idx } }
    regs := { v.regs with
      iemptyCnt := v.regs.iemptyCnt - v.regs.ofullCnt
      ofullCnt := 0
      obufCnt := v.regs.obufCnt + v.regs.ofullCnt }
    hist := { v.hist with
      acked := v.hist.acked + v.regs.ofullCnt
      calls := v.hist.calls ++ calls } }

/-- `DRV_Cipher_ConfigChn`. -/
def ChanView.config (v : ChanView Cb) (c : Chn) (pConfig : HiUnfCipherCtrl) (f : Cb) :
    ChanView Cb :=
  { v with
    soft := { v.soft with
      pfnCallBack := some f, bIVChange := true, bKeyChange := true, stCtrl := pConfig }
    regs := { v.regs with
      cipherCtrl := cipherCtrlWord c false pConfig v.regs.cipherCtrl } }

section Views

variable (r : DrvRun Cb) {c d : Chn}

@[simp] theorem view_chan : (r.view c).chan = r.st.g_stCipherChans c := rfl

@[simp] theorem view_soft : (r.view c).soft = r.st.g_stCipherSoftChans c := rfl

@[simp] theorem view_regs : (r.view c).regs = r.st.regs.chan c := rfl

@[simp] theorem view_hist : (r.view c).hist = r.hist c := rfl

theorem setHist_view_self (h : ChanHist Cb) :
    (r.setHist c h).view c = { r.view c with hist := h } := by
  simp [DrvRun.view, DrvRun.setHist]

theorem setHist_view_ne (h : ChanHist Cb) (hd : d ≠ c) :
    (r.setHist c h).view d = r.view d := by
  simp [DrvRun.view, DrvRun.setHist, Function.update_of_ne hd]

/-- A step that acts on one channel keeps what it keeps there. -/
theorem forall_view_of_ne {I : Chn → ChanView Cb → Prop} {r r' : DrvRun Cb}
    (h : ∀ d, d ≠ ciPkgx1Chan → I d (r.view d)) (hne : ∀ d, d ≠ c → r'.view d = r.view d)
    (hc : c ≠ ciPkgx1Chan → I c (r'.view c)) :
    ∀ d, d ≠ ciPkgx1Chan → I d (r'.view d) := by
  intro d hd0
  by_cases hd : d = c
  · subst hd
    exact hc hd0
  · rw [hne d hd]
    exact h d hd0

end Views

/-! ## What each step does to the views -/

section Steps

variable (r : DrvRun Cb) {c d : Chn}

/-- What a submit on an open multi-packet channel does to its view. -/
theorem view_runCreatTask (hc : c ≠ ciPkgx1Chan)
    (hhw : (r.view c).soft.u32HardWareChn = c) (pTask : CipherTask)
    (pKey : Option (Vector HiU32 8)) (pIV : Option (Vector HiU32 4)) (idle : Bool) :
    (runCreatTask c pTask pKey pIV idle r).view c
      = if (r.view c).regs.ibufCnt < ciMaxListNum then
          (r.view c).accept c pTask (overrideCtrl pKey pIV (r.view c).soft)
        else (r.view c).reject (overrideCtrl pKey pIV (r.view c).soft) := by
  rw [view_soft] at hhw
  have hne : ¬ (c ≠ ciPkgx1Chan ∧ hiFailure = hiSuccess) := fun h => absurd h.2 (by decide)
  -- the driver looks at the input count alone
  rcases Nat.lt_or_ge (r.view c).regs.ibufCnt ciMaxListNum with hlt | hge
  · rw [if_pos hlt]
    rw [view_regs] at hlt
    simp only [runCreatTask, drvCipherCreatTask, setSoft_soft_self, overrideCtrl_hw, hhw,
      if_neg hc, drvCipherStartMultiPkgChn, setSoft_regs, setSoft_chans,
      halCipherGetInBufCnt, halCipherGetCount, Option.getD_some, if_pos hlt]
    rw [submitRegs_ret hc, if_pos ⟨hc, rfl⟩, setHist_view_self]
    simp only [DrvRun.view, setSoft_soft_self, setSoft_chans, setChan_chans_self,
      setSoft_regs, setChan_regs, setRegs_regs, submitRegs_chan_self hc, ChanView.accept,
      overrideCtrl_hw, hhw]
    rfl
  · have hlt : ¬ (r.view c).regs.ibufCnt < ciMaxListNum := by omega
    rw [if_neg hlt]
    rw [view_regs] at hlt
    simp only [runCreatTask, drvCipherCreatTask, setSoft_soft_self, overrideCtrl_hw, hhw,
      if_neg hc, drvCipherStartMultiPkgChn, setSoft_regs, setSoft_chans,
      halCipherGetInBufCnt, halCipherGetCount, Option.getD_some, if_neg hlt, if_neg hne]
    simp [DrvRun.view, ChanView.reject]

/-- A submit into a ring with room succeeds. -/
theorem drvCipherCreatTask_ret (hc : c ≠ ciPkgx1Chan)
    (hhw : (r.view c).soft.u32HardWareChn = c) (hlt : (r.view c).regs.ibufCnt < ciMaxListNum)
    (pTask : CipherTask) (pKey : Option (Vector HiU32 8)) (pIV : Option (Vector HiU32 4))
    (idle : Bool) : (drvCipherCreatTask c pTask pKey pIV idle r.st).1 = hiSuccess := by
  rw [view_soft] at hhw
  rw [view_regs] at hlt
  simp only [drvCipherCreatTask, setSoft_soft_self, overrideCtrl_hw, hhw, if_neg hc,
    drvCipherStartMultiPkgChn, setSoft_regs, halCipherGetInBufCnt, halCipherGetCount,
    Option.getD_some, if_pos hlt, submitRegs_ret hc]

/-- It does nothing to the view of another channel. -/
theorem view_runCreatTask_ne (hd : d ≠ c) (hhw : (r.view c).soft.u32HardWareChn = c)
    (pTask : CipherTask) (pKey : Option (Vector HiU32 8)) (pIV : Option (Vector HiU32 4))
    (idle : Bool) : (runCreatTask c pTask pKey pIV idle r).view d = r.view d := by
  rw [view_soft] at hhw
  simp only [runCreatTask, drvCipherCreatTask, setSoft_soft_self, overrideCtrl_hw, hhw]
  by_cases hc : c = ciPkgx1Chan
  · have hd0 : d ≠ ciPkgx1Chan := fun h => hd (h.trans hc.symm)
    simp only [hc, ne_eq, not_true_eq_false, false_and, if_false, if_true, DrvRun.view,
      startSinglePkg_soft, startSinglePkg_chans, startSinglePkg_regs _ hd0,
      setSoft_soft_ne _ _ _ hd0, setSoft_chans, setSoft_regs]
  · simp only [if_neg hc, drvCipherStartMultiPkgChn, setSoft_soft_self, overrideCtrl_hw, hhw,
      setSoft_regs, setSoft_chans]
    split <;> split
    · rw [setHist_view_ne _ _ hd]
      simp [DrvRun.view, setSoft_soft_ne, setChan_chans_ne, submitRegs_chan_ne hc hd, hd]
    · simp [DrvRun.view, setSoft_soft_ne, setChan_chans_ne, submitRegs_chan_ne hc hd, hd]
    · rw [setHist_view_ne _ _ hd]
      simp [DrvRun.view, setSoft_soft_ne, setChan_chans_ne, hd]
    · simp [DrvRun.view, setSoft_soft_ne, setChan_chans_ne, hd]

theorem runCreatTask_pkgx1_soft
    (hhw : (r.view ciPkgx1Chan).soft.u32HardWareChn = ciPkgx1Chan) (pTask : CipherTask)
    (pKey : Option (Vector HiU32 8)) (pIV : Option (Vector HiU32 4)) (idle : Bool) :
    ((runCreatTask ciPkgx1Chan pTask pKey pIV idle r).view ciPkgx1Chan).soft
      = overrideCtrl pKey pIV (r.view ciPkgx1Chan).soft := by
  rw [view_soft] at hhw
  simp only [runCreatTask, drvCipherCreatTask, setSoft_soft_self, overrideCtrl_hw, hhw,
    ne_eq, not_true_eq_false, false_and, if_false, if_true, view_soft, startSinglePkg_soft]

/-- No submit moves a soft channel to another hardware channel. -/
theorem runCreatTask_hw (hhw : ∀ s, (r.view s).soft.u32HardWareChn = s) (pTask : CipherTask)
    (pKey : Option (Vector HiU32 8)) (pIV : Option (Vector HiU32 4)) (idle : Bool) (s : Chn) :
    ((runCreatTask c pTask pKey pIV idle r).view s).soft.u32HardWareChn = s := by
  by_cases hs : s = c
  · subst hs
    by_cases hc : s = ciPkgx1Chan
    · subst hc
      rw [runCreatTask_pkgx1_soft r (hhw _), overrideCtrl_hw]
      exact hhw _
    · rw [view_runCreatTask r hc (hhw s)]
      split
      · exact (overrideCtrl_hw pKey pIV _).trans (hhw s)
      · exact (overrideCtrl_hw pKey pIV _).trans (hhw s)
  · rw [view_runCreatTask_ne r hs (hhw c)]
    exact hhw s

theorem view_runEngine : (runEngine c r).view c = (r.view c).engine := by
  unfold runEngine ChanView.engine
  by_cases h0 : (r.st.regs.chan c).ibufCnt = 0
  · simp [h0]
  · simp only [if_neg h0, view_regs, setHist_view_self]
    simp [DrvRun.view, engineFinish, h0]

theorem view_runEngine_ne (hd : d ≠ c) : (runEngine c r).view d = r.view d := by
  unfold runEngine
  by_cases h0 : (r.st.regs.chan c).ibufCnt = 0
  · simp [h0]
  · simp only [if_neg h0, setHist_view_ne _ _ hd]
    simp [DrvRun.view, engineFinish, h0, HalRegs.setChan_ne _ _ hd]

theorem view_configChn (hhw : (r.view c).soft.u32HardWareChn = c) (hc : c ≠ ciPkgx1Chan)
    (pConfig : HiUnfCipherCtrl) (f : Cb) :
    (drvStep r (.configChn c pConfig f)).view c = (r.view c).config c pConfig f := by
  rw [view_soft] at hhw
  simp only [drvStep, drvCipherConfigChn, hhw, halCipherConfig_of_ne hc, DrvRun.view,
    setSoft_soft_self, setSoft_chans, setRegs_chans, setSoft_regs, setRegs_regs,
    HalRegs.setChan_self, ChanView.config]

theorem view_configChn_ne (hd : d ≠ c) (hhw : (r.view c).soft.u32HardWareChn = c)
    (pConfig : HiUnfCipherCtrl) (f : Cb) :
    (drvStep r (.configChn c pConfig f)).view d = r.view d := by
  rw [view_soft] at hhw
  simp only [drvStep, drvCipherConfigChn, hhw, DrvRun.view,
    setSoft_soft_ne _ _ _ hd, setSoft_chans, setRegs_chans, setSoft_regs, setRegs_regs,
    halCipherConfig_chan_ne hd, setRegs_soft]

theorem view_closeChn : (drvStep r (.closeChn c)).view c
    = { r.view c with soft := { (r.view c).soft with bOpen := false } } := by
  simp [drvStep, drvCipherCloseChn, DrvRun.view]

theorem view_closeChn_ne (hd : d ≠ c) : (drvStep r (.closeChn c)).view d = r.view d := by
  simp [drvStep, drvCipherCloseChn, DrvRun.view, setSoft_soft_ne _ _ _ hd]

theorem view_openChn (hc : c ≠ ciPkgx1Chan) : (drvStep r (.openChn c)).view c
    = { r.view c with
        soft := { (r.view c).soft with bOpen := true, u32HardWareChn := c }
        regs := { (r.view c).regs with intOcntcfg := cipherDefaultIntNum } } := by
  simp only [drvStep, drvCipherOpenChn, halCipherSetIntThreshold,
    halCipherSetCount_of_le _ _ hc (show cipherDefaultIntNum ≤ 0xffff by decide)]
  simp [DrvRun.view, halCipherEnableInt]

theorem view_openChn_ne (hd : d ≠ c) : (drvStep r (.openChn c)).view d = r.view d := by
  simp only [drvStep, drvCipherOpenChn, halCipherSetIntThreshold, halCipherSetCount]
  split <;>
    simp [DrvRun.view, halCipherEnableInt, setSoft_soft_ne _ _ _ hd, HalRegs.setChan_ne _ _ hd]

end Steps
/-- With nothing finished there is nothing to acknowledge. -/
theorem ack_of_ofullCnt_zero {v : ChanView Cb} (h : v.regs.ofullCnt = 0) :
    v.ack v.chan.au32WitchSoftChn v.chan.unOutData.u32CurrentPtr [] = v := by
  obtain ⟨chan, soft, regs, hist⟩ := v
  obtain ⟨n1, n2, n3, n4, n5, n6, n7, p, w, k⟩ := regs
  simp only at h
  subst h
  simp [ChanView.ack]

section Completion

variable (r : DrvRun Cb) {c d : Chn}

/-- What an acknowledgement does to the view of its channel, the loop
staying within the soft channels. -/
theorem view_runDataDone (hc : c ≠ ciPkgx1Chan) (hfull : (r.view c).regs.ofullCnt ≤ 0xffff)
    {slots : Fin ciMaxListNum → HiU32} {idx : Fin ciMaxListNum} {calls : List (Cb × HiU32)}
    (hloop : dataDoneLoop r.st.g_stCipherSoftChans (r.view c).regs.ofullCnt
      (r.view c).chan.au32WitchSoftChn (r.view c).chan.unOutData.u32CurrentPtr
        = some (slots, idx, calls)) :
    (runDataDone c r).view c = (r.view c).ack slots idx calls
      ∧ (runDataDone c r).fault = r.fault := by
  rw [view_regs] at hfull
  rw [view_regs, view_chan] at hloop
  -- with nothing finished the registers are not written at all
  by_cases h0 : (r.st.regs.chan c).ofullCnt = 0
  · rw [h0, dataDoneLoop] at hloop
    cases hloop
    simp only [runDataDone, drvCipherDataDoneMultiPkg, halCipherGetOutBufFull,
      halCipherGetCount, if_neg hc, h0, gt_iff_lt, Nat.lt_irrefl, if_false]
    refine ⟨?_, rfl⟩
    rw [setHist_view_self]
    simp only [Option.getD_some, Nat.add_zero, List.append_nil]
    exact (ack_of_ofullCnt_zero (v := r.view c) h0).symm
  · have hpos : (r.st.regs.chan c).ofullCnt > 0 := by omega
    simp only [runDataDone, drvCipherDataDoneMultiPkg, halCipherGetOutBufFull,
      halCipherGetCount, if_neg hc, if_pos hpos, hloop, Option.map_some,
      halCipherSetInBufEmpty, halCipherSetOutBufFull, halCipherSetOutBufCnt,
      halCipherSetCount_of_le _ _ hc hfull]
    refine ⟨?_, rfl⟩
    rw [setHist_view_self]
    simp [DrvRun.view, ChanView.ack]

theorem view_runDataDone_ne (hd : d ≠ c) : (runDataDone c r).view d = r.view d := by
  unfold runDataDone drvCipherDataDoneMultiPkg
  cases hget : halCipherGetOutBufFull c r.st.regs with
  | none => exact setHist_view_ne _ _ hd
  | some fullCnt =>
      by_cases hpos : fullCnt > 0
      · simp only [if_pos hpos]
        cases hloop : dataDoneLoop r.st.g_stCipherSoftChans fullCnt
            (r.st.g_stCipherChans c).au32WitchSoftChn
            (r.st.g_stCipherChans c).unOutData.u32CurrentPtr with
        | none => rfl
        | some x =>
            simp only [Option.map_some]
            rw [setHist_view_ne _ _ hd]
            simp [DrvRun.view, setChan_chans_ne _ _ _ hd, halCipherSetInBufEmpty,
              halCipherSetOutBufFull, halCipherSetOutBufCnt, halCipherSetCount_chan_ne _ hd]
      · simp only [if_neg hpos]
        exact setHist_view_ne _ _ hd

/-- The single-packet channel has no ring to acknowledge. -/
theorem runDataDone_pkgx1_fault :
    (runDataDone ciPkgx1Chan r).fault = r.fault := rfl

/-- The calls of an acknowledgement are recorded. -/
theorem runDataDone_calls : ((runDataDone c r).hist c).calls
    = (r.hist c).calls ++ dataDoneCalls c r.st := by
  unfold runDataDone dataDoneCalls
  cases drvCipherDataDoneMultiPkg c r.st with
  | none => simp
  | some x => simp [DrvRun.setHist]

/-- An acknowledgement changes no soft channel. -/
theorem runDataDone_soft : (runDataDone c r).st.g_stCipherSoftChans
    = r.st.g_stCipherSoftChans := by
  unfold runDataDone drvCipherDataDoneMultiPkg
  cases halCipherGetOutBufFull c r.st.regs with
  | none => rfl
  | some fullCnt =>
      by_cases hpos : fullCnt > 0
      · simp only [if_pos hpos]
        cases dataDoneLoop r.st.g_stCipherSoftChans fullCnt
          (r.st.g_stCipherChans c).au32WitchSoftChn
          (r.st.g_stCipherChans c).unOutData.u32CurrentPtr <;> rfl
      · simp only [if_neg hpos]
        rfl

/-- Whatever the slots hold, an acknowledgement leaves the accepted and the
processed nodes, the input count and the registers the engine reads alone. -/
theorem runDataDone_frame :
    ((runDataDone c r).hist c).nodes = (r.hist c).nodes
      ∧ ((runDataDone c r).hist c).finished = (r.hist c).finished
      ∧ ((runDataDone c r).hist c).processed = (r.hist c).processed
      ∧ ((runDataDone c r).st.regs.chan c).ibufCnt = (r.st.regs.chan c).ibufCnt
      ∧ ((runDataDone c r).st.regs.chan c).cipherCtrl = (r.st.regs.chan c).cipherCtrl
      ∧ ((runDataDone c r).st.regs.chan c).cipherKey = (r.st.regs.chan c).cipherKey
      ∧ ((runDataDone c r).st.regs.chan c).srcLstRaddr = (r.st.regs.chan c).srcLstRaddr
      ∧ ((runDataDone c r).st.g_stCipherChans c).unInData = (r.st.g_stCipherChans c).unInData
      ∧ ((runDataDone c r).st.g_stCipherChans c).pstInBuf = (r.st.g_stCipherChans c).pstInBuf
      ∧ ((runDataDone c r).st.g_stCipherChans c).astCipherIVValue
          = (r.st.g_stCipherChans c).astCipherIVValue := by
  unfold runDataDone drvCipherDataDoneMultiPkg
  by_cases hc : c = ciPkgx1Chan
  · subst hc
    simp [halCipherGetOutBufFull, halCipherGetCount, DrvRun.setHist]
  · simp only [halCipherGetOutBufFull, halCipherGetCount, if_neg hc]
    by_cases hpos : (r.st.regs.chan c).ofullCnt > 0
    · simp only [if_pos hpos]
      cases dataDoneLoop r.st.g_stCipherSoftChans (r.st.regs.chan c).ofullCnt
        (r.st.g_stCipherChans c).au32WitchSoftChn
        (r.st.g_stCipherChans c).unOutData.u32CurrentPtr with
      | none => simp
      | some x =>
          simp [DrvRun.setHist, halCipherSetInBufEmpty, halCipherSetOutBufFull,
            halCipherSetOutBufCnt, halCipherSetCount_chan_self _ hc]
    · simp [if_neg hpos, DrvRun.setHist]

/-- What every acknowledgement preserves, the interrupt routine preserves. -/
theorem runIsr_inv {I : DrvRun Cb → Prop} (h : ∀ c r, I r → I (runDataDone c r))
    (INTValue : HiU32) (hr : I r) : I (runIsr INTValue r) := by
  unfold runIsr
  generalize isrChannels INTValue = cs
  induction cs generalizing r with
  | nil => exact hr
  | cons c cs ih => exact ih _ (h c r hr)

end Completion

end ExtDrv.Cipher
