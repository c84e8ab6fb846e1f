import ExtDrv.Cipher.Ring

/-!
# What a queued node is processed with

The control and key registers are one set per channel and are written at
every submit, not at the node's turn. A node that waits behind others is
processed with what the last submit (or `DRV_Cipher_ConfigChn`) left there.
-/

namespace ExtDrv.Cipher

open RingBuf RegField Run

variable {Cb : Type}

/-! ## The control register as a record of fields -/

/-- The one-bit fields hold a Boolean. -/
theorem bit_and_mask (b : Bool) :
    (if b then 1#32 else 0#32) &&& mask 32 1 = if b then 1#32 else 0#32 := by
  cases b <;> decide

section CtrlWord

variable (c : Chn) (bDecrypt : Bool) (pCtrl : HiUnfCipherCtrl) (w : HiU32)

theorem getField_decrypt :
    getField 0 1 (cipherCtrlWord c bDecrypt pCtrl w) = if bDecrypt then 1#32 else 0#32 := by
  simp (disch := omega) only [cipherCtrlWord, decryptBit_eq_setField,
    getField_setField_of_disjoint, getField_setField_self, bit_and_mask]

theorem getField_mode :
    getField 1 3 (cipherCtrlWord c bDecrypt pCtrl w) = pCtrl.enWorkMode &&& mask 32 3 := by
  simp (disch := omega) only [cipherCtrlWord, getField_setField_of_disjoint,
    getField_setField_self]

theorem getField_alg :
    getField 4 2 (cipherCtrlWord c bDecrypt pCtrl w) = pCtrl.enAlg &&& mask 32 2 := by
  simp (disch := omega) only [cipherCtrlWord, getField_setField_of_disjoint,
    getField_setField_self]

theorem getField_width :
    getField 6 2 (cipherCtrlWord c bDecrypt pCtrl w) = pCtrl.enBitWidth &&& mask 32 2 := by
  simp (disch := omega) only [cipherCtrlWord, getField_setField_of_disjoint,
    getField_setField_self]

theorem getField_keyLen :
    getField 9 2 (cipherCtrlWord c bDecrypt pCtrl w) = pCtrl.enKeyLen &&& mask 32 2 := by
  simp (disch := omega) only [cipherCtrlWord, getField_setField_of_disjoint,
    getField_setField_self]

theorem getField_keySel :
    getField 13 1 (cipherCtrlWord c bDecrypt pCtrl w)
      = pCtrl.bKeyByCA &&& mask 32 1 := by
  simp (disch := omega) only [cipherCtrlWord, getField_setField_of_disjoint,
    getField_setField_self]

end CtrlWord

/-- What the registers of a channel stand for once `pCtrl` is written to its
control register: the task's context, with the key that is in the key
registers. -/
theorem engineCtx_cipherCtrlWord (c : Chn) (bDecrypt : Bool) (pCtrl : HiUnfCipherCtrl)
    (x : ChanRegs) (w : HiU32) (h : x.cipherCtrl = cipherCtrlWord c bDecrypt pCtrl w) :
    engineCtx x = { taskCtx pCtrl bDecrypt with
      key := if pCtrl.bKeyByCA &&& mask 32 1 = 1#32 then none else some x.cipherKey } := by
  simp only [engineCtx, taskCtx, h, getField_decrypt, getField_mode, getField_alg,
    getField_width, getField_keyLen, getField_keySel]

/-- What `DRV_Cipher_ConfigChn` leaves in the registers: direction encrypt,
the new algorithm, and the key that was there. -/
def configCtx (pConfig : HiUnfCipherCtrl) (x : ChanRegs) : NodeCtx :=
  { taskCtx pConfig false with
    key := if pConfig.bKeyByCA &&& mask 32 1 = 1#32 then none else some x.cipherKey }

/-- `HAL_Cipher_SetKey` and `HAL_Cipher_Config` take `bKeyByCA` alike: the one
compares it with `HI_FALSE`, the other hands on its lowest bit. -/
def KeySelected (bKeyByCA : HiU32) : Prop := bKeyByCA ≠ 0#32 → bKeyByCA &&& mask 32 1 = 1#32

instance (bKeyByCA : HiU32) : Decidable (KeySelected bKeyByCA) :=
  inferInstanceAs (Decidable (_ → _))

/-! ## The claimed property and its condition -/

/-- The nodes the engine has still to process. -/
def ChanHist.queued (h : ChanHist Cb) : List Node := h.nodes.drop h.finished

/-- Every node was processed with what was in force for its task. -/
def InContext (r : DrvRun Cb) : Prop :=
  ∀ c, c ≠ ciPkgx1Chan → (r.hist c).processed.map Processed.ctx
    = ((r.hist c).nodes.take (r.hist c).finished).map Node.ctx

/-- An accepted submit, and a configuration, writes to the registers what
every node still queued on the channel was submitted with. A submit takes its
key from where the engine will look. -/
def SameCtx (r : DrvRun Cb) : DrvOp Cb → Prop
  | .configChn c pConfig _ => c ≠ ciPkgx1Chan →
      ∀ n ∈ (r.hist c).queued, n.ctx = configCtx pConfig (r.st.regs.chan c)
  | .creatTask c pTask pKey pIV _ => c ≠ ciPkgx1Chan →
      (r.st.regs.chan c).ibufCnt < ciMaxListNum →
      KeySelected (r.st.g_stCipherSoftChans c).stCtrl.bKeyByCA ∧
        ∀ n ∈ (r.hist c).queued,
          n.ctx = taskCtx (overrideCtrl pKey pIV (r.st.g_stCipherSoftChans c)).stCtrl
            pTask.stData2Process.bDecrypt
  | _ => True

instance SameCtx.decidable (r : DrvRun Cb) : ∀ op, Decidable (SameCtx r op)
  | .configChn c pConfig _ => inferInstanceAs (Decidable (c ≠ ciPkgx1Chan →
      ∀ n ∈ (r.hist c).queued, n.ctx = configCtx pConfig (r.st.regs.chan c)))
  | .creatTask c pTask pKey pIV _ => inferInstanceAs (Decidable (c ≠ ciPkgx1Chan →
      (r.st.regs.chan c).ibufCnt < ciMaxListNum →
      KeySelected (r.st.g_stCipherSoftChans c).stCtrl.bKeyByCA ∧
        ∀ n ∈ (r.hist c).queued,
          n.ctx = taskCtx (overrideCtrl pKey pIV (r.st.g_stCipherSoftChans c)).stCtrl
            pTask.stData2Process.bDecrypt))
  | .openChn _ | .closeChn _ | .engine _ | .dataDone _ | .isr _ => .isTrue trivial

/-! ## The invariant -/

/-- The key registers hold the soft channel's key, unless it is still to be
loaded or comes from the key ladder. -/
def KeyLoaded (soft : CipherSoftChan Cb) (x : ChanRegs) : Prop :=
  soft.bKeyChange = false → soft.stCtrl.bKeyByCA = 0#32 → x.cipherKey = soft.stCtrl.u32Key

theorem KeyLoaded.override {soft : CipherSoftChan Cb} {x : ChanRegs}
    (h : KeyLoaded soft x) (pKey : Option (Vector HiU32 8)) (pIV : Option (Vector HiU32 4)) :
    KeyLoaded (overrideCtrl pKey pIV soft) x := by
  cases pKey with
  | none => cases pIV <;> exact h
  | some k =>
      intro hchange
      cases pIV <;> cases hchange

theorem overrideCtrl_bKeyByCA (pKey : Option (Vector HiU32 8)) (pIV : Option (Vector HiU32 4))
    (soft : CipherSoftChan Cb) :
    (overrideCtrl pKey pIV soft).stCtrl.bKeyByCA = soft.stCtrl.bKeyByCA := by
  cases pKey <;> cases pIV <;> rfl

/-- The nodes processed so far met their context, the queued ones will: the
registers hold the context of each of them. -/
structure CtxInv (v : ChanView Cb) : Prop where
  count : v.regs.ibufCnt + v.hist.finished = v.hist.nodes.length
  processed : v.hist.processed.map Processed.ctx
    = (v.hist.nodes.take v.hist.finished).map Node.ctx
  queued : ∀ n ∈ v.hist.queued, n.ctx = engineCtx v.regs
  key : KeyLoaded v.soft v.regs

namespace CtxInv

variable {c : Chn} {v : ChanView Cb}

/-- After an accepted submit the registers hold the context of its task. -/
theorem engineCtx_accept (pTask : CipherTask) {soft : CipherSoftChan Cb}
    (hkey : KeyLoaded soft v.regs) (hsel : KeySelected soft.stCtrl.bKeyByCA) :
    engineCtx (v.accept c pTask soft).regs
      = taskCtx soft.stCtrl pTask.stData2Process.bDecrypt := by
  rw [engineCtx_cipherCtrlWord c pTask.stData2Process.bDecrypt soft.stCtrl
    (v.accept c pTask soft).regs v.regs.cipherCtrl rfl]
  simp only [ChanView.accept, taskCtx, NodeCtx.mk.injEq, true_and]
  by_cases hca : soft.stCtrl.bKeyByCA = 0#32
  · have hclear : soft.stCtrl.bKeyByCA &&& mask 32 1 ≠ 1#32 := by
      rw [hca]
      decide
    rw [if_neg hclear, if_pos hca]
    cases hch : soft.bKeyChange with
    | true => simp [hca]
    | false => simp [hkey hch hca]
  · rw [if_pos (hsel hca), if_neg hca]

theorem accept (h : CtxInv v) (pTask : CipherTask) {soft : CipherSoftChan Cb}
    (hkey : KeyLoaded soft v.regs) (hsel : KeySelected soft.stCtrl.bKeyByCA)
    (hsame : ∀ n ∈ v.hist.queued,
      n.ctx = taskCtx soft.stCtrl pTask.stData2Process.bDecrypt) :
    CtxInv (v.accept c pTask soft) := by
  have hle : v.hist.finished ≤ v.hist.nodes.length := by
    have := h.count
    omega
  refine ⟨?_, ?_, ?_, ?_⟩
  · have := h.count
    simp only [ChanView.accept, List.length_append, List.length_singleton]
    omega
  · simp only [ChanView.accept, List.take_append_of_le_length hle]
    exact h.processed
  · intro n hn
    rw [engineCtx_accept pTask hkey hsel]
    simp only [ChanView.accept, ChanHist.queued, List.drop_append_of_le_length hle,
      List.mem_append, List.mem_singleton] at hn
    rcases hn with hold | hnew
    · exact hsame n hold
    · rw [hnew]
      rfl
  · intro _ hca
    simp only [ChanView.accept] at hca ⊢
    cases hch : soft.bKeyChange with
    | true => simp [hca]
    | false => simpa using hkey hch hca

theorem reject (h : CtxInv v) {soft : CipherSoftChan Cb} (hkey : KeyLoaded soft v.regs) :
    CtxInv (v.reject soft) :=
  ⟨h.count, h.processed, h.queued, hkey⟩

/-- **The engine's step**: the node whose turn it is meets its context. -/
theorem engine (h : CtxInv v) : CtxInv v.engine := by
  unfold ChanView.engine
  split
  · exact h
  · have hlt : v.hist.finished < v.hist.nodes.length := by
      have := h.count
      omega
    refine ⟨?_, ?_, ?_, h.key⟩
    · have := h.count
      simp only
      omega
    · have hnode : v.hist.nodes[v.hist.finished].ctx = engineCtx v.regs := by
        refine h.queued _ ?_
        rw [ChanHist.queued, List.drop_eq_getElem_cons hlt]
        exact List.mem_cons_self
      simp only [List.map_append, h.processed, List.take_succ_eq_append_getElem hlt,
        List.map_cons, List.map_nil, hnode]
    · intro n hn
      refine (h.queued n ?_).trans rfl
      simp only [ChanHist.queued] at hn ⊢
      rw [List.drop_eq_getElem_cons hlt]
      exact List.mem_cons_of_mem _ hn

theorem config (h : CtxInv v) (pConfig : HiUnfCipherCtrl) (f : Cb)
    (hsame : ∀ n ∈ v.hist.queued, n.ctx = configCtx pConfig v.regs) :
    CtxInv (v.config c pConfig f) := by
  refine ⟨h.count, h.processed, ?_, fun hch => absurd hch (by simp [ChanView.config])⟩
  intro n hn
  rw [hsame n hn]
  exact (engineCtx_cipherCtrlWord c false pConfig (v.config c pConfig f).regs
    v.regs.cipherCtrl rfl).symm

end CtxInv

/-! ## Runs -/

/-- What a run that meets `SameCtx` keeps. -/
structure CtxRun (r : DrvRun Cb) : Prop where
  hw : ∀ c, (r.view c).soft.u32HardWareChn = c
  ctx : ∀ c, c ≠ ciPkgx1Chan → CtxInv (r.view c)

namespace CtxRun

variable {r r' : DrvRun Cb} {c : Chn}

theorem of_view (h : CtxRun r) (hne : ∀ d, d ≠ c → r'.view d = r.view d)
    (hw : (r'.view c).soft.u32HardWareChn = c)
    (hc : c ≠ ciPkgx1Chan → CtxInv (r'.view c)) : CtxRun r' := by
  refine ⟨?_, ?_⟩
  · intro d
    by_cases hd : d = c
    · rw [hd, hw]
    · rw [hne d hd, h.hw d]
  · exact forall_view_of_ne h.ctx hne hc

theorem dataDone (c : Chn) (h : CtxRun r) : CtxRun (runDataDone c r) := by
  have hsoft : ((runDataDone c r).view c).soft = (r.view c).soft := by
    rw [view_soft, runDataDone_soft, view_soft]
  refine h.of_view (fun d hd => view_runDataDone_ne r hd) (by rw [hsoft, h.hw c]) ?_
  intro hc
  have hi := h.ctx c hc
  obtain ⟨hnodes, hfin, hproc, hcnt, hctrl, hkey, -⟩ := runDataDone_frame r (c := c)
  refine ⟨?_, ?_, ?_, ?_⟩
  · rw [view_regs, view_hist, hcnt, hfin, hnodes]
    exact hi.count
  · rw [view_hist, hproc, hfin, hnodes]
    exact hi.processed
  · intro n hn
    rw [view_hist, ChanHist.queued, hfin, hnodes] at hn
    rw [view_regs, engineCtx, hctrl, hkey]
    exact hi.queued n hn
  · rw [hsoft]
    intro hch hca
    rw [view_regs, hkey]
    exact hi.key hch hca

/-- **One step**: `SameCtx` is what keeps the registers right for the nodes
still queued. -/
theorem step (h : CtxRun r) (op : DrvOp Cb) (hop : SameCtx r op) :
    CtxRun (drvStep r op) := by
  cases op with
  | openChn c =>
      refine h.of_view (fun d hd => view_openChn_ne r hd)
        (by simp [drvStep, drvCipherOpenChn]) ?_
      intro hc
      have hi := h.ctx c hc
      rw [view_openChn r hc]
      exact ⟨hi.count, hi.processed, hi.queued, hi.key⟩
  | closeChn c =>
      refine h.of_view (fun d hd => view_closeChn_ne r hd) ?_ ?_
      · rw [view_closeChn]
        exact h.hw c
      · intro hc
        have hi := h.ctx c hc
        rw [view_closeChn]
        exact ⟨hi.count, hi.processed, hi.queued, hi.key⟩
  | configChn c pConfig f =>
      refine h.of_view (fun d hd => view_configChn_ne r hd (h.hw c) pConfig f) ?_ ?_
      · rw [view_soft, drvStep, drvCipherConfigChn]
        simp only [setSoft_soft_self]
        exact h.hw c
      · intro hc
        rw [view_configChn r (h.hw c) hc]
        exact (h.ctx c hc).config pConfig f (hop hc)
  | creatTask c pTask pKey pIV idle =>
      refine h.of_view (fun d hd => view_runCreatTask_ne r hd (h.hw c) pTask pKey pIV idle)
        (runCreatTask_hw r h.hw pTask pKey pIV idle c) ?_
      intro hc
      have hi := h.ctx c hc
      rw [drvStep, view_runCreatTask r hc (h.hw c)]
      split
      · rename_i hlt
        have hsel : KeySelected (overrideCtrl pKey pIV (r.view c).soft).stCtrl.bKeyByCA := by
          rw [overrideCtrl_bKeyByCA]
          exact (hop hc hlt).1
        exact hi.accept pTask (hi.key.override pKey pIV) hsel (hop hc hlt).2
      · exact hi.reject (hi.key.override pKey pIV)
  | engine c =>
      refine h.of_view (fun d hd => view_runEngine_ne r hd) ?_ ?_
      · rw [drvStep, view_runEngine, ChanView.engine]
        split <;> exact h.hw c
      · intro hc
        rw [drvStep, view_runEngine]
        exact (h.ctx c hc).engine
  | dataDone c => exact h.dataDone c
  | isr INTValue => exact runIsr_inv (I := CtxRun) r (fun c _ hr => hr.dataDone c) INTValue h

theorem inContext (h : CtxRun r) : InContext r := fun c hc => (h.ctx c hc).processed

end CtxRun

theorem drvStart_ctxRun (ctrl : Chn → HiU32) (key : Chn → Vector HiU32 8)
    (pConfig : Chn → HiUnfCipherCtrl) (f : Chn → Cb) :
    CtxRun (drvStart ctrl key pConfig f) := by
  have hi := drvStart_runInv ctrl key pConfig f
  refine ⟨hi.hw, ?_⟩
  intro c hc
  refine ⟨(hi.ring c hc).queued, rfl, fun n hn => absurd hn List.not_mem_nil, ?_⟩
  -- the key is still to be loaded
  intro hch
  fin_cases c
  · exact absurd rfl hc
  all_goals cases hch

/-- **Node context**: in every run whose submits and configurations meet
`SameCtx`, each node is processed with the key, the algorithm, the mode, the
width and the direction that were in force for its task. -/
theorem nodes_in_context_of_same_ctx (ctrl : Chn → HiU32) (key : Chn → Vector HiU32 8)
    (pConfig : Chn → HiUnfCipherCtrl) (f : Chn → Cb) (ops : List (DrvOp Cb))
    (h : Along drvStep SameCtx (drvStart ctrl key pConfig f) ops) :
    Always drvStep InContext (drvStart ctrl key pConfig f) ops :=
  (always_of_along (fun _ op hr hop => hr.step op hop)
    (drvStart_ctxRun ctrl key pConfig f) h).mono fun _ => CtxRun.inContext

/-- A task of direction `bDecrypt`. -/
def taskOf (bDecrypt : Bool) : CipherTask :=
  ⟨⟨0, 0, 0, bDecrypt, Vector.replicate 4 0⟩, 1⟩

/-- Two encryptions queued together, then a decryption on its own. -/
theorem nodes_in_context_when_alike :
    Always drvStep InContext zeroStart
      [.creatTask 1 (taskOf false) none none true, .creatTask 1 (taskOf false) none none true,
        .engine 1, .engine 1, .creatTask 1 (taskOf true) none none true, .engine 1] :=
  nodes_in_context_of_same_ctx _ _ _ _ _ (by decide)

/-- An encryption still queued when a decryption is submitted is processed as a
decryption. -/
theorem queued_encryption_is_decrypted :
    ¬ Always drvStep InContext zeroStart
      [.creatTask 1 (taskOf false) none none true, .creatTask 1 (taskOf true) none none true,
        .engine 1] := by
  intro h
  have hctx := h.last 1 (by decide)
  revert hctx
  decide

end ExtDrv.Cipher
