import ExtDrv.Cipher.Ring

/-!
# Suspend and resume

`DRV_Cipher_Suspend` does nothing, the engine loses its registers, and `DRV_Cipher_Resume` sets up
the rings as `DRV_Cipher_Init` does. The driver's own indices and soft channels stay as they were,
and no interrupt is enabled again.
-/

namespace ExtDrv.Cipher

open RingBuf Run

variable {Cb : Type}

/-! ## Resuming -/

/-- The engine out of reset: it has no nodes, and reads a list from its first entry. The contents
of the control and key registers are whatever they are. -/
def resetRegs (ctrl : Chn → HiU32) (key : Chn → Vector HiU32 8) : HalRegs where
  chan := fun c => ⟨0, 0, 0, 0, 0, 0, 0, 0, ctrl c, key c⟩
  intEn := 0
  chan0Ivin := Vector.replicate 4 0
  chan0Din := Vector.replicate 4 0
  chan0Cfg := 0

/-- `HAL_Cipher_DisableAllInt`. -/
def halCipherDisableAllInt (r : HalRegs) : HalRegs := { r with intEn := 0 }

/-- `DRV_Cipher_Resume`; the lists are where they were. -/
def drvCipherResume (st : DrvState Cb) : DrvState Cb :=
  let r := halCipherDisableAllInt st.regs
  let r := multiPkgChns.foldl (fun r c => drvCipherInitHardWareChn c r) r
  st.setRegs (halCipherDisableAllInt r)

/-- The driver is suspended and resumed. What happens from now on is told from here. -/
def DrvRun.resume (r : DrvRun Cb) (ctrl : Chn → HiU32) (key : Chn → Vector HiU32 8) : DrvRun Cb where
  st := drvCipherResume (r.st.setRegs (resetRegs ctrl key))
  hist := fun _ => .empty
  fault := false

/-! ## What is wanted -/

/-- `CIPHER_INT_TYPE_OUT_BUF` of a channel is enabled, and so are interrupts as a whole. -/
def OutIntEnabled (r : HalRegs) (c : Chn) : Prop :=
  r.intEn.getLsbD (8 + c.val) = true ∧ r.intEn.getLsbD 31 = true

/-- The driver's indices agree with the list position the engine takes nodes from: the nodes it has
end where the next submit writes, those it is done with begin where the completion routine reads. -/
structure PointersAgree (v : ChanView Cb) : Prop where
  submit : v.chan.unInData.u32CurrentPtr = slotAt v.regs.srcLstRaddr v.regs.ibufCnt
  complete : slotAt v.chan.unOutData.u32CurrentPtr v.regs.ofullCnt = v.regs.srcLstRaddr
  /-- The oldest node that is not finished is the one the engine reads next. -/
  next : ∀ n, v.hist.nodes[v.hist.finished]? = some n → n.slot = v.regs.srcLstRaddr

/-- Every node is read by the engine from the entry it was put in, its completion finds its own
soft channel, and the channels that are open can report. -/
structure Consistent (r : DrvRun Cb) : Prop where
  pointers : ∀ c, c ≠ ciPkgx1Chan → PointersAgree (r.view c)
  slots : RunSafe r
  enabled : ∀ c, (r.view c).soft.bOpen = true →
    OutIntEnabled r.st.regs (r.view c).soft.u32HardWareChn

/-- Nothing is open, and the rings are back at their first entries. -/
structure AtRest (r : DrvRun Cb) : Prop where
  closed : ∀ c, (r.view c).soft.bOpen = false
  inPtr : ∀ c, c ≠ ciPkgx1Chan → (r.view c).chan.unInData.u32CurrentPtr = 0
  outPtr : ∀ c, c ≠ ciPkgx1Chan → (r.view c).chan.unOutData.u32CurrentPtr = 0

/-! ## The rings agree -/

theorem RingInv.agree {v : ChanView Cb} (h : RingInv v) : PointersAgree v where
  submit := by
    have hq := h.queued
    rw [h.inPtr, h.readPtr, slotAt_slotAt]
    congr 1
    omega
  complete := by
    have hf := h.full
    rw [h.outPtr, h.readPtr, slotAt_slotAt]
    congr 1
    omega
  next := by
    intro n hn
    obtain ⟨hlt, rfl⟩ := List.getElem?_eq_some_iff.mp hn
    rw [h.slots _ hlt, h.readPtr]

section

variable {r : DrvRun Cb} {ctrl : Chn → HiU32} {key : Chn → Vector HiU32 8} {c : Chn}

theorem resume_soft : ((r.resume ctrl key).view c).soft = (r.view c).soft := rfl

theorem resume_intEn : (r.resume ctrl key).st.regs.intEn = 0 := rfl

/-- The engine has no nodes, is done with none, and starts at the first entry. -/
theorem resume_regs (hc : c ≠ ciPkgx1Chan) : ((r.resume ctrl key).view c).regs.ibufCnt = 0 ∧
    ((r.resume ctrl key).view c).regs.ofullCnt = 0 ∧
    ((r.resume ctrl key).view c).regs.srcLstRaddr = 0 := by
  fin_cases c
  · exact absurd rfl hc
  all_goals exact ⟨rfl, rfl, rfl⟩

theorem AtRest.ringInv (h : AtRest r) (hc : c ≠ ciPkgx1Chan) :
    RingInv ((r.resume ctrl key).view c) := by
  obtain ⟨hin, hfull, hread⟩ := @resume_regs Cb r ctrl key c hc
  refine ⟨?_, ?_, h.inPtr c hc, h.outPtr c hc, hread, fun k hk => ?_⟩
  · rw [hin]
    rfl
  · rw [hfull]
    rfl
  · exact absurd hk (Nat.not_lt_zero k)

/-- The rings of a driver at rest fit the engine again. -/
theorem AtRest.safe (h : AtRest r) (hhw : ∀ c, (r.view c).soft.u32HardWareChn = c) :
    RunInv (r.resume ctrl key) ∧ RunSafe (r.resume ctrl key) := by
  refine ⟨⟨hhw, fun c hc => h.ringInv hc⟩, rfl, fun c hc => ?_⟩
  exact ⟨List.nodup_nil, nofun, nofun, nofun, nofun⟩

/-- What agrees with the engine out of reset is at rest. -/
theorem Consistent.atRest (h : Consistent (r.resume ctrl key)) : AtRest r := by
  refine ⟨fun c => ?_, fun c hc => ?_, fun c hc => ?_⟩
  · rw [← Bool.not_eq_true]
    intro hopen
    have henabled := (h.enabled c hopen).1
    rw [resume_intEn] at henabled
    simp at henabled
  · obtain ⟨hin, -, hread⟩ := @resume_regs Cb r ctrl key c hc
    have hsubmit := (h.pointers c hc).submit
    rw [hin, hread] at hsubmit
    exact hsubmit
  · obtain ⟨-, hfull, hread⟩ := @resume_regs Cb r ctrl key c hc
    have hcomplete := (h.pointers c hc).complete
    rw [hfull, hread, slotAt_zero] at hcomplete
    exact hcomplete

/-! ## Interrupts stay enabled -/

theorem halCipherSetCount_intEn (put : Nat → ChanRegs → ChanRegs) (c : Chn) (n : Nat)
    (x : HalRegs) : (halCipherSetCount put c n x).2.intEn = x.intEn := by
  unfold halCipherSetCount
  split <;> rfl

theorem halCipherSetInIV_intEn (c : Chn) (pCtrl : HiUnfCipherCtrl) (x : HalRegs) :
    (halCipherSetInIV c pCtrl x).2.intEn = x.intEn := by
  unfold halCipherSetInIV
  split <;> rfl

theorem halCipherSetKey_intEn (c : Chn) (pCtrl : HiUnfCipherCtrl) (x : HalRegs) :
    (halCipherSetKey c pCtrl x).intEn = x.intEn := by
  unfold halCipherSetKey
  split <;> rfl

theorem halCipherConfig_intEn (c : Chn) (bDecrypt bIVChange : Bool) (pCtrl : HiUnfCipherCtrl)
    (x : HalRegs) : (halCipherConfig c bDecrypt bIVChange pCtrl x).2.intEn = x.intEn := by
  cases bIVChange with
  | true => exact halCipherSetInIV_intEn c pCtrl x
  | false => rfl

theorem drvCipherCreatTask_intEn (c : Chn) (pTask : CipherTask) (pKey : Option (Vector HiU32 8))
    (pIV : Option (Vector HiU32 4)) (idle : Bool) (st : DrvState Cb) :
    (drvCipherCreatTask c pTask pKey pIV idle st).2.regs.intEn = st.regs.intEn := by
  unfold drvCipherCreatTask
  dsimp only
  split
  · simp only [drvCipherStartSinglePkgChn, setRegs_regs, halCipherSetKey_intEn,
      halCipherSetInIV_intEn, halCipherConfig_intEn, setSoft_regs]
  · simp only [drvCipherStartMultiPkgChn]
    split
    · simp only [setSoft_regs, setChan_regs, setRegs_regs, submitRegs, halCipherSetInBufCnt,
        halCipherSetCount_intEn, halCipherConfig_intEn]
      split
      · rw [halCipherSetKey_intEn]
      · rfl
    · rfl

theorem runDataDone_intEn (c : Chn) (r : DrvRun Cb) :
    (runDataDone c r).st.regs.intEn = r.st.regs.intEn := by
  unfold runDataDone drvCipherDataDoneMultiPkg
  cases halCipherGetOutBufFull c r.st.regs with
  | none => rfl
  | some fullCnt =>
    by_cases hpos : fullCnt > 0
    · simp only [if_pos hpos]
      cases dataDoneLoop r.st.g_stCipherSoftChans fullCnt (r.st.g_stCipherChans c).au32WitchSoftChn
        (r.st.g_stCipherChans c).unOutData.u32CurrentPtr with
      | none => rfl
      | some x =>
        simp only [Option.map_some, DrvRun.setHist, setChan_regs, setRegs_regs,
          halCipherSetInBufEmpty, halCipherSetOutBufFull, halCipherSetOutBufCnt,
          halCipherSetCount_intEn]
    · simp only [if_neg hpos, DrvRun.setHist]

theorem openChn_intEn (c : Chn) (r : DrvRun Cb) : (drvStep r (.openChn c)).st.regs.intEn
    = r.st.regs.intEn ||| (1#32 <<< 31) ||| (1#32 <<< (8 + c.val)) := by
  simp only [drvStep, drvCipherOpenChn, halCipherEnableInt, setSoft_regs, setRegs_regs,
    halCipherSetIntThreshold, halCipherSetCount_intEn]
  split
  · rename_i hc
    rw [hc]
    rfl
  · rfl

/-- An opened channel can report. -/
theorem OutIntEnabled.openChn (c : Chn) (r : DrvRun Cb) :
    OutIntEnabled (drvStep r (.openChn c)).st.regs c := by
  have hbits : ∀ c : Chn, (1#32 <<< (8 + c.val)).getLsbD (8 + c.val) = true := by decide
  refine ⟨?_, ?_⟩
  · rw [openChn_intEn, BitVec.getLsbD_or, hbits, Bool.or_true]
  · rw [openChn_intEn, BitVec.getLsbD_or, BitVec.getLsbD_or,
      show (1#32 <<< 31).getLsbD 31 = true by decide, Bool.or_true, Bool.true_or]

/-- No step disables an interrupt. -/
theorem OutIntEnabled.step {d : Chn} (h : OutIntEnabled r.st.regs d) (op : DrvOp Cb) :
    OutIntEnabled (drvStep r op).st.regs d := by
  have hsame (r' : DrvRun Cb) (heq : r'.st.regs.intEn = r.st.regs.intEn) :
      OutIntEnabled r'.st.regs d := by
    rw [OutIntEnabled, heq]
    exact h
  cases op with
  | openChn c =>
    have hmono (i : Nat) (hi : r.st.regs.intEn.getLsbD i = true) :
        (drvStep r (.openChn c)).st.regs.intEn.getLsbD i = true := by
      rw [openChn_intEn, BitVec.getLsbD_or, BitVec.getLsbD_or, hi]
      rfl
    exact ⟨hmono _ h.1, hmono _ h.2⟩
  | closeChn c => exact h
  | configChn c pConfig f => exact hsame _ (halCipherConfig_intEn ..)
  | creatTask c pTask pKey pIV idle =>
    refine hsame _ ?_
    rw [drvStep, runCreatTask]
    dsimp only
    split
    · exact drvCipherCreatTask_intEn ..
    · exact drvCipherCreatTask_intEn ..
  | engine c =>
    refine hsame _ ?_
    rw [drvStep, runEngine]
    dsimp only
    split
    · rfl
    · rw [DrvRun.setHist, engineFinish, if_neg ‹_›]
      rfl
  | dataDone c => exact hsame _ (runDataDone_intEn c r)
  | isr INTValue =>
    refine hsame _ ?_
    exact runIsr_inv (I := fun r' => r'.st.regs.intEn = r.st.regs.intEn) r
      (fun c r' hr' => (runDataDone_intEn c r').trans hr') INTValue rfl

theorem runIsr_soft (INTValue : HiU32) (r : DrvRun Cb) :
    (runIsr INTValue r).st.g_stCipherSoftChans = r.st.g_stCipherSoftChans :=
  runIsr_inv (I := fun r' => r'.st.g_stCipherSoftChans = r.st.g_stCipherSoftChans) r
    (fun c r' hr' => (runDataDone_soft (c := c) r').trans hr') INTValue rfl

/-- A step opens the channel it is for, and no other. -/
theorem bOpen_step (hhw : ∀ c, (r.view c).soft.u32HardWareChn = c) {op : DrvOp Cb} {d : Chn}
    (h : ((drvStep r op).view d).soft.bOpen = true) :
    op = .openChn d ∨ (r.view d).soft.bOpen = true := by
  cases op with
  | openChn c =>
    by_cases hd : d = c
    · exact Or.inl (by rw [hd])
    · rw [view_openChn_ne r hd] at h
      exact Or.inr h
  | closeChn c =>
    by_cases hd : d = c
    · subst hd
      rw [view_closeChn] at h
      cases h
    · rw [view_closeChn_ne r hd] at h
      exact Or.inr h
  | configChn c pConfig f =>
    refine Or.inr ?_
    by_cases hd : d = c
    · subst hd
      rw [view_soft, drvStep, drvCipherConfigChn] at h
      simp only [setSoft_soft_self] at h
      exact h
    · rw [view_configChn_ne r hd (hhw c)] at h
      exact h
  | creatTask c pTask pKey pIV idle =>
    refine Or.inr ?_
    have hover : (overrideCtrl pKey pIV (r.view c).soft).bOpen = (r.view c).soft.bOpen := by
      cases pKey <;> cases pIV <;> rfl
    by_cases hd : d = c
    · subst hd
      by_cases hd0 : d = ciPkgx1Chan
      · subst hd0
        rw [drvStep, runCreatTask_pkgx1_soft r (hhw _), hover] at h
        exact h
      · rw [drvStep, view_runCreatTask r hd0 (hhw d)] at h
        rw [← hover]
        split at h
        · exact h
        · exact h
    · rw [drvStep, view_runCreatTask_ne r hd (hhw c)] at h
      exact h
  | engine c =>
    refine Or.inr ?_
    by_cases hd : d = c
    · subst hd
      rw [drvStep, view_runEngine, ChanView.engine] at h
      split at h
      · exact h
      · exact h
    · rw [drvStep, view_runEngine_ne r hd] at h
      exact h
  | dataDone c =>
    rw [view_soft, drvStep, runDataDone_soft] at h
    exact Or.inr h
  | isr INTValue =>
    rw [view_soft, drvStep, runIsr_soft] at h
    exact Or.inr h

/-! ## Runs after a resume -/

/-- Every open channel can report, and the rings are counted right. -/
structure Reporting (r : DrvRun Cb) : Prop where
  ring : RunInv r
  enabled : ∀ c, (r.view c).soft.bOpen = true → OutIntEnabled r.st.regs c

theorem Reporting.step (h : Reporting r) (hs : RunSafe r) (op : DrvOp Cb) :
    Reporting (drvStep r op) where
  ring := h.ring.step hs op
  enabled := by
    intro d hopen
    rcases bOpen_step h.ring.hw hopen with rfl | hbefore
    · exact OutIntEnabled.openChn d r
    · exact (h.enabled d hbefore).step op

theorem Reporting.consistent_iff (h : Reporting r) : Consistent r ↔ RunSafe r := by
  refine ⟨Consistent.slots, fun hs => ⟨fun c hc => (h.ring.ring c hc).agree, hs, fun c hopen => ?_⟩⟩
  rw [h.ring.hw c]
  exact h.enabled c hopen

theorem AtRest.reporting (h : AtRest r) (hhw : ∀ c, (r.view c).soft.u32HardWareChn = c) :
    Reporting (r.resume ctrl key) where
  ring := (h.safe hhw).1
  enabled := by
    intro c hopen
    rw [resume_soft, h.closed c] at hopen
    cases hopen

/-- **A resumed driver**: along a run it is consistent exactly if it was at rest, and every submit
finds room. -/
theorem always_consistent_iff (hhw : ∀ c, (r.view c).soft.u32HardWareChn = c)
    (ops : List (DrvOp Cb)) : Always drvStep Consistent (r.resume ctrl key) ops
      ↔ AtRest r ∧ Along drvStep SubmitRoom (r.resume ctrl key) ops := by
  have hiff (hrest : AtRest r) : Always drvStep Consistent (r.resume ctrl key) ops
      ↔ Along drvStep SubmitRoom (r.resume ctrl key) ops := by
    refine always_iff_along_of_inv (J := Reporting) ?_ ?_ (hrest.reporting hhw)
      ((hrest.reporting hhw).consistent_iff.mpr (hrest.safe hhw).2)
    · intro r op hr hc _
      exact hr.step hc.slots op
    · intro r op hr hc
      rw [(hr.step hc.slots op).consistent_iff]
      exact RunSafe.step_iff hr.ring hc.slots op
  constructor
  · intro h
    have hrest := h.head.atRest
    exact ⟨hrest, (hiff hrest).mp h⟩
  · rintro ⟨hrest, h⟩
    exact (hiff hrest).mpr h

/-- No step moves a soft channel to another hardware channel. -/
theorem hw_step (hhw : ∀ c, (r.view c).soft.u32HardWareChn = c) (op : DrvOp Cb) (d : Chn) :
    ((drvStep r op).view d).soft.u32HardWareChn = d := by
  cases op with
  | openChn c =>
    by_cases hd : d = c
    · subst hd
      simp [drvStep, drvCipherOpenChn]
    · rw [view_openChn_ne r hd]
      exact hhw d
  | closeChn c =>
    by_cases hd : d = c
    · subst hd
      rw [view_closeChn]
      exact hhw d
    · rw [view_closeChn_ne r hd]
      exact hhw d
  | configChn c pConfig f =>
    by_cases hd : d = c
    · subst hd
      rw [view_soft, drvStep, drvCipherConfigChn]
      simp only [setSoft_soft_self]
      exact hhw d
    · rw [view_configChn_ne r hd (hhw c)]
      exact hhw d
  | creatTask c pTask pKey pIV idle => exact runCreatTask_hw r hhw pTask pKey pIV idle d
  | engine c =>
    by_cases hd : d = c
    · subst hd
      rw [drvStep, view_runEngine, ChanView.engine]
      split <;> exact hhw d
    · rw [drvStep, view_runEngine_ne r hd]
      exact hhw d
  | dataDone c =>
    rw [view_soft, drvStep, runDataDone_soft]
    exact hhw d
  | isr INTValue =>
    rw [view_soft, drvStep, runIsr_soft]
    exact hhw d

theorem hw_exec (hhw : ∀ c, (r.view c).soft.u32HardWareChn = c) (ops : List (DrvOp Cb)) (d : Chn) :
    ((exec drvStep r ops).view d).soft.u32HardWareChn = d := by
  induction ops generalizing r with
  | nil => exact hhw d
  | cons op ops ih => exact ih (hw_step hhw op)

end

/-- **Suspend and resume**: after any run before the suspend, the run after the resume is consistent
throughout exactly if nothing was open and all rings were at their first entries, and every submit
after the resume finds room. -/
theorem resume_consistent_iff (ctrl ctrl' : Chn → HiU32) (key key' : Chn → Vector HiU32 8)
    (pConfig : Chn → HiUnfCipherCtrl) (f : Chn → Cb) (ops ops' : List (DrvOp Cb)) :
    Always drvStep Consistent
        ((exec drvStep (drvStart ctrl key pConfig f) ops).resume ctrl' key') ops'
      ↔ AtRest (exec drvStep (drvStart ctrl key pConfig f) ops) ∧
        Along drvStep SubmitRoom
          ((exec drvStep (drvStart ctrl key pConfig f) ops).resume ctrl' key') ops' :=
  always_consistent_iff (hw_exec (drvStart_runInv ctrl key pConfig f).hw ops) ops'

/-- **A stale index**: one task before the suspend, done and reported, and the driver submits to
the second entry where the engine reads the first. -/
theorem resume_broken : ¬ ∀ ops ops' : List (DrvOp Unit), Always drvStep Consistent
    ((exec drvStep zeroStart ops).resume (fun _ => 0) fun _ => Vector.replicate 8 0) ops' := by
  intro h
  have hrest :=
    (h [.creatTask 1 (zeroTask 1) none none true, .engine 1, .isr 0x200#32] []).head.atRest
  have hin := hrest.inPtr 1 (by decide)
  revert hin
  decide

end ExtDrv.Cipher
