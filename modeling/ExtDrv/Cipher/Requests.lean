import ExtDrv.Cipher.Threads
import ExtDrv.Cipher.Ring
import ExtDrv.Cipher.Ownership

/-!
# When an Encrypt or Decrypt returns success

The done flag is one Boolean per soft channel. A request clears it, submits
its node, and waits for it; any completion on the channel sets it. As long
as a request clears the flag only when the channel has no other node on its
way, the completion it wakes up to is its own.
-/

namespace ExtDrv.Cipher

open RingBuf Run

variable {n : Nat}

/-! ## The ioctl layer's invariant -/

/-- What holds of a multi-packet channel while no request overlaps another on
it. -/
structure ChanOk (c : Chn) (v : ChanView Unit) : Prop where
  ring : RingInv v
  safe : SlotSafe c v
  few : v.hist.unacked.length ≤ 1
  arg : v.hist.nodes ≠ [] → v.soft.u32PirvateData = BitVec.ofNat 32 c.val

/-- While a node of a channel is on its way, the channel's done flag is
clear. -/
structure IntfInv (i : IntfState) : Prop where
  noFault : i.drv.fault = false
  chan : ∀ c, c ≠ ciPkgx1Chan → ChanOk c (i.drv.view c)
  opened : ∀ c, (i.g_stCipherOsrChn c).g_bSoftChnOpen = true →
    c ≠ ciPkgx1Chan ∧ (i.drv.view c).soft.u32HardWareChn = c
  noCallBack0 : (i.drv.view ciPkgx1Chan).soft.pfnCallBack = none
  clear : ∀ c, c ≠ ciPkgx1Chan → (i.drv.hist c).unacked ≠ [] →
    (i.g_stCipherOsrChn c).g_bDataDone = false

/-- A channel ready for the submit of a request that cleared its flag. -/
structure Ready (i : IntfState) (c : Chn) : Prop where
  multi : c ≠ ciPkgx1Chan
  hw : (i.drv.view c).soft.u32HardWareChn = c
  empty : (i.drv.hist c).unacked = []
  clear : (i.g_stCipherOsrChn c).g_bDataDone = false

/-- What the steps other than a submit keep for the requests under way: no
node is forgotten, no acknowledgement is taken back, and a channel that is
ready for a submit stays so. -/
structure Keeps (i i' : IntfState) : Prop where
  nodes : ∀ c, (i'.drv.hist c).nodes = (i.drv.hist c).nodes
  acked : ∀ c, (i.drv.hist c).acked ≤ (i'.drv.hist c).acked
  ready : ∀ c, Ready i c → Ready i' c

namespace Keeps

variable {i i' i'' : IntfState}

theorem refl (i : IntfState) : Keeps i i := ⟨fun _ => rfl, fun _ => Nat.le_refl _, fun _ h => h⟩

theorem trans (h : Keeps i i') (h' : Keeps i' i'') : Keeps i i'' :=
  ⟨fun c => (h'.nodes c).trans (h.nodes c), fun c => Nat.le_trans (h.acked c) (h'.acked c),
    fun c hr => h'.ready c (h.ready c hr)⟩

end Keeps

/-! ## Steps that leave the rings alone -/

/-- The rings and their histories are the same, the done flags too, and soft
channels differ in nothing a request depends on. -/
structure SameRings (i i' : IntfState) : Prop where
  fault : i'.drv.fault = i.drv.fault
  chan : ∀ c, (i'.drv.view c).chan = (i.drv.view c).chan
  hist : ∀ c, (i'.drv.view c).hist = (i.drv.view c).hist
  ibufCnt : ∀ c, (i'.drv.view c).regs.ibufCnt = (i.drv.view c).regs.ibufCnt
  ofullCnt : ∀ c, (i'.drv.view c).regs.ofullCnt = (i.drv.view c).regs.ofullCnt
  srcLstRaddr : ∀ c, (i'.drv.view c).regs.srcLstRaddr = (i.drv.view c).regs.srcLstRaddr
  arg : ∀ c, (i'.drv.view c).soft.u32PirvateData = (i.drv.view c).soft.u32PirvateData
  noCallBack0 : (i.drv.view ciPkgx1Chan).soft.pfnCallBack = none →
    (i'.drv.view ciPkgx1Chan).soft.pfnCallBack = none
  hw : ∀ c, (i.drv.view c).soft.u32HardWareChn = c → (i'.drv.view c).soft.u32HardWareChn = c
  done : ∀ c, (i'.g_stCipherOsrChn c).g_bDataDone = (i.g_stCipherOsrChn c).g_bDataDone

namespace SameRings

variable {i i' : IntfState}

theorem keeps (h : SameRings i i') : Keeps i i' where
  nodes c := congrArg ChanHist.nodes (h.hist c)
  acked c := Nat.le_of_eq (congrArg ChanHist.acked (h.hist c)).symm
  ready c hr :=
    { multi := hr.multi
      hw := h.hw c hr.hw
      empty := (congrArg ChanHist.unacked (h.hist c)).trans hr.empty
      clear := (h.done c).trans hr.clear }

theorem inv (h : SameRings i i') (hi : IntfInv i)
    (hopen : ∀ c, (i'.g_stCipherOsrChn c).g_bSoftChnOpen = true →
      c ≠ ciPkgx1Chan ∧ (i'.drv.view c).soft.u32HardWareChn = c) : IntfInv i' where
  noFault := h.fault.trans hi.noFault
  chan := by
    intro c hc
    have ok := hi.chan c hc
    exact
      { ring := ok.ring.congr (h.chan c) (h.hist c) (h.ibufCnt c) (h.ofullCnt c) (h.srcLstRaddr c)
        safe := ok.safe.congr (h.chan c) (h.hist c)
        few := by
          rw [h.hist c]
          exact ok.few
        arg := by
          rw [h.hist c, h.arg c]
          exact ok.arg }
  opened := hopen
  noCallBack0 := h.noCallBack0 hi.noCallBack0
  clear := by
    intro c hc hne
    have hhi : (i'.drv.hist c).unacked = (i.drv.hist c).unacked :=
      congrArg ChanHist.unacked (h.hist c)
    rw [hhi] at hne
    rw [h.done c]
    exact hi.clear c hc hne

/-- A driver step on one channel that touches neither its ring nor its
history, with any change of the open flags and owners. -/
theorem of_view {r r' : DrvRun Unit} {o o' : Chn → CipherOsrChn} {c : Chn}
    (hne : ∀ d, d ≠ c → r'.view d = r.view d) (hfault : r'.fault = r.fault)
    (hchan : (r'.view c).chan = (r.view c).chan) (hhist : (r'.view c).hist = (r.view c).hist)
    (hregs : (r'.view c).regs.ibufCnt = (r.view c).regs.ibufCnt
      ∧ (r'.view c).regs.ofullCnt = (r.view c).regs.ofullCnt
      ∧ (r'.view c).regs.srcLstRaddr = (r.view c).regs.srcLstRaddr)
    (harg : (r'.view c).soft.u32PirvateData = (r.view c).soft.u32PirvateData)
    (hcb : c = ciPkgx1Chan → (r'.view c).soft.pfnCallBack = (r.view c).soft.pfnCallBack)
    (hhw : (r.view c).soft.u32HardWareChn = c → (r'.view c).soft.u32HardWareChn = c)
    (hdone : ∀ d, (o' d).g_bDataDone = (o d).g_bDataDone) :
    SameRings ⟨o, r⟩ ⟨o', r'⟩ := by
  have hview : ∀ {β : Type} (g : ChanView Unit → β), g (r'.view c) = g (r.view c) →
      ∀ d, g (r'.view d) = g (r.view d) := by
    intro β g hg d
    by_cases hd : d = c
    · rw [hd, hg]
    · rw [hne d hd]
  refine ⟨hfault, hview ChanView.chan hchan, hview ChanView.hist hhist,
    hview (fun v => v.regs.ibufCnt) hregs.1, hview (fun v => v.regs.ofullCnt) hregs.2.1,
    hview (fun v => v.regs.srcLstRaddr) hregs.2.2,
    hview (fun v => v.soft.u32PirvateData) harg, ?_, ?_, hdone⟩
  · intro h0
    by_cases hd : c = ciPkgx1Chan
    · have := hcb hd
      rw [hd] at this
      exact this.trans h0
    · exact (congrArg (fun v => v.soft.pfnCallBack) (hne _ (Ne.symm hd))).trans h0
  · intro d hd
    by_cases hdc : d = c
    · rw [hdc] at hd ⊢
      exact hhw hd
    · exact (congrArg (fun v => v.soft.u32HardWareChn) (hne d hdc)).trans hd

end SameRings

section Commands

variable {s : IntfState}

/-- Opening a channel, whatever its open flag and owner become. -/
theorem openChn_sameRings (s : IntfState) {c : Chn} (hc : c ≠ ciPkgx1Chan) {x : CipherOsrChn}
    (hx : x.g_bDataDone = (s.g_stCipherOsrChn c).g_bDataDone) :
    SameRings s ⟨Function.update s.g_stCipherOsrChn c x, drvStep s.drv (.openChn c)⟩ := by
  have hv := view_openChn s.drv hc
  refine .of_view (c := c) (fun d hd => view_openChn_ne s.drv hd) rfl ?_ ?_ ?_ ?_ ?_ ?_ ?_
  · rw [hv]
  · rw [hv]
  · rw [hv]
    exact ⟨rfl, rfl, rfl⟩
  · rw [hv]
  · intro h
    exact absurd h hc
  · intro _
    rw [hv]
  · intro d
    by_cases hd : d = c
    · rw [hd, Function.update_self, hx]
    · rw [Function.update_of_ne hd]

theorem openChn_inv (hi : IntfInv s) {c : Chn} (hc : c ≠ ciPkgx1Chan) {x : CipherOsrChn}
    (hx : x.g_bDataDone = (s.g_stCipherOsrChn c).g_bDataDone) :
    IntfInv ⟨Function.update s.g_stCipherOsrChn c x, drvStep s.drv (.openChn c)⟩ := by
  refine (openChn_sameRings s hc hx).inv hi ?_
  intro d hd
  by_cases hdc : d = c
  · rw [hdc, view_openChn s.drv hc]
    exact ⟨hc, rfl⟩
  · simp only [Function.update_of_ne hdc] at hd
    rw [view_openChn_ne s.drv hdc]
    exact hi.opened d hd

theorem createHandle_keeps (hi : IntfInv s) (file : File) (fails : Bool) :
    IntfInv (ioctlCreateHandle file fails s).2.2
      ∧ Keeps s (ioctlCreateHandle file fails s).2.2 := by
  unfold ioctlCreateHandle
  cases hfind : multiPkgChns.find? fun i => !(s.g_stCipherOsrChn i).g_bSoftChnOpen with
  | none => exact ⟨hi, .refl s⟩
  | some c =>
      have hc : c ≠ ciPkgx1Chan := by
        have hmem := List.mem_of_find?_eq_some hfind
        rintro rfl
        exact absurd hmem (by decide)
      -- a failed copy leaves the channel open without an owner
      cases fails with
      | true =>
          have hsame := openChn_sameRings s hc
            (x := { s.g_stCipherOsrChn c with g_bSoftChnOpen := true }) rfl
          exact ⟨openChn_inv hi hc rfl, hsame.keeps⟩
      | false =>
          have hsame := openChn_sameRings s hc (x := { s.g_stCipherOsrChn c with
            g_bSoftChnOpen := true, pWichFile := some file }) rfl
          simp only [Bool.false_eq_true, if_false, IntfState.setOsr, Function.update_self,
            Function.update_idem]
          exact ⟨openChn_inv hi hc rfl, hsame.keeps⟩

/-- Closing a channel. -/
theorem closeChn_keeps (hi : IntfInv s) (c : Chn) :
    IntfInv { s.setOsr c { s.g_stCipherOsrChn c with
        g_bSoftChnOpen := false, pWichFile := none } with drv := drvStep s.drv (.closeChn c) }
      ∧ Keeps s { s.setOsr c { s.g_stCipherOsrChn c with
        g_bSoftChnOpen := false, pWichFile := none } with
          drv := drvStep s.drv (.closeChn c) } := by
  have hv := view_closeChn s.drv (c := c)
  have hsame : SameRings s ⟨Function.update s.g_stCipherOsrChn c
      { s.g_stCipherOsrChn c with g_bSoftChnOpen := false, pWichFile := none },
        drvStep s.drv (.closeChn c)⟩ := by
    refine .of_view (c := c) (fun d hd => view_closeChn_ne s.drv hd) rfl ?_ ?_ ?_ ?_ ?_ ?_ ?_
    · rw [hv]
    · rw [hv]
    · rw [hv]
      exact ⟨rfl, rfl, rfl⟩
    · rw [hv]
    · intro _
      rw [hv]
    · intro h
      rw [hv]
      exact h
    · intro d
      by_cases hd : d = c
      · rw [hd, Function.update_self]
      · rw [Function.update_of_ne hd]
  refine ⟨hsame.inv hi ?_, hsame.keeps⟩
  intro d hd
  have hdc : d ≠ c := by
    rintro rfl
    simp at hd
  simp only [Function.update_of_ne hdc] at hd
  exact ⟨(hi.opened d hd).1, hsame.hw d (hi.opened d hd).2⟩

theorem destroyHandle_keeps (hi : IntfInv s) (file : File) (arg : HiU32) :
    IntfInv (ioctlDestroyHandle file arg s).2
      ∧ Keeps s (ioctlDestroyHandle file arg s).2 := by
  unfold ioctlDestroyHandle
  cases softChanIdx (arg &&& 0x00ff#32) with
  | none => exact ⟨hi, .refl s⟩
  | some c =>
      by_cases ho : s.owns file c = false
      · simp only [if_pos ho]
        exact ⟨hi, .refl s⟩
      · simp only [if_neg ho]
        exact closeChn_keeps hi c

theorem configHandle_keeps (hi : IntfInv s) (file : File) (arg : Option CipherConfigCtrl) :
    IntfInv (ioctlConfigHandle file arg s).2
      ∧ Keeps s (ioctlConfigHandle file arg s).2 := by
  cases arg with
  | none => exact ⟨hi, .refl s⟩
  | some CIConfig =>
      simp only [ioctlConfigHandle]
      cases softChanIdx (CIConfig.CIHandle &&& 0xffff#32) with
      | none => exact ⟨hi, .refl s⟩
      | some c =>
          by_cases ho : s.owns file c = false
          · simp only [if_pos ho]
            exact ⟨hi, .refl s⟩
          · simp only [if_neg ho]
            have howns : (s.g_stCipherOsrChn c).g_bSoftChnOpen = true := by
              simp only [IntfState.owns] at ho
              simp_all
            obtain ⟨hc, hhw⟩ := hi.opened c howns
            have hv := view_configChn s.drv hhw hc CIConfig.CIpstCtrl ()
            have hsame : SameRings s ⟨s.g_stCipherOsrChn,
                drvStep s.drv (.configChn c CIConfig.CIpstCtrl ())⟩ := by
              refine .of_view (c := c)
                (fun d hd => view_configChn_ne s.drv hd hhw CIConfig.CIpstCtrl ()) rfl
                ?_ ?_ ?_ ?_ ?_ ?_ fun _ => rfl
              · rw [hv]
                rfl
              · rw [hv]
                rfl
              · rw [hv]
                exact ⟨rfl, rfl, rfl⟩
              · rw [hv]
                rfl
              · intro h
                exact absurd h hc
              · intro h
                rw [hv]
                exact h
            refine ⟨hsame.inv hi ?_, hsame.keeps⟩
            intro d hd
            exact ⟨(hi.opened d hd).1, hsame.hw d (hi.opened d hd).2⟩

/-- Clearing the done flag of a channel. -/
theorem clearDone_keeps (hi : IntfInv s) (c : Chn) :
    IntfInv (s.setOsr c { s.g_stCipherOsrChn c with g_bDataDone := false })
      ∧ Keeps s (s.setOsr c { s.g_stCipherOsrChn c with g_bDataDone := false }) := by
  have hosr : ∀ d, ((s.setOsr c { s.g_stCipherOsrChn c with
      g_bDataDone := false }).g_stCipherOsrChn d).g_bSoftChnOpen
        = (s.g_stCipherOsrChn d).g_bSoftChnOpen := by
    intro d
    by_cases hd : d = c
    · rw [hd]
      simp [IntfState.setOsr]
    · simp [IntfState.setOsr, Function.update_of_ne hd]
  have hdone : ∀ d, (s.g_stCipherOsrChn d).g_bDataDone = false →
      ((s.setOsr c { s.g_stCipherOsrChn c with
        g_bDataDone := false }).g_stCipherOsrChn d).g_bDataDone = false := by
    intro d h
    by_cases hd : d = c
    · rw [hd]
      simp [IntfState.setOsr]
    · simpa [IntfState.setOsr, Function.update_of_ne hd] using h
  refine ⟨⟨hi.noFault, hi.chan, ?_, hi.noCallBack0, ?_⟩, ⟨fun _ => rfl, fun _ => Nat.le_refl _, ?_⟩⟩
  · intro d hd
    rw [hosr d] at hd
    exact hi.opened d hd
  · intro d hd hne
    exact hdone d (hi.clear d hd hne)
  · intro d hr
    exact ⟨hr.multi, hr.hw, hr.empty, hdone d hr.clear⟩

theorem release_keeps (hi : IntfInv s) (file : File) :
    IntfInv (drvCipherRelease file s) ∧ Keeps s (drvCipherRelease file s) := by
  unfold drvCipherRelease
  generalize List.finRange ciChanNum = cs
  induction cs generalizing s with
  | nil => exact ⟨hi, .refl s⟩
  | cons c cs ih =>
      rw [List.foldl_cons]
      have hstep : IntfInv (releaseChn file s c) ∧ Keeps s (releaseChn file s c) := by
        unfold releaseChn
        split
        · exact closeChn_keeps hi c
        · exact ⟨hi, .refl s⟩
      obtain ⟨hinv, hkeeps⟩ := ih hstep.1
      exact ⟨hinv, hstep.2.trans hkeeps⟩

end Commands

/-! ## Events -/

section Events

variable {s : IntfState}

/-- The engine finishes a node: nothing is submitted, nothing acknowledged. -/
theorem engine_frame (r : DrvRun Unit) (c d : Chn) :
    ((runEngine c r).view d).soft = (r.view d).soft
      ∧ ((runEngine c r).hist d).nodes = (r.hist d).nodes
      ∧ ((runEngine c r).hist d).acked = (r.hist d).acked := by
  have hframe : ∀ v : ChanView Unit, v.engine.soft = v.soft
      ∧ v.engine.hist.nodes = v.hist.nodes ∧ v.engine.hist.acked = v.hist.acked := by
    intro v
    rw [ChanView.engine]
    split <;> exact ⟨rfl, rfl, rfl⟩
  rw [← view_hist, ← view_hist]
  by_cases hd : d = c
  · rw [hd, view_runEngine r]
    exact hframe (r.view c)
  · rw [view_runEngine_ne r hd]
    exact ⟨rfl, rfl, rfl⟩

theorem engine_unacked (r : DrvRun Unit) (c d : Chn) :
    ((runEngine c r).hist d).unacked = (r.hist d).unacked := by
  obtain ⟨-, hnodes, hacked⟩ := engine_frame r c d
  rw [ChanHist.unacked, ChanHist.unacked, hnodes, hacked]

theorem engine_inv (hi : IntfInv s) (c : Chn) : IntfInv (intfEvent s (.engine c)) := by
  refine ⟨runEngine_fault.trans hi.noFault, ?_, ?_, ?_, ?_⟩
  · intro d hd
    have ok := hi.chan d hd
    obtain ⟨hsoft, hnodes, -⟩ := engine_frame s.drv c d
    by_cases hdc : d = c
    · subst hdc
      refine ⟨?_, ?_, ?_, ?_⟩
      · rw [intfEvent, drvStep, view_runEngine]
        exact ok.ring.engine
      · rw [intfEvent, drvStep, view_runEngine]
        exact ok.safe.engine
      · rw [view_hist, intfEvent, drvStep, engine_unacked]
        exact ok.few
      · intro hnil
        rw [view_hist, intfEvent, drvStep, hnodes] at hnil
        rw [intfEvent, drvStep, hsoft]
        exact ok.arg hnil
    · rw [intfEvent, drvStep, view_runEngine_ne s.drv hdc]
      exact ok
  · intro d hd
    rw [intfEvent, drvStep, (engine_frame s.drv c d).1]
    exact hi.opened d hd
  · rw [intfEvent, drvStep, (engine_frame s.drv c ciPkgx1Chan).1]
    exact hi.noCallBack0
  · intro d hd hleft
    rw [intfEvent, drvStep, engine_unacked] at hleft
    exact hi.clear d hd hleft

theorem engine_keeps (s : IntfState) (c : Chn) : Keeps s (intfEvent s (.engine c)) where
  nodes d := (engine_frame s.drv c d).2.1
  acked d := Nat.le_of_eq (engine_frame s.drv c d).2.2.symm
  ready d hr :=
    { multi := hr.multi
      hw := by
        rw [intfEvent, drvStep, (engine_frame s.drv c d).1]
        exact hr.hw
      empty := (engine_unacked s.drv c d).trans hr.empty
      clear := hr.clear }

/-- Callbacks with the number of one channel reach that channel only. -/
theorem runCallBacks_ne {c d : Chn} (hd : d ≠ c) (calls : List (Unit × HiU32))
    (hcalls : ∀ x ∈ calls, x.2 = BitVec.ofNat 32 c.val) (o : Chn → CipherOsrChn) :
    runCallBacks calls o d = o d := by
  induction calls generalizing o with
  | nil => rfl
  | cons x calls ih =>
      have hx := hcalls x List.mem_cons_self
      have hrest := ih (fun y hy => hcalls y (List.mem_cons_of_mem _ hy))
        (drvCipherUserCommCallBack x.2 o)
      rw [runCallBacks, List.foldl_cons]
      rw [runCallBacks] at hrest
      rw [hrest, drvCipherUserCommCallBack, hx, softChanIdx_ofNat]
      exact Function.update_of_ne hd _ _

/-- What an acknowledgement calls back, while requests do not overlap: the
channel's callback, once for each node. -/
theorem dataDoneCalls_eq (hi : IntfInv s) {c : Chn} (hc : c ≠ ciPkgx1Chan) :
    dataDoneCalls c s.drv.st
      = (List.replicate (s.drv.view c).regs.ofullCnt (callBack (s.drv.view c).soft)).flatten := by
  have ok := hi.chan c hc
  obtain ⟨slots, hview, -, -⟩ := view_runDataDone_of_safe hc ok.ring ok.safe
  have hcalls := runDataDone_calls s.drv (c := c)
  have hview' := congrArg (fun v => v.hist.calls) hview
  simp only [view_hist, ChanView.ack] at hview'
  rw [hview', List.append_cancel_left_eq] at hcalls
  exact hcalls.symm

/-- The callback is handed the number of the channel. -/
theorem dataDoneCalls_arg (hi : IntfInv s) {c : Chn} (hc : c ≠ ciPkgx1Chan) :
    ∀ x ∈ dataDoneCalls c s.drv.st, x.2 = BitVec.ofNat 32 c.val := by
  have ok := hi.chan c hc
  have hlen := ok.ring.unacked_length
  rw [dataDoneCalls_eq hi hc]
  intro x hx
  obtain ⟨l, hl, hxl⟩ := List.mem_flatten.mp hx
  rw [List.mem_replicate] at hl
  obtain ⟨hpos, rfl⟩ := hl
  have hne : (s.drv.view c).hist.nodes ≠ [] := by
    intro hnil
    have hempty : (s.drv.view c).hist.unacked = [] := by
      rw [ChanHist.unacked, hnil, List.drop_nil]
    rw [hempty, List.length_nil] at hlen
    omega
  unfold callBack at hxl
  split at hxl
  · rw [List.mem_singleton.mp hxl]
    exact ok.arg hne
  · simp at hxl

/-- An acknowledgement takes no node away. -/
theorem dataDone_nodes (hi : IntfInv s) {c : Chn} (hc : c ≠ ciPkgx1Chan) (d : Chn) :
    ((runDataDone c s.drv).hist d).nodes = (s.drv.hist d).nodes := by
  have ok := hi.chan c hc
  obtain ⟨slots, hview, -, -⟩ := view_runDataDone_of_safe hc ok.ring ok.safe
  by_cases hd : d = c
  · subst hd
    exact congrArg (fun v => v.hist.nodes) hview
  · exact congrArg (fun v => v.hist.nodes) (view_runDataDone_ne s.drv hd)

theorem dataDone_acked (hi : IntfInv s) {c : Chn} (hc : c ≠ ciPkgx1Chan) (d : Chn) :
    (s.drv.hist d).acked ≤ ((runDataDone c s.drv).hist d).acked := by
  have ok := hi.chan c hc
  obtain ⟨slots, hview, -, -⟩ := view_runDataDone_of_safe hc ok.ring ok.safe
  by_cases hd : d = c
  · subst hd
    have hacked := congrArg (fun v => v.hist.acked) hview
    simp only [view_hist, ChanView.ack] at hacked
    omega
  · exact Nat.le_of_eq (congrArg (fun v => v.hist.acked) (view_runDataDone_ne s.drv hd)).symm

theorem dataDone_unacked (hi : IntfInv s) {c : Chn} (hc : c ≠ ciPkgx1Chan) :
    ((runDataDone c s.drv).hist c).unacked
      = (s.drv.hist c).unacked.drop (s.drv.view c).regs.ofullCnt := by
  have ok := hi.chan c hc
  obtain ⟨slots, hview, -, -⟩ := view_runDataDone_of_safe hc ok.ring ok.safe
  have hunacked := congrArg (fun v => v.hist.unacked) hview
  simpa [ChanView.ack, ChanHist.unacked, List.drop_drop] using hunacked

/-- Where nothing was outstanding nothing is. -/
theorem dataDone_empty (hi : IntfInv s) {c : Chn} (hc : c ≠ ciPkgx1Chan) {d : Chn}
    (hempty : (s.drv.hist d).unacked = []) : ((runDataDone c s.drv).hist d).unacked = [] := by
  by_cases hd : d = c
  · subst hd
    rw [dataDone_unacked hi hc, hempty, List.drop_nil]
  · exact (congrArg (fun v => v.hist.unacked) (view_runDataDone_ne s.drv hd)).trans hempty

theorem dataDone_soft (c d : Chn) :
    ((runDataDone c s.drv).view d).soft = (s.drv.view d).soft := by
  rw [view_soft, runDataDone_soft, view_soft]

/-- A clear done flag stays clear where nothing was outstanding, and where
something still is. -/
theorem dataDone_clear (hi : IntfInv s) {c : Chn} (hc : c ≠ ciPkgx1Chan) {d : Chn}
    (hclear : (s.g_stCipherOsrChn d).g_bDataDone = false)
    (hcase : (s.drv.hist d).unacked = [] ∨ ((runDataDone c s.drv).hist d).unacked ≠ []) :
    ((intfDataDone c s).g_stCipherOsrChn d).g_bDataDone = false := by
  show (runCallBacks (dataDoneCalls c s.drv.st) s.g_stCipherOsrChn d).g_bDataDone = false
  by_cases hd : d = c
  case neg =>
    rw [runCallBacks_ne hd _ (dataDoneCalls_arg hi hc)]
    exact hclear
  subst hd
  have ok := hi.chan d hc
  have hfew : (s.drv.hist d).unacked.length ≤ 1 := ok.few
  have hlen : (s.drv.hist d).unacked.length
      = (s.drv.view d).regs.ibufCnt + (s.drv.view d).regs.ofullCnt := ok.ring.unacked_length
  -- at most one node was outstanding, so if one is left none is acknowledged
  have h0 : (s.drv.view d).regs.ofullCnt = 0 := by
    rcases hcase with hempty | hleft
    · rw [hempty, List.length_nil] at hlen
      omega
    · rw [dataDone_unacked hi hc, ne_eq, List.drop_eq_nil_iff] at hleft
      omega
  have hnone : dataDoneCalls d s.drv.st = [] := by
    rw [dataDoneCalls_eq hi hc, h0, List.replicate_zero, List.flatten_nil]
  rw [hnone]
  exact hclear

theorem dataDone_inv (hi : IntfInv s) {c : Chn} (hc : c ≠ ciPkgx1Chan) :
    IntfInv (intfDataDone c s) := by
  have ok := hi.chan c hc
  obtain ⟨slots, hview, hfault, hsafe⟩ := view_runDataDone_of_safe hc ok.ring ok.safe
  refine ⟨hfault.trans hi.noFault, ?_, ?_, ?_, ?_⟩
  · intro d hd
    by_cases hdc : d = c
    · subst hdc
      refine ⟨?_, hsafe, ?_, ?_⟩
      · rw [intfDataDone, hview]
        exact ok.ring.ack rfl
      · show ((runDataDone d s.drv).hist d).unacked.length ≤ 1
        rw [dataDone_unacked hi hc, List.length_drop]
        exact (Nat.sub_le _ _).trans ok.few
      · intro hnil
        rw [intfDataDone, dataDone_soft]
        exact ok.arg fun hnodes => hnil ((dataDone_nodes hi hc d).trans hnodes)
    · rw [intfDataDone, view_runDataDone_ne s.drv hdc]
      exact hi.chan d hd
  · intro d hd
    rw [intfDataDone, (runCallBacks_owners _ _ d).1] at hd
    rw [intfDataDone, dataDone_soft]
    exact hi.opened d hd
  · rw [intfDataDone, dataDone_soft]
    exact hi.noCallBack0
  · intro d hd hleft
    have hbefore : (s.drv.hist d).unacked ≠ [] := fun hempty => hleft (dataDone_empty hi hc hempty)
    exact dataDone_clear hi hc (hi.clear d hd hbefore) (.inr hleft)

theorem dataDone_keeps (hi : IntfInv s) {c : Chn} (hc : c ≠ ciPkgx1Chan) :
    Keeps s (intfDataDone c s) where
  nodes := dataDone_nodes hi hc
  acked := dataDone_acked hi hc
  ready d hr :=
    { multi := hr.multi
      hw := by
        rw [intfDataDone, dataDone_soft]
        exact hr.hw
      empty := dataDone_empty hi hc hr.empty
      clear := dataDone_clear hi hc hr.clear (.inl hr.empty) }

/-- The single-packet channel has no callback. -/
theorem singlePkgCalls_nil (hi : IntfInv s) (INTValue : HiU32) :
    (if INTValue.getLsbD 8 then drvCipherDataDoneSinglePkg 0 s.drv.st else []) = [] := by
  have hcb : (s.drv.st.g_stCipherSoftChans 0).pfnCallBack = none := hi.noCallBack0
  split
  · simp [drvCipherDataDoneSinglePkg, callBack, hcb]
  · rfl

theorem intfEvent_keeps (hi : IntfInv s) (e : IntfEvent) :
    IntfInv (intfEvent s e) ∧ Keeps s (intfEvent s e) := by
  cases e with
  | engine c => exact ⟨engine_inv hi c, engine_keeps s c⟩
  | isr INTValue =>
      have hmulti : ∀ c ∈ isrChannels INTValue, c ≠ ciPkgx1Chan := by
        intro c hc
        have hmem := List.mem_of_mem_filter hc
        rintro rfl
        exact absurd hmem (by decide)
      simp only [intfEvent, intfIsr, singlePkgCalls_nil hi, runCallBacks, List.foldl_nil]
      generalize isrChannels INTValue = cs at hmulti
      induction cs generalizing s with
      | nil => exact ⟨hi, .refl s⟩
      | cons c cs ih =>
          have hinv := dataDone_inv hi (hmulti c List.mem_cons_self)
          have hkeeps := dataDone_keeps hi (hmulti c List.mem_cons_self)
          obtain ⟨hinv', hkeeps'⟩ := ih hinv (fun d hd => hmulti d (List.mem_cons_of_mem _ hd))
          exact ⟨hinv', hkeeps.trans hkeeps'⟩

end Events

/-! ## The submit -/

/-- A submit on a channel that is ready is accepted. -/
theorem view_creatTask_of_ready {s : IntfState} (hi : IntfInv s) {c : Chn} (hr : Ready s c)
    (pCITask : CipherTask) :
    (ioctlCreatTask c pCITask s).1 = hiSuccess
      ∧ (ioctlCreatTask c pCITask s).2.drv.view c
        = (s.drv.view c).accept c pCITask (s.drv.view c).soft := by
  have hlen := (hi.chan c hr.multi).ring.unacked_length
  have hempty : (s.drv.view c).hist.unacked = [] := hr.empty
  rw [hempty, List.length_nil] at hlen
  have hlt : (s.drv.view c).regs.ibufCnt < ciMaxListNum := by
    have h0 : (s.drv.view c).regs.ibufCnt = 0 := by omega
    rw [h0]
    decide
  refine ⟨drvCipherCreatTask_ret s.drv hr.multi hr.hw hlt pCITask none none true, ?_⟩
  have hview := view_runCreatTask s.drv hr.multi hr.hw pCITask none none true
  rw [if_pos hlt] at hview
  exact hview

theorem view_creatTask_ne {s : IntfState} {c d : Chn} (hr : Ready s c) (hd : d ≠ c)
    (pCITask : CipherTask) :
    (ioctlCreatTask c pCITask s).2.drv.view d = s.drv.view d :=
  view_runCreatTask_ne s.drv hd hr.hw pCITask none none true

/-- The submit keeps the invariant: its node is the only one on its way. -/
theorem creatTask_inv {s : IntfState} (hi : IntfInv s) {c : Chn} (hr : Ready s c)
    {pCITask : CipherTask} (harg : pCITask.u32CallBackArg = BitVec.ofNat 32 c.val) :
    IntfInv (ioctlCreatTask c pCITask s).2 := by
  have hview := (view_creatTask_of_ready hi hr pCITask).2
  have hne : ∀ d, d ≠ c → (ioctlCreatTask c pCITask s).2.drv.view d = s.drv.view d :=
    fun d hd => view_creatTask_ne hr hd pCITask
  have ok := hi.chan c hr.multi
  have hempty : (s.drv.view c).hist.unacked = [] := hr.empty
  have hsafe : SlotSafe c ((s.drv.view c).accept c pCITask (s.drv.view c).soft) :=
    SlotSafe.accept ok.ring ok.safe pCITask _ (by rw [hempty]; decide)
  refine ⟨?_, ?_, ?_, ?_, ?_⟩
  · exact (runCreatTask_fault pCITask none none true).trans hi.noFault
  · intro d hd
    by_cases hdc : d = c
    · subst hdc
      rw [hview]
      refine ⟨ok.ring.accept pCITask _, hsafe, ?_, fun _ => harg⟩
      have hlen := (ok.ring.accept (c := d) pCITask (s.drv.view d).soft).unacked_length
      have hlen' := ok.ring.unacked_length
      rw [hempty, List.length_nil] at hlen'
      simp only [ChanView.accept] at hlen ⊢
      omega
    · rw [hne d hdc]
      exact hi.chan d hd
  · intro d hd
    refine ⟨(hi.opened d hd).1, ?_⟩
    by_cases hdc : d = c
    · subst hdc
      rw [hview]
      exact hr.hw
    · rw [hne d hdc]
      exact (hi.opened d hd).2
  · rw [hne _ (Ne.symm hr.multi)]
    exact hi.noCallBack0
  · intro d hd hleft
    by_cases hdc : d = c
    · rw [hdc]
      exact hr.clear
    · have hhist := congrArg (fun v => v.hist.unacked) (hne d hdc)
      refine hi.clear d hd ?_
      rw [← show ((ioctlCreatTask c pCITask s).2.drv.hist d).unacked
        = (s.drv.hist d).unacked from hhist]
      exact hleft

/-! ## The threads -/

def IoctlCmd.isCrypt : IoctlCmd → Bool
  | .encrypt _ | .decrypt _ => true
  | _ => false

/-- The node `own` was put in a multi-packet ring, has been finished by the
engine and acknowledged by the interrupt routine. -/
def Reported (i : IntfState) (own : Option (Chn × Nat)) : Prop :=
  ∃ c k, own = some (c, k) ∧ c ≠ ciPkgx1Chan ∧ k < (i.drv.hist c).acked
    ∧ k < (i.drv.hist c).finished

/-- What a thread may rely on where it is. -/
def PcOk (i : IntfState) (cmd : IoctlCmd) : Pc → Prop
  | .out | .atDown | .body _ => True
  | .submitting c pCITask =>
      Ready i c ∧ pCITask.u32CallBackArg = BitVec.ofNat 32 c.val
  | .waiting c k => c ≠ ciPkgx1Chan ∧ k < (i.drv.hist c).nodes.length
  | .atDown2 c k => c ≠ ciPkgx1Chan ∧ k < (i.drv.hist c).acked
  | .atUp _ Ret own | .returned Ret own =>
      Ret = hiSuccess → cmd.isCrypt = true →
        ∃ c k, own = some (c, k) ∧ c ≠ ciPkgx1Chan ∧ k < (i.drv.hist c).acked

/-- The ioctl layer's invariant, what each thread relies on, and that no two
threads are about to submit on one channel. -/
structure ReqInv (s : Sys n) : Prop where
  intf : IntfInv s.intf
  pc : ∀ t, PcOk s.intf (s.thr t).cmd (s.thr t).pc
  alone : ∀ t u c, (s.thr t).pc.submittingOn c = true →
    (s.thr u).pc.submittingOn c = true → t = u

/-- Whenever an Encrypt or Decrypt has returned success, the node that very
call put in the ring has been reported. -/
def OwnNodeReported (s : Sys n) : Prop :=
  ∀ t Ret own, (s.thr t).pc = .returned Ret own → (s.thr t).cmd.isCrypt = true →
    Ret = hiSuccess → Reported s.intf own

/-- The command is not about to clear the done flag of a channel on which a
node is unacknowledged or another request is about to submit. -/
def ClearsAlone (s : Sys n) : IoctlBody → Prop
  | .leave _ _ _ => True
  | .submit c _ _ => (s.intf.drv.hist c).unacked = []
      ∧ ∀ u, (s.thr u).pc.submittingOn c = false

/-- The node waited for is acknowledged. -/
def NodeAcked (s : Sys n) : Pc → Prop
  | .waiting c k => k < (s.intf.drv.hist c).acked
  | _ => True

/-- A request clears the done flag of a channel only when no node of the
channel is unacknowledged and no other request is about to submit there, and
a wait is broken by a signal only after its node was reported. -/
def NoOverlap (s : Sys n) : Act n → Prop
  | .body t => ClearsAlone s (ioctlBody (s.thr t).file (s.thr t).cmd s.intf)
  | .wake t .signal => NodeAcked s (s.thr t).pc
  | _ => True

instance ClearsAlone.decidable (s : Sys n) : ∀ b, Decidable (ClearsAlone s b)
  | .leave _ _ _ => .isTrue trivial
  | .submit c _ _ => inferInstanceAs (Decidable ((s.intf.drv.hist c).unacked = []
      ∧ ∀ u, (s.thr u).pc.submittingOn c = false))

instance NodeAcked.decidable (s : Sys n) : ∀ pc, Decidable (NodeAcked s pc)
  | .waiting c k => inferInstanceAs (Decidable (k < (s.intf.drv.hist c).acked))
  | .out | .atDown | .body _ | .submitting _ _ | .atDown2 _ _ | .atUp _ _ _
  | .returned _ _ => .isTrue trivial

instance NoOverlap.decidable (s : Sys n) : ∀ a, Decidable (NoOverlap s a)
  | .body t => ClearsAlone.decidable s (ioctlBody (s.thr t).file (s.thr t).cmd s.intf)
  | .wake t .signal => NodeAcked.decidable s (s.thr t).pc
  | .wake _ .done | .wake _ .timeout => .isTrue trivial
  | .call _ _ _ | .down _ _ | .submit _ | .down2 _ _ | .up _ | .event _
  | .release _ => .isTrue trivial

/-- An Encrypt or Decrypt gives up with an error, or goes on to submit on a
channel whose done flag it has cleared. -/
theorem ioctlCrypt_keeps {i : IntfState} (hi : IntfInv i) (bDecrypt : Bool) (file : File)
    (arg : Option CipherData) :
    match ioctlCrypt bDecrypt file arg i with
    | .leave Ret _ i' => IntfInv i' ∧ Keeps i i' ∧ Ret ≠ hiSuccess
    | .submit c pCITask i' =>
        IntfInv i' ∧ Keeps i i' ∧ pCITask.u32CallBackArg = BitVec.ofNat 32 c.val
          ∧ ((i.drv.hist c).unacked = [] → Ready i' c) := by
  rcases ioctlCrypt_cases bDecrypt file arg i with
    ⟨Ret, hret, heq⟩ | ⟨c, pCITask, howns, harg, heq⟩
  · rw [heq]
    exact ⟨hi, .refl i, hret⟩
  · rw [heq]
    obtain ⟨hinv, hkeeps⟩ := clearDone_keeps hi c
    obtain ⟨hc, hhw⟩ := hi.opened c (owns_eq_true.mp howns).1
    refine ⟨hinv, hkeeps, harg, fun hempty => ⟨hc, hhw, hempty, ?_⟩⟩
    simp [IntfState.setOsr]

/-- What the commands do up to the next `up`. -/
theorem ioctlBody_keeps {i : IntfState} (hi : IntfInv i) (file : File) (cmd : IoctlCmd) :
    match ioctlBody file cmd i with
    | .leave Ret _ i' =>
        IntfInv i' ∧ Keeps i i' ∧ (Ret = hiSuccess → cmd.isCrypt = false)
    | .submit c pCITask i' =>
        IntfInv i' ∧ Keeps i i' ∧ pCITask.u32CallBackArg = BitVec.ofNat 32 c.val
          ∧ ((i.drv.hist c).unacked = [] → Ready i' c) := by
  cases cmd with
  | createHandle fails =>
      obtain ⟨hinv, hkeeps⟩ := createHandle_keeps hi file fails
      exact ⟨hinv, hkeeps, fun _ => rfl⟩
  | destroyHandle arg =>
      obtain ⟨hinv, hkeeps⟩ := destroyHandle_keeps hi file arg
      exact ⟨hinv, hkeeps, fun _ => rfl⟩
  | configHandle arg =>
      obtain ⟨hinv, hkeeps⟩ := configHandle_keeps hi file arg
      exact ⟨hinv, hkeeps, fun _ => rfl⟩
  | encrypt arg =>
      have h := ioctlCrypt_keeps hi false file arg
      simp only [ioctlBody]
      cases hb : ioctlCrypt false file arg i with
      | leave Ret out i' =>
          rw [hb] at h
          exact ⟨h.1, h.2.1, fun hret => absurd hret h.2.2⟩
      | submit c pCITask i' =>
          rw [hb] at h
          exact h
  | decrypt arg =>
      have h := ioctlCrypt_keeps hi true file arg
      simp only [ioctlBody]
      cases hb : ioctlCrypt true file arg i with
      | leave Ret out i' =>
          rw [hb] at h
          exact ⟨h.1, h.2.1, fun hret => absurd hret h.2.2⟩
      | submit c pCITask i' =>
          rw [hb] at h
          exact h
  | other => exact ⟨hi, .refl i, fun _ => rfl⟩

theorem Pc.submittingOn_iff {pc : Pc} {c : Chn} :
    pc.submittingOn c = true ↔ ∃ p, pc = .submitting c p := by
  cases pc with
  | submitting d p =>
      simp only [Pc.submittingOn, decide_eq_true_eq, Pc.submitting.injEq, exists_and_left,
        exists_eq', and_true]
  | _ => simp [Pc.submittingOn]

/-- What a thread relies on outlives the steps of the others, if they leave
the channel it is about to submit on ready. -/
theorem PcOk.mono {i i' : IntfState} {cmd : IoctlCmd} {pc : Pc} (h : PcOk i cmd pc)
    (hnodes : ∀ c, (i.drv.hist c).nodes.length ≤ (i'.drv.hist c).nodes.length)
    (hacked : ∀ c, (i.drv.hist c).acked ≤ (i'.drv.hist c).acked)
    (hready : ∀ c, pc.submittingOn c = true → Ready i c → Ready i' c) : PcOk i' cmd pc := by
  cases pc with
  | out => trivial
  | atDown => trivial
  | body held => trivial
  | submitting c p => exact ⟨hready c (Pc.submittingOn_iff.mpr ⟨p, rfl⟩) h.1, h.2⟩
  | waiting c k => exact ⟨h.1, Nat.lt_of_lt_of_le h.2 (hnodes c)⟩
  | atDown2 c k => exact ⟨h.1, Nat.lt_of_lt_of_le h.2 (hacked c)⟩
  | atUp held Ret own =>
      intro hret hcmd
      obtain ⟨c, k, hown, hc, hk⟩ := h hret hcmd
      exact ⟨c, k, hown, hc, Nat.lt_of_lt_of_le hk (hacked c)⟩
  | returned Ret own =>
      intro hret hcmd
      obtain ⟨c, k, hown, hc, hk⟩ := h hret hcmd
      exact ⟨c, k, hown, hc, Nat.lt_of_lt_of_le hk (hacked c)⟩

namespace ReqInv

variable {s s' : Sys n} {t : Fin n}

/-- A step of one thread that is no submit. -/
theorem of_keeps (h : ReqInv s) (hinv : IntfInv s'.intf) (hkeeps : Keeps s.intf s'.intf)
    (hother : ∀ u, u ≠ t → s'.thr u = s.thr u)
    (hpc : PcOk s'.intf (s'.thr t).cmd (s'.thr t).pc)
    (hsub : ∀ c, (s'.thr t).pc.submittingOn c = true →
      ∀ u, (s.thr u).pc.submittingOn c = false) : ReqInv s' := by
  refine ⟨hinv, ?_, ?_⟩
  · intro u
    by_cases hu : u = t
    · rw [hu]
      exact hpc
    · rw [hother u hu]
      exact (h.pc u).mono (fun c => Nat.le_of_eq (congrArg List.length (hkeeps.nodes c)).symm)
        hkeeps.acked fun c _ => hkeeps.ready c
  · intro u w c hu hw
    by_cases hut : u = t
    · by_cases hwt : w = t
      · rw [hut, hwt]
      · rw [hut] at hu
        rw [hother w hwt, hsub c hu w] at hw
        cases hw
    · by_cases hwt : w = t
      · rw [hwt] at hw
        rw [hother u hut, hsub c hw u] at hu
        cases hu
      · rw [hother u hut] at hu
        rw [hother w hwt] at hw
        exact h.alone u w c hu hw

/-- A step of one thread that leaves the ioctl layer alone. -/
theorem of_pc (h : ReqInv s) (hintf : s'.intf = s.intf)
    (hother : ∀ u, u ≠ t → s'.thr u = s.thr u)
    (hpc : PcOk s'.intf (s'.thr t).cmd (s'.thr t).pc)
    (hsub : ∀ c, (s'.thr t).pc.submittingOn c = false) : ReqInv s' := by
  refine h.of_keeps (t := t) (hintf ▸ h.intf) (hintf ▸ .refl s.intf) hother hpc ?_
  intro c hc
  rw [hsub c] at hc
  cases hc

/-- A step of the hardware or of a closing file. -/
theorem of_intf (h : ReqInv s) {i : IntfState} (hinv : IntfInv i) (hkeeps : Keeps s.intf i) :
    ReqInv { s with intf := i } :=
  ⟨hinv, fun u => (h.pc u).mono
    (fun c => Nat.le_of_eq (congrArg List.length (hkeeps.nodes c)).symm) hkeeps.acked
    fun c _ => hkeeps.ready c, h.alone⟩

theorem setPc_cmd (s : Sys n) (t : Fin n) (pc : Pc) :
    ((s.setPc t pc).thr t).cmd = (s.thr t).cmd := by
  simp [Sys.setPc]

/-- A thread moves on to a place where it is not about to submit. -/
theorem of_setPc (h : ReqInv s) (sem : Nat) {pc : Pc} (hpc : PcOk s.intf (s.thr t).cmd pc)
    (hsub : ∀ c, pc.submittingOn c = false) : ReqInv { s.setPc t pc with sem := sem } := by
  refine h.of_pc (t := t) rfl (fun u hu => SemInv.setPc_ne s _ hu) ?_ ?_
  · simp only [SemInv.setPc_self, setPc_cmd]
    exact hpc
  · simp only [SemInv.setPc_self]
    exact hsub

/-- A done flag that is set means that every node of the channel has been
acknowledged. -/
theorem acked_of_done (h : ReqInv s) {c : Chn} {k : Nat} (hpc : (s.thr t).pc = .waiting c k)
    (hdone : (s.intf.g_stCipherOsrChn c).g_bDataDone = true) :
    k < (s.intf.drv.hist c).acked := by
  have hok := h.pc t
  rw [hpc] at hok
  obtain ⟨hc, hk⟩ := hok
  have hempty : (s.intf.drv.hist c).unacked = [] := by
    by_contra hne
    rw [h.intf.clear c hc hne] at hdone
    cases hdone
  rw [ChanHist.unacked, List.drop_eq_nil_iff] at hempty
  omega

/-- The submit of a request. -/
theorem submit (h : ReqInv s) {c : Chn} {pCITask : CipherTask}
    (hpc : (s.thr t).pc = .submitting c pCITask) :
    ReqInv { s.setPc t (.waiting c (s.intf.drv.hist c).nodes.length) with
      intf := (ioctlCreatTask c pCITask s.intf).2 } := by
  have hok := h.pc t
  rw [hpc] at hok
  obtain ⟨hr, harg⟩ := hok
  have hview := (view_creatTask_of_ready h.intf hr pCITask).2
  have hne : ∀ d, d ≠ c →
      (ioctlCreatTask c pCITask s.intf).2.drv.view d = s.intf.drv.view d :=
    fun d hd => view_creatTask_ne hr hd pCITask
  have hnodes : ((ioctlCreatTask c pCITask s.intf).2.drv.hist c).nodes.length
      = (s.intf.drv.hist c).nodes.length + 1 := by
    have := congrArg (fun v => v.hist.nodes.length) hview
    simpa [ChanView.accept] using this
  have hacked : ∀ d, ((ioctlCreatTask c pCITask s.intf).2.drv.hist d).acked
      = (s.intf.drv.hist d).acked := by
    intro d
    by_cases hd : d = c
    · rw [hd]
      exact congrArg (fun v => v.hist.acked) hview
    · exact congrArg (fun v => v.hist.acked) (hne d hd)
  have hother : ∀ u, u ≠ t → (s.thr u).pc.submittingOn c = false := by
    intro u hu
    by_contra hsub
    exact hu (h.alone u t c (by simpa using hsub)
      (Pc.submittingOn_iff.mpr ⟨pCITask, hpc⟩))
  refine ⟨creatTask_inv h.intf hr harg, ?_, ?_⟩
  · intro u
    by_cases hu : u = t
    · rw [hu]
      simp only [SemInv.setPc_self]
      exact ⟨hr.multi, by omega⟩
    · simp only [SemInv.setPc_ne s _ hu]
      refine (h.pc u).mono ?_ (fun d => Nat.le_of_eq (hacked d).symm) ?_
      · intro d
        by_cases hd : d = c
        · rw [hd]
          omega
        · exact Nat.le_of_eq (congrArg (fun v => v.hist.nodes.length) (hne d hd)).symm
      · intro d hsub hrd
        have hd : d ≠ c := by
          rintro rfl
          rw [hother u hu] at hsub
          cases hsub
        exact ⟨hrd.multi, (congrArg (fun v => v.soft.u32HardWareChn) (hne d hd)).trans hrd.hw,
          (congrArg (fun v => v.hist.unacked) (hne d hd)).trans hrd.empty, hrd.clear⟩
  · intro u w d hu hw
    by_cases hut : u = t
    · rw [hut, SemInv.setPc_self] at hu
      cases hu
    · by_cases hwt : w = t
      · rw [hwt, SemInv.setPc_self] at hw
        cases hw
      · rw [SemInv.setPc_ne s _ hut] at hu
        rw [SemInv.setPc_ne s _ hwt] at hw
        exact h.alone u w d hu hw

/-- **One step**: as long as requests do not overlap on a channel, a thread
that wakes up to a set done flag finds its own node acknowledged. -/
theorem step (h : ReqInv s) (a : Act n) (ha : NoOverlap s a)
    (hstep : sysStep s a = some s') : ReqInv s' := by
  cases moves_of_sysStep hstep with
  | @call t file cmd =>
      exact h.of_pc (t := t) rfl (fun u hu => Function.update_of_ne hu _ _)
        (by simp [PcOk]) (by simp [Pc.submittingOn])
  | downBroken | downTaken => exact h.of_setPc _ trivial fun _ => rfl
  | @leave t held Ret out i hpc hbody =>
      have hkept := ioctlBody_keeps h.intf (s.thr t).file (s.thr t).cmd
      rw [hbody] at hkept
      obtain ⟨hinv, hkeeps, hret⟩ := hkept
      refine h.of_keeps (t := t) hinv hkeeps (fun u hu => SemInv.setPc_ne s _ hu) ?_ ?_
      · simp only [SemInv.setPc_self, setPc_cmd]
        intro hsucc hcmd
        rw [hret hsucc] at hcmd
        cases hcmd
      · intro c hc
        simp [SemInv.setPc_self, Pc.submittingOn] at hc
  | @toSubmit t held c pCITask i hpc hbody =>
      have hkept := ioctlBody_keeps h.intf (s.thr t).file (s.thr t).cmd
      have hcond : ClearsAlone s (ioctlBody (s.thr t).file (s.thr t).cmd s.intf) := ha
      rw [hbody] at hkept hcond
      obtain ⟨hinv, hkeeps, harg, hready⟩ := hkept
      refine h.of_keeps (t := t) hinv hkeeps (fun u hu => SemInv.setPc_ne s _ hu) ?_ ?_
      · simp only [SemInv.setPc_self]
        exact ⟨hready hcond.1, harg⟩
      · intro d hd
        simp only [SemInv.setPc_self, Pc.submittingOn, decide_eq_true_eq] at hd
        subst hd
        exact hcond.2
  | submitted hpc => exact h.submit hpc
  | @refused t c pCITask hpc hret =>
      -- a channel that is ready takes the request
      have hok := h.pc t
      rw [hpc] at hok
      exact absurd (view_creatTask_of_ready h.intf hok.1 pCITask).1 hret
  | @woken t c k hpc hdone =>
      have hok := h.pc t
      rw [hpc] at hok
      exact h.of_setPc s.sem ⟨hok.1, h.acked_of_done hpc hdone⟩ fun _ => rfl
  | timedOut | down2Broken =>
      exact h.of_setPc s.sem (fun hret => absurd hret (by decide)) fun _ => rfl
  | @signalled t c k hpc =>
      -- a signal that breaks the wait is allowed only to a thread whose node is done
      have hok := h.pc t
      have hacked : NodeAcked s (s.thr t).pc := ha
      rw [hpc] at hok hacked
      exact h.of_setPc s.sem ⟨hok.1, hacked⟩ fun _ => rfl
  | @down2Taken t c k hpc =>
      have hok := h.pc t
      rw [hpc] at hok
      exact h.of_setPc _ (fun _ _ => ⟨c, k, rfl, hok.1, hok.2⟩) fun _ => rfl
  | @up t held Ret own hpc =>
      have hok := h.pc t
      rw [hpc] at hok
      exact h.of_setPc _ hok fun _ => rfl
  | event e =>
      obtain ⟨hinv, hkeeps⟩ := intfEvent_keeps h.intf e
      exact h.of_intf hinv hkeeps
  | release file =>
      obtain ⟨hinv, hkeeps⟩ := release_keeps h.intf file
      exact h.of_intf hinv hkeeps

theorem ownNodeReported (h : ReqInv s) : OwnNodeReported s := by
  intro t Ret own hpc hcmd hret
  have hok := h.pc t
  rw [hpc] at hok
  obtain ⟨c, k, hown, hc, hk⟩ := hok hret hcmd
  have hfull := (h.intf.chan c hc).ring.full
  rw [view_hist] at hfull
  exact ⟨c, k, hown, hc, hk, by omega⟩

end ReqInv

theorem sysStart_reqInv (n : Nat) (ctrl : Chn → HiU32) (key : Chn → Vector HiU32 8) :
    ReqInv (sysStart n ctrl key) := by
  refine ⟨⟨rfl, ?_, fun c hc => Bool.noConfusion hc, rfl, fun _ _ _ => rfl⟩,
    fun _ => trivial, fun _ _ _ ht => Bool.noConfusion ht⟩
  intro c hc
  have hun : ((sysStart n ctrl key).intf.drv.view c).hist.unacked = [] := rfl
  have hring : RingInv ((sysStart n ctrl key).intf.drv.view c) := by
    fin_cases c
    · exact absurd rfl hc
    all_goals exact ⟨rfl, rfl, rfl, rfl, rfl, fun k hk => absurd hk (Nat.not_lt_zero k)⟩
  refine ⟨hring, ⟨?_, ?_, ?_, ?_, ?_⟩, ?_, fun hne => absurd rfl hne⟩
  · rw [hun]
    exact List.nodup_nil
  · rw [hun]
    exact fun n hn => absurd hn List.not_mem_nil
  · rw [hun]
    exact fun n hn => absurd hn List.not_mem_nil
  · rw [hun]
    exact fun n hn => absurd hn List.not_mem_nil
  · rw [hun]
    exact fun n hn => absurd hn List.not_mem_nil
  · rw [hun]
    exact Nat.zero_le 1

/-- **Request completion**: in every run whose steps meet `NoOverlap`, an
Encrypt or Decrypt returns success only after the node it put in the ring
was finished and reported. -/
theorem own_node_reported_of_no_overlap (n : Nat) (ctrl : Chn → HiU32)
    (key : Chn → Vector HiU32 8) (acts : List (Act n)) (s : Sys n)
    (hacts : GAlong sysStep NoOverlap (sysStart n ctrl key) acts)
    (hrun : gexec sysStep (sysStart n ctrl key) acts = some s) : OwnNodeReported s := by
  have hinv : ReqInv s := gexec_inv (fun _ a _ h ha hstep => h.step a ha hstep)
    (sysStart_reqInv n ctrl key) hacts hrun
  exact hinv.ownNodeReported

/-- A handle is created and configured, as far as the thread's return. -/
def openAndConfigure (t : Fin n) (file : File) : List (Act n) :=
  [.call t file (.createHandle false), .down t false, .body t, .up t,
    .call t file (.configHandle (some ⟨cipherHandle 1, zeroCtrl⟩)), .down t false, .body t, .up t]

/-- An Encrypt up to its wait. -/
def encryptToWait (t : Fin n) (file : File) : List (Act n) :=
  [.call t file (.encrypt (some ⟨0, 0, 0, cipherHandle 1⟩)), .down t false, .body t, .submit t]

/-- The engine finishes a node of channel 1 and interrupts. -/
def finishOne : List (Act n) := [.event (.engine 1), .event (.isr 0x200#32)]

/-- An Encrypt waits, its node finishes, it returns success. -/
def encryptToEnd (t : Fin n) (file : File) : List (Act n) :=
  encryptToWait t file ++ finishOne ++ [.wake t .done, .down2 t false, .up t]

/-- Two requests, one after the other. -/
theorem own_node_reported_two_requests :
    ∃ s, gexec sysStep zeroSys (openAndConfigure 0 1 ++ encryptToEnd 0 1 ++ encryptToEnd 0 1)
      = some s ∧ OwnNodeReported s := by
  have hsome : (gexec sysStep zeroSys
      (openAndConfigure 0 1 ++ encryptToEnd 0 1 ++ encryptToEnd 0 1)).isSome = true := by
    decide +kernel
  obtain ⟨s, hs⟩ := Option.isSome_iff_exists.mp hsome
  exact ⟨s, hs, own_node_reported_of_no_overlap _ _ _ _ s (by decide +kernel) hs⟩

/-- The first Encrypt times out with its node still in the ring. The node then
finishes while a second Encrypt waits: that one returns success, its own
node not even processed. -/
theorem stale_completion_wakes_later_request :
    ∃ s, gexec sysStep zeroSys (openAndConfigure 0 1 ++ encryptToWait 0 1
        ++ [.wake 0 .timeout] ++ encryptToWait 0 1 ++ finishOne
        ++ [.wake 0 .done, .down2 0 false, .up 0]) = some s ∧ ¬ OwnNodeReported s := by
  have hrun : (gexec sysStep zeroSys (openAndConfigure 0 1 ++ encryptToWait 0 1
      ++ [.wake 0 .timeout] ++ encryptToWait 0 1 ++ finishOne
      ++ [.wake 0 .done, .down2 0 false, .up 0])).map
        (fun s => ((s.thr 0).pc, (s.thr 0).cmd.isCrypt, (s.intf.drv.hist 1).acked))
      = some (.returned hiSuccess (some (1, 1)), true, 1) := by decide +kernel
  obtain ⟨s, hs, heq⟩ := Option.map_eq_some_iff.mp hrun
  simp only [Prod.mk.injEq] at heq
  refine ⟨s, hs, ?_⟩
  intro h
  obtain ⟨c, k, hown, -, hk, -⟩ := h 0 _ _ heq.1 heq.2.1 rfl
  cases hown
  rw [heq.2.2] at hk
  exact absurd hk (by decide)

end ExtDrv.Cipher
