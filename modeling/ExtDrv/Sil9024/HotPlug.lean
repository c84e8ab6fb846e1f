import ExtDrv.Sil9024.Tpi

/-!
# The hot-plug state machine

What holds in every state that polls lead to: only a connected cable has the
receiver or the output up; an unplugged one leaves no valid EDID and no output;
and the output comes up only after the EDID has been asked for since the cable
was plugged in. `hotPlug_run` is that for every run; `ddc_refused_video` is the
run on which the EDID is asked for in vain.
-/

namespace ExtDrv.Sil9024

open Loop Run

/-! ## What the log says -/

/-- The last of the plugging and unplugging: `true` is plugged in. -/
def lastCable : List Event → Option Bool
  | [] => none
  | .connected :: _ => some true
  | .disconnected :: _ => some false
  | _ :: log => lastCable log

/-- Since the cable was last plugged in, an event of the kind `P` has happened. -/
def SinceConnected (P : Event → Prop) : List Event → Prop
  | [] => False
  | e :: log => P e ∨ e ≠ .connected ∧ SinceConnected P log

/-- Whenever the output came up, an event of the kind `P` had happened since
the cable was plugged in. -/
def VideoAfter (P : Event → Prop) : List Event → Prop
  | [] => True
  | e :: log => (e = .tmdsOn → SinceConnected P log) ∧ VideoAfter P log

/-- The EDID of the display is read. -/
def Reread (e : Event) : Prop := e = .edidRead

/-- The EDID of the display is read, or the transmitter does not grant the bus
to read it. -/
def Asked (e : Event) : Prop := e = .edidRead ∨ e = .ddcRefused

theorem lastCable_of_asked {e : Event} (h : Asked e) (log : List Event) :
    lastCable (e :: log) = lastCable log := by
  rcases h with rfl | rfl <;> rfl

theorem Asked.ne_tmdsOn {e : Event} (h : Asked e) : e ≠ .tmdsOn := by
  rcases h with rfl | rfl <;> decide

/-- The law of the hot-plug service, where `P` is what has to come before the
output. -/
structure HotPlug (P : Event → Prop) (s : Tx) : Prop where
  powered : s.sys.dsRxPoweredUp = true ∨ s.sys.tmdsPoweredUp = true →
    s.sys.hdmiCableConnected = true
  unplugged : lastCable s.log = some false →
    s.edid.edidDataValid = false ∧ s.sys.tmdsPoweredUp = false ∧
      s.systemControl &&& TMDS_OUTPUT_CONTROL_MASK = TMDS_OUTPUT_CONTROL_POWER_DOWN
  video : VideoAfter P s.log

/-- The law, with what carries it from poll to poll. -/
structure Inv (s : Tx) : Prop extends HotPlug Asked s where
  cable : s.sys.hdmiCableConnected = true ↔ lastCable s.log = some true
  fresh : s.sys.hdmiCableConnected = false → s.edid.edidDataValid = false
  asked : s.sys.hdmiCableConnected = true → SinceConnected Asked s.log

/-! ## The system control register -/

/-- Switching the output mode leaves the output as it is. -/
theorem setOutputMode_tmds (mode : BitVec 8) (s : Tx) :
    (setOutputMode mode s).systemControl &&& TMDS_OUTPUT_CONTROL_MASK
      = s.systemControl &&& TMDS_OUTPUT_CONTROL_MASK :=
  RegField.maskWrite_and_of_disjoint (by decide) mode s.systemControl

theorem disableTmds_tmds (s : Tx) :
    (disableTmds s).systemControl &&& TMDS_OUTPUT_CONTROL_MASK
      = TMDS_OUTPUT_CONTROL_POWER_DOWN :=
  (RegField.maskWrite_and_of_subset (by decide) _ s.systemControl).trans (by decide)

theorem Inv.setOutputMode {s : Tx} (h : Inv s) (mode : BitVec 8) : Inv (setOutputMode mode s) where
  powered := h.powered
  unplugged hlog := by
    rw [setOutputMode_tmds]
    exact h.unplugged hlog
  video := h.video
  cable := h.cable
  fresh := h.fresh
  asked := h.asked

/-! ## The handlers keep the invariant -/

theorem inv_init (found : Bool) (s : Tx) : Inv (siHdmiTxTpiInit found s) where
  powered h := by simp [siHdmiTxTpiInit] at h
  unplugged h := by simp [siHdmiTxTpiInit, lastCable] at h
  video := trivial
  cable := by simp [siHdmiTxTpiInit, lastCable]
  fresh _ := rfl
  asked h := by simp [siHdmiTxTpiInit] at h

/-- The receiver goes down under a connected cable. -/
theorem inv_rxPoweredDown {s : Tx} (h : Inv s) (hc : s.sys.hdmiCableConnected = true) :
    Inv (onDownstreamRxPoweredDown s) := by
  apply Inv.setOutputMode
  constructor
  · constructor
    · intro _
      exact hc
    · intro hlog
      have hplugged := h.cable.mp hc
      exact absurd (hplugged.symm.trans hlog) (by simp)
    · exact ⟨(fun he => nomatch he), h.video⟩
  · exact h.cable
  · exact h.fresh
  · intro _
    exact .inr ⟨(fun he => nomatch he), h.asked hc⟩

/-- The cable is unplugged: the EDID and the output go with it. -/
theorem inv_disconnected {s : Tx} (h : Inv s) : Inv (onHdmiCableDisconnected s) := by
  apply Inv.setOutputMode
  constructor
  · constructor
    · intro hup
      exact absurd hup (by simp [disableTmds])
    · intro _
      exact ⟨rfl, rfl, disableTmds_tmds _⟩
    · exact ⟨(fun he => nomatch he), (fun he => nomatch he), h.video⟩
  · exact ⟨(fun hc => nomatch hc), (fun hlog => nomatch hlog)⟩
  · intro _
    rfl
  · intro hc
    cases hc

theorem setFormat_eq (s : Tx) : ∃ ctrl, setFormat s = { s with systemControl := ctrl } := by
  rw [setFormat]
  cases h : (setOutputMode OUTPUT_MODE_HDMI s).edid.HDMI_Sink
  · exact ⟨_, rfl⟩
  · exact ⟨_, rfl⟩

/-- The receiver comes up under a connected cable: the EDID has been asked for. -/
theorem inv_rxPoweredUp {s : Tx} (h : Inv s) (hc : s.sys.hdmiCableConnected = true) :
    Inv (onDownstreamRxPoweredUp s) := by
  rw [onDownstreamRxPoweredUp, hotPlugService, siHdmiTxInit]
  obtain ⟨ctrl, hformat⟩ := setFormat_eq
    { s with sys.dsRxPoweredUp := true, interruptEnable := s.interruptEnable &&& ~~~0xFF }
  rw [hformat]
  constructor
  · constructor
    · intro _
      exact hc
    · intro hlog
      have hplugged := h.cable.mp hc
      exact absurd (hplugged.symm.trans hlog) (by simp)
    · -- the output comes up, and the EDID was asked for when the cable was plugged in
      exact ⟨fun _ => h.asked hc, h.video⟩
  · exact h.cable
  · exact h.fresh
  · intro _
    exact .inr ⟨(fun he => nomatch he), h.asked hc⟩

/-- Without a valid EDID, reading it asks the display for it. -/
theorem event_asked {n : Nat} {m : Display} {ctrl : BitVec 8} {g : GlobalEdid} {r : EdidRead}
    (hvalid : g.edidDataValid = false) (h : doEdidRead n m ctrl g = some (.ok r)) :
    Asked r.event := by
  rw [doEdidRead, hvalid] at h
  -- the bus is refused, or granted and what was read parsed
  rcases hddc : getDdcAccess m ctrl with ⟨_ | _, ctrl'⟩
  · simp only [hddc, Bool.false_eq_true, if_false] at h
    cases h
    exact .inr rfl
  · simp only [hddc, Bool.false_eq_true, if_false] at h
    rcases andThen_eq_some.mp h with ⟨e, _, he⟩ | ⟨g', _, hr⟩
    · cases he
    · cases hr
      left
      rw [finishEdid]
      rcases releaseDdc m ctrl with ⟨_ | _, ctrl''⟩
      · rfl
      · rfl

/-- The cable is plugged in. -/
theorem inv_connected {p : Poll} {s s' : Tx} (h : Inv s)
    (hc : s.sys.hdmiCableConnected = false) (hs : onHdmiCableConnected p s = some s') :
    Inv s' := by
  rw [onHdmiCableConnected] at hs
  rcases hread : doEdidRead p.turns p.display s.systemControl s.edid with _ | e | r
  · rw [hread] at hs
    cases hs
  · rw [hread] at hs
    cases hs
  · rw [hread] at hs
    cases hs
    -- the cable was out, so there was no valid EDID to keep
    have hasked : Asked r.event := event_asked (h.fresh hc) hread
    apply Inv.setOutputMode
    constructor
    · constructor
      · intro _
        rfl
      · intro hlog
        rw [lastCable_of_asked hasked] at hlog
        cases hlog
      · exact ⟨fun he => absurd he hasked.ne_tmdsOn, (fun he => nomatch he), h.video⟩
    · rw [lastCable_of_asked hasked]
      exact iff_of_true rfl rfl
    · intro hno
      cases hno
    · intro _
      exact .inl hasked

theorem Inv.interruptEnable {s : Tx} (h : Inv s) (ie : BitVec 8) :
    Inv { s with interruptEnable := ie } where
  powered := h.powered
  unplugged := h.unplugged
  video := h.video
  cable := h.cable
  fresh := h.fresh
  asked := h.asked

/-! ## Polls -/

theorem inv_checkRxPower {s : Tx} (h : Inv s) (InterruptStatus : BitVec 8) :
    Inv (checkRxPower InterruptStatus s) := by
  rw [checkRxPower]
  split_ifs with hsense hrx
  · exact inv_rxPoweredDown h hsense.2
  · exact inv_rxPoweredUp h hsense.2
  · exact h

theorem inv_checkHotPlug {p : Poll} {InterruptStatus : BitVec 8} {s s' : Tx} (h : Inv s)
    (hs : checkHotPlug p InterruptStatus s = some s') : Inv s' := by
  rw [checkHotPlug] at hs
  split_ifs at hs with hstate hc
  · cases hs
    exact inv_disconnected h
  · exact inv_connected h (by simpa using hc) hs
  · cases hs
    exact h

/-- **Every poll keeps the invariant**, whatever it reads. -/
theorem inv_poll {s s' : Tx} {p : Poll} (h : Inv s) (hs : siHdmiTxTpiPoll s p = some s') :
    Inv s' := by
  rw [siHdmiTxTpiPoll] at hs
  by_cases hpower : s.sys.txPowerState = .D0
  · rw [if_pos hpower] at hs
    rcases hstatus : p.status with _ | ⟨InterruptStatus, status⟩
    · rw [hstatus] at hs
      cases hs
    · rw [hstatus] at hs
      dsimp only at hs
      split_ifs at hs with hevent
      · obtain ⟨state, _, hs⟩ := Option.bind_eq_some_iff.mp hs
        obtain ⟨t, ht, hs⟩ := Option.bind_eq_some_iff.mp hs
        have hinv : Inv t := inv_checkHotPlug (h.interruptEnable _) ht
        -- behind an unplugged cable the receiver is not looked at any more
        split_ifs at hs
        · cases hs
          exact hinv
        · cases hs
          exact inv_checkRxPower hinv state
      · cases hs
        exact inv_checkRxPower h InterruptStatus
  · rw [if_neg hpower] at hs
    cases hs
    exact h

/-- **The hot-plug state machine**: in every state that polls lead to from the
initialisation, a powered receiver or output means a connected cable; once an
unplugging has been served, there is no valid EDID and the output is off; and
the output has never come up without the EDID having been asked for since the
cable was plugged in, which reads it unless the bus is not granted. -/
theorem hotPlug_run (found : Bool) (s₀ : Tx) (ps : List Poll) {s : Tx}
    (h : gexec siHdmiTxTpiPoll (siHdmiTxTpiInit found s₀) ps = some s) : HotPlug Asked s := by
  have hinv : Inv s := by
    apply gexec_inv (I := Inv) (P := fun _ _ => True) _ (inv_init found s₀) _ h
    · intro t p t' ht _ hstep
      exact inv_poll ht hstep
    · exact GAlong.of_forall fun _ _ => trivial
  exact hinv.toHotPlug

/-- The driver as it is loaded. -/
def Tx.loaded : Tx := ⟨⟨.D0, false, false, false⟩, .zero, 0x00, 0x00, []⟩

/-- A poll that finds the cable plugged in and the receiver up. -/
def plugIn (m : Display) : Poll := ⟨[0x0D, 0x0C], m, 4⟩

/-- A poll that finds the cable unplugged. -/
def unplug (m : Display) : Poll := ⟨[0x01, 0x00], m, 4⟩

/-- An extension without data blocks or long descriptors. -/
def emptyExtension : EdidBlock := fun i =>
  if i.val = 0 then 0x02 else if i.val = 1 then 0x03 else if i.val = 2 then 0x7F else 0x00

theorem hotPlug_run_plugged :
    ∃ s, gexec siHdmiTxTpiPoll (siHdmiTxTpiInit true .loaded)
        [plugIn (.of emptyExtension), unplug (.of emptyExtension)] = some s ∧
      s.log = [.tmdsOff, .disconnected, .tmdsOn, .edidRead, .connected] ∧ HotPlug Asked s := by
  have hrun : (gexec siHdmiTxTpiPoll (siHdmiTxTpiInit true .loaded)
      [plugIn (.of emptyExtension), unplug (.of emptyExtension)]).map Tx.log =
        some [.tmdsOff, .disconnected, .tmdsOn, .edidRead, .connected] := by decide +kernel
  obtain ⟨s, hs, hlog⟩ := Option.map_eq_some_iff.mp hrun
  exact ⟨s, hs, hlog, hotPlug_run true .loaded _ hs⟩

/-- A display whose transmitter never grants the DDC bus. -/
def noBus : Display := ⟨fun _ => 0, fun _ => 0, fun _ => emptyExtension⟩

/-- The bus is refused, and the video is enabled without the EDID. -/
theorem ddc_refused_video :
    ∃ s, gexec siHdmiTxTpiPoll (siHdmiTxTpiInit true .loaded) [plugIn noBus] = some s ∧
      ¬ HotPlug Reread s := by
  have hrun : (gexec siHdmiTxTpiPoll (siHdmiTxTpiInit true .loaded) [plugIn noBus]).map Tx.log =
      some [.tmdsOn, .ddcRefused, .connected] := by decide +kernel
  obtain ⟨s, hs, hlog⟩ := Option.map_eq_some_iff.mp hrun
  refine ⟨s, hs, ?_⟩
  intro h
  have hvideo := h.video
  rw [hlog] at hvideo
  have hread : SinceConnected Reread [.ddcRefused, .connected] := hvideo.1 rfl
  simp [SinceConnected, Reread] at hread

end ExtDrv.Sil9024
