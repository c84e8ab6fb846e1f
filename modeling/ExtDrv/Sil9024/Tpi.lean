import ExtDrv.Lib.RegField
import ExtDrv.Lib.Run
import ExtDrv.Sil9024.Edid

/-!
# The hot-plug service of the HDMI transmitter (`sil9024.c`)

`siHdmiTx_TPI_Poll` and the handlers it calls, on the state variables and on
the registers of the transmitter that they switch: the system control register
and the interrupt enables. What the transmitter answers to the reads of the
interrupt status register is up to the poll. `log` records what happened to the
cable, the EDID and the output, newest first.
-/

namespace ExtDrv.Sil9024

open Loop

/-! ## State -/

def HOT_PLUG_EVENT : BitVec 8 := 0x01
def RX_SENSE_EVENT : BitVec 8 := 0x02
def AUDIO_ERROR_EVENT : BitVec 8 := 0x10

def OUTPUT_MODE_MASK : BitVec 8 := 0x01
def OUTPUT_MODE_DVI : BitVec 8 := 0x00
def OUTPUT_MODE_HDMI : BitVec 8 := 0x01
def AV_MUTE_MASK : BitVec 8 := 0x08
def AV_MUTE_NORMAL : BitVec 8 := 0x00
def AV_MUTE_MUTED : BitVec 8 := 0x08
def TMDS_OUTPUT_CONTROL_MASK : BitVec 8 := 0x10
def TMDS_OUTPUT_CONTROL_ACTIVE : BitVec 8 := 0x00
def TMDS_OUTPUT_CONTROL_POWER_DOWN : BitVec 8 := 0x10
def LINK_INTEGRITY_MODE_MASK : BitVec 8 := 0x40
def LINK_INTEGRITY_DYNAMIC : BitVec 8 := 0x40

/-- `TX_POWER_STATE_D0` to `D3`. -/
inductive PowerState where
  | D0
  | D1
  | D2
  | D3
  deriving DecidableEq, Repr

/-- `GLOBAL_SYSTEM`. -/
structure GlobalSystem where
  txPowerState : PowerState
  tmdsPoweredUp : Bool
  hdmiCableConnected : Bool
  dsRxPoweredUp : Bool
  deriving DecidableEq, Repr

/-- What happens to the cable, to the EDID and to the video output. -/
inductive Event where
  | connected
  | disconnected
  /-- The EDID of the display is read. -/
  | edidRead
  /-- The transmitter does not grant the DDC bus; the sink is assumed. -/
  | ddcRefused
  /-- The EDID at hand is taken for valid, and not read. -/
  | edidKept
  | tmdsOn
  | tmdsOff
  deriving DecidableEq, Repr

/-- The transmitter and its driver. -/
structure Tx where
  sys : GlobalSystem
  edid : GlobalEdid
  systemControl : BitVec 8
  interruptEnable : BitVec 8
  log : List Event

/-- `ReadModifyWriteTPI` on a register that holds `reg`. -/
def readModifyWrite (mask value reg : BitVec 8) : BitVec 8 := RegField.maskWrite mask value reg

/-- `InitializeStateVariables` and the rest of `siHdmiTx_TPI_Init`; `found` is
whether `StartTPI` finds the transmitter. -/
def siHdmiTxTpiInit (found : Bool) (s : Tx) : Tx :=
  { s with
    sys := ⟨.D0, false, false, false⟩
    edid.edidDataValid := false
    interruptEnable := if found then s.interruptEnable ||| HOT_PLUG_EVENT else s.interruptEnable
    log := [] }

/-! ## The handlers -/

/-- `DisableTMDS`. -/
def disableTmds (s : Tx) : Tx :=
  { s with
    systemControl := readModifyWrite (TMDS_OUTPUT_CONTROL_MASK ||| AV_MUTE_MASK)
      (TMDS_OUTPUT_CONTROL_POWER_DOWN ||| AV_MUTE_MUTED) s.systemControl
    sys.tmdsPoweredUp := false
    log := .tmdsOff :: s.log }

/-- The output mode bit of the system control register. -/
def setOutputMode (mode : BitVec 8) (s : Tx) : Tx :=
  { s with systemControl := readModifyWrite OUTPUT_MODE_MASK mode s.systemControl }

/-- `OnDownstreamRxPoweredDown`. -/
def onDownstreamRxPoweredDown (s : Tx) : Tx :=
  setOutputMode OUTPUT_MODE_DVI (disableTmds { s with sys.dsRxPoweredUp := false })

/-- `OnHdmiCableDisconnected`. -/
def onHdmiCableDisconnected (s : Tx) : Tx :=
  onDownstreamRxPoweredDown
    { s with
      sys.hdmiCableConnected := false
      edid.edidDataValid := false
      log := .disconnected :: s.log }

/-- `SetFormat`, the part of `InitVideo` that switches the output mode. -/
def setFormat (s : Tx) : Tx :=
  -- HDMI mode first, to allow the color space conversion
  let s := setOutputMode OUTPUT_MODE_HDMI s
  if s.edid.HDMI_Sink then s else setOutputMode OUTPUT_MODE_DVI s

/-- `siHdmiTx_Init`: the video mode, then the output. -/
def siHdmiTxInit (s : Tx) : Tx :=
  let s := setFormat s
  { s with
    systemControl :=
      readModifyWrite (LINK_INTEGRITY_MODE_MASK ||| TMDS_OUTPUT_CONTROL_MASK ||| AV_MUTE_MASK)
        (LINK_INTEGRITY_DYNAMIC ||| TMDS_OUTPUT_CONTROL_ACTIVE ||| AV_MUTE_NORMAL) s.systemControl
    sys.txPowerState := .D0
    sys.tmdsPoweredUp := true
    interruptEnable :=
      s.interruptEnable ||| (HOT_PLUG_EVENT ||| RX_SENSE_EVENT ||| AUDIO_ERROR_EVENT)
    log := .tmdsOn :: s.log }

/-- `HotPlugService`, which first disables all interrupts. -/
def hotPlugService (s : Tx) : Tx :=
  siHdmiTxInit { s with interruptEnable := s.interruptEnable &&& ~~~0xFF }

/-- `OnDownstreamRxPoweredUp`. -/
def onDownstreamRxPoweredUp (s : Tx) : Tx :=
  hotPlugService { s with sys.dsRxPoweredUp := true }

/-- What became of the EDID. -/
def EdidRead.event (r : EdidRead) : Event :=
  if r.granted then .edidRead
  else if r.code = .DDC_BUS_REQ_FAILURE then .ddcRefused
  else .edidKept

/-! ## The poll -/

/-- What a poll meets: the values read from the interrupt status register, one
after the other; the display; and the turns the loops of the parsers are given. -/
structure Poll where
  status : List (BitVec 8)
  display : Display
  turns : Nat

/-- `OnHdmiCableConnected`. There is no state behind it if reading the EDID
faults, or does not end in the turns given. -/
def onHdmiCableConnected (p : Poll) (s : Tx) : Option Tx :=
  match doEdidRead p.turns p.display s.systemControl s.edid with
  | some (.ok r) =>
      some (setOutputMode (if r.edid.HDMI_Sink then OUTPUT_MODE_HDMI else OUTPUT_MODE_DVI)
        { s with
          sys.hdmiCableConnected := true
          edid := r.edid
          systemControl := r.sysCtrl
          log := r.event :: .connected :: s.log })
  | _ => none

/-- The loop while the cable is bouncing: the first status without a hot-plug
event, if one is read. -/
def debounce : List (BitVec 8) → Option (BitVec 8)
  | [] => none
  | InterruptStatus :: status =>
      if InterruptStatus &&& HOT_PLUG_EVENT ≠ 0#8 then debounce status else some InterruptStatus

/-- The part of the poll from "Check rx power" on. What is written to the
interrupt status register changes no state here. -/
def checkRxPower (InterruptStatus : BitVec 8) (s : Tx) : Tx :=
  -- bit 3 is the receiver sense
  if InterruptStatus.getLsbD 3 ≠ s.sys.dsRxPoweredUp ∧ s.sys.hdmiCableConnected then
    if s.sys.dsRxPoweredUp then onDownstreamRxPoweredDown s else onDownstreamRxPoweredUp s
  else s

/-- The service of a hot-plug event, with the status after the bouncing. -/
def checkHotPlug (p : Poll) (InterruptStatus : BitVec 8) (s : Tx) : Option Tx :=
  -- bit 2 is the state of the cable
  if InterruptStatus.getLsbD 2 ≠ s.sys.hdmiCableConnected then
    if s.sys.hdmiCableConnected then some (onHdmiCableDisconnected s)
    else onHdmiCableConnected p s
  else some s

/-- `siHdmiTx_TPI_Poll`: `none` if it does not return. -/
def siHdmiTxTpiPoll (s : Tx) (p : Poll) : Option Tx :=
  if s.sys.txPowerState = .D0 then
    match p.status with
    | [] => none
    | InterruptStatus :: status =>
        if InterruptStatus &&& HOT_PLUG_EVENT ≠ 0#8 then do
          let s := { s with interruptEnable := s.interruptEnable ||| HOT_PLUG_EVENT }
          let InterruptStatus ← debounce status
          let changed : Bool := InterruptStatus.getLsbD 2 ≠ s.sys.hdmiCableConnected
          let s ← checkHotPlug p InterruptStatus s
          -- an unplugged cable ends the poll
          if changed ∧ s.sys.hdmiCableConnected = false then some s
          else some (checkRxPower InterruptStatus s)
        else some (checkRxPower InterruptStatus s)
  else some s

end ExtDrv.Sil9024
