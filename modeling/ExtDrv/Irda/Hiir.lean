import ExtDrv.Lib.RingBuf
import Mathlib.Data.BitVec

/-!
# The infrared receiver (`hiir.c`)

The device, its interrupt handler, the ioctls and the file operations. The
interrupt handler and every call run to completion, except `hiir_read`: a
read may sleep, and an interrupt may come between any two turns of its copy
loop, so it is cut into `hiirReadStep`.

`IR_BUSY` is left out: `hiir_config` spins on it and never reads anything else
from it. So is the debug flag, which decides on printing only.
-/

namespace ExtDrv.Irda

/-! ## The device -/

/-- `irkey_info_s`. -/
structure IrkeyInfo where
  irkey_datah : BitVec 32
  irkey_datal : BitVec 32
  irkey_state_code : BitVec 32
  deriving DecidableEq, Repr

def HIIR_KEY_DOWN : BitVec 32 := 0x00
def HIIR_KEY_UP : BitVec 32 := 0x01

/-- `sizeof(irkey_info_s)`. -/
def sizeofIrkeyInfo : Nat := 12

def HI_IR_MAX_BUF : Nat := 100
def DEFAULT_BUF_LEN : Nat := 8
def DEFAULT_DELAYTIME : BitVec 32 := 200
def HIIR_DEFAULT_FREQ : BitVec 16 := 24

/-- `hiir_dev_param`. -/
structure HiirDevParam where
  leads_min : BitVec 16
  leads_max : BitVec 16
  leade_min : BitVec 16
  leade_max : BitVec 16
  cnt0_b_min : BitVec 16
  cnt0_b_max : BitVec 16
  cnt1_b_min : BitVec 16
  cnt1_b_max : BitVec 16
  sleade_min : BitVec 16
  sleade_max : BitVec 16
  code_len : BitVec 16
  codetype : BitVec 16
  frequence : BitVec 16
  deriving DecidableEq, Repr

/-- `static_dev_param[0]`: NEC with simple repeat code, uPD6121G. -/
def staticDevParam0 : HiirDevParam :=
  ⟨828, 972, 414, 486, 45, 67, 135, 203, 180, 270, 32, 0, HIIR_DEFAULT_FREQ⟩

/-- `hiir_dev_struct`, its wait queue apart. `buf` has `HI_IR_MAX_BUF + 1`
slots. -/
structure HiirDev where
  dev_parm : HiirDevParam
  head : Nat
  tail : Nat
  buf : Nat → IrkeyInfo
  buf_len : Nat
  enable_repkey : BitVec 32
  repkey_checkflag : BitVec 32
  repkey_delaytime : BitVec 32
  enable_keyup : BitVec 32

/-- The registers the driver writes. -/
structure IrRegs where
  IOCONFIG : BitVec 32
  IR_ENABLE : BitVec 32
  IR_CONFIG : BitVec 32
  CNT_LEADS : BitVec 32
  CNT_LEADE : BitVec 32
  CNT_SLEADE : BitVec 32
  CNT0_B : BitVec 32
  CNT1_B : BitVec 32
  IR_INTM : BitVec 32
  IR_INTC : BitVec 32
  IR_START : BitVec 32

/-- The globals of the driver: `timer` says whether `repkey_timeout_timer` is
pending. -/
structure Hiir where
  hiir_dev : HiirDev
  regs : IrRegs
  timer : Bool
  hiir_s_available : Int

/-- `BUF_LAST`. -/
def HiirDev.bufLast (d : HiirDev) : IrkeyInfo :=
  d.buf (if d.head = 0 then d.buf_len - 1 else d.head - 1)

/-- `BUF_TAIL`. -/
def HiirDev.bufTail (d : HiirDev) : IrkeyInfo := d.buf d.tail

/-- `BUF_HEAD = ev; head = INC_BUF(head, buf_len)`. -/
def HiirDev.queue (d : HiirDev) (ev : IrkeyInfo) : HiirDev :=
  { d with buf := Function.update d.buf d.head ev, head := (d.head + 1) % d.buf_len }

/-- `repkey_checkflag = v`. -/
def HiirDev.setCheckflag (d : HiirDev) (v : BitVec 32) : HiirDev :=
  { d with repkey_checkflag := v }

@[simp] theorem setCheckflag_bufLast (d : HiirDev) (v : BitVec 32) :
    (d.setCheckflag v).bufLast = d.bufLast := rfl

/-- `hiir_config`. -/
def hiirConfig (s : Hiir) : Hiir :=
  let p := s.hiir_dev.dev_parm
  let pair (lo hi : BitVec 16) : BitVec 32 := (lo.setWidth 32 <<< 16) ||| hi.setWidth 32
  { s with
    regs := { s.regs with
      IOCONFIG := 0
      IR_ENABLE := 0x01
      IR_CONFIG := (p.codetype.setWidth 32 <<< 14) ||| ((p.code_len.setWidth 32 - 1) <<< 8)
        ||| (p.frequence.setWidth 32 - 1)
      CNT_LEADS := pair p.leads_min p.leads_max
      CNT_LEADE := pair p.leade_min p.leade_max
      CNT_SLEADE := pair p.sleade_min p.sleade_max
      CNT0_B := pair p.cnt0_b_min p.cnt0_b_max
      CNT1_B := pair p.cnt1_b_min p.cnt1_b_max
      IR_INTM := 0x00
      IR_START := 0x00 } }

/-- `repkey_timeout_handler`. -/
def repkeyTimeoutHandler (s : Hiir) : Hiir :=
  { s with timer := false, hiir_dev := s.hiir_dev.setCheckflag 0 }

/-! ## The interrupt handler -/

/-- What an interrupt finds in the registers. -/
structure IrInt where
  IR_INTS : BitVec 32
  IR_DATAH : BitVec 32
  IR_DATAL : BitVec 32
  deriving DecidableEq, Repr

/-- `IR_INTS & INTMS_RCV` and its siblings. -/
def IrInt.rcv (i : IrInt) : Bool := i.IR_INTS.getLsbD 16
def IrInt.framerr (i : IrInt) : Bool := i.IR_INTS.getLsbD 17
def IrInt.overflow (i : IrInt) : Bool := i.IR_INTS.getLsbD 18
def IrInt.release (i : IrInt) : Bool := i.IR_INTS.getLsbD 19

/-- The key press the data registers spell. -/
def IrInt.keyDown (i : IrInt) : IrkeyInfo := ⟨i.IR_DATAH, i.IR_DATAL, HIIR_KEY_DOWN⟩

def Hiir.writeIntc (s : Hiir) (v : BitVec 32) : Hiir :=
  { s with regs := { s.regs with IR_INTC := v } }

/-- `enable_keyup && HIIR_KEY_UP != BUF_LAST.irkey_state_code`. -/
def HiirDev.keyUpDue (d : HiirDev) : Bool :=
  d.enable_keyup != 0 && HIIR_KEY_UP != d.bufLast.irkey_state_code

@[simp] theorem setCheckflag_keyUpDue (d : HiirDev) (v : BitVec 32) :
    (d.setCheckflag v).keyUpDue = d.keyUpDue := rfl

/-- The code is the one in `BUF_LAST`. -/
def HiirDev.sameCode (d : HiirDev) (i : IrInt) : Bool :=
  d.bufLast.irkey_datah == i.IR_DATAH && d.bufLast.irkey_datal == i.IR_DATAL

/-- A repeat within the repeat delay. -/
def HiirDev.isRepeat (d : HiirDev) (i : IrInt) : Bool :=
  d.repkey_checkflag != 0 && d.sameCode i

/-- The key is down as far as `BUF_LAST` tells. -/
def HiirDev.isHeld (d : HiirDev) (i : IrInt) : Bool :=
  d.sameCode i && d.bufLast.irkey_state_code == HIIR_KEY_DOWN

/-- `hiir_interrupt`. -/
def hiirInterrupt (i : IrInt) (s : Hiir) : Hiir :=
  let d := s.hiir_dev
  if i.framerr then s.writeIntc 2
  else if i.overflow then s.writeIntc 4
  else if i.release then
    -- a release also ends the repeat delay
    let d := d.setCheckflag 0
    let s := { s.writeIntc 8 with timer := false, hiir_dev := d }
    if d.keyUpDue then
      { s with hiir_dev := d.queue { d.bufLast with irkey_state_code := HIIR_KEY_UP } }
    else s
  else if i.rcv then
    let s := s.writeIntc 1
    if d.enable_repkey ≠ 0#32 then
      -- the timer is armed for every key that is queued
      if d.isRepeat i then s
      else { s with timer := true, hiir_dev := (d.setCheckflag 1).queue i.keyDown }
    else if !d.isHeld i then
      { s with hiir_dev := d.queue i.keyDown }
    else s
  else s

/-- The event the handler's branches have to queue, if any. -/
def irqEvent (i : IrInt) (d : HiirDev) : Option IrkeyInfo :=
  if i.framerr || i.overflow then none
  else if i.release then
    if d.keyUpDue then some { d.bufLast with irkey_state_code := HIIR_KEY_UP } else none
  else if i.rcv then
    if d.enable_repkey ≠ 0#32 then if d.isRepeat i then none else some i.keyDown
    else if d.isHeld i then none else some i.keyDown
  else none

/-! ## The ioctls -/

def EFAULT : Int := 14
def ENOTTY : Int := 25
def EAGAIN : Int := 11
def EBUSY : Int := 16
def ERESTARTSYS : Int := 512

/-- The commands of `hiir.h`; `other` is any other number. -/
inductive IrIoc where
  | SET_BUF
  | SET_ENABLE_KEYUP
  | SET_ENABLE_REPKEY
  | SET_REPKEY_TIMEOUTVAL
  | SET_FORMAT
  | SET_CODELEN
  | SET_FREQ
  | SET_LEADS
  | SET_LEADE
  | SET_SLEADE
  | SET_CNT0_B
  | SET_CNT1_B
  | GET_CONFIG
  | ENDBG
  | DISDBG
  | other
  deriving DecidableEq, Repr

def Hiir.setDev (s : Hiir) (d : HiirDev) : Hiir := { s with hiir_dev := d }

def Hiir.setParm (s : Hiir) (p : HiirDevParam) : Hiir :=
  s.setDev { s.hiir_dev with dev_parm := p }

/-- The two `get_user` of a window command, then its two fields. -/
def setWindow (user : Option (BitVec 32 × BitVec 32)) (s : Hiir)
    (set : BitVec 16 → BitVec 16 → HiirDevParam) : Int × Hiir :=
  match user with
  | none => (-EFAULT, s)
  | some (min_val, max_val) =>
      (0, hiirConfig (s.setParm (set (min_val.setWidth 16) (max_val.setWidth 16))))

/-- `hiir_ioctl`, by the `cmd` and `arg` of its four arguments; the file operations
register it as the `unlocked_ioctl` of three. `user` is what the two `get_user` at
`arg` give. The copy `GET_CONFIG` makes to the user is left out. -/
def hiirIoctl (cmd : IrIoc) (arg : BitVec 32) (user : Option (BitVec 32 × BitVec 32))
    (s : Hiir) : Int × Hiir :=
  let d := s.hiir_dev
  let p := d.dev_parm
  match cmd with
  | .SET_BUF =>
      if 0 < arg.toNat ∧ arg.toNat ≤ HI_IR_MAX_BUF then
        (0, hiirConfig (s.setDev { d with buf_len := arg.toNat + 1, head := 0, tail := 0 }))
      -- a length out of range is ignored, not refused
      else (0, hiirConfig s)
  | .SET_ENABLE_KEYUP => (0, hiirConfig (s.setDev { d with enable_keyup := arg }))
  | .SET_ENABLE_REPKEY => (0, hiirConfig (s.setDev { d with enable_repkey := arg }))
  | .SET_REPKEY_TIMEOUTVAL =>
      if 0 < arg.toNat then (0, hiirConfig (s.setDev { d with repkey_delaytime := arg }))
      else (0, hiirConfig s)
  | .SET_FORMAT =>
      if 3 < arg.toNat then (-EFAULT, s)
      else (0, hiirConfig (s.setParm { p with codetype := arg.setWidth 16 }))
  | .SET_CODELEN => (0, hiirConfig (s.setParm { p with code_len := arg.setWidth 16 }))
  | .SET_FREQ =>
      if arg.toNat = 0 ∨ 128 < arg.toNat then (-EFAULT, s)
      else (0, hiirConfig (s.setParm { p with frequence := arg.setWidth 16 }))
  | .SET_LEADS =>
      setWindow user s fun min_val max_val => { p with leads_min := min_val, leads_max := max_val }
  | .SET_LEADE =>
      setWindow user s fun min_val max_val => { p with leade_min := min_val, leade_max := max_val }
  | .SET_SLEADE =>
      setWindow user s fun min_val max_val => { p with sleade_min := min_val, sleade_max := max_val }
  | .SET_CNT0_B =>
      setWindow user s fun min_val max_val => { p with cnt0_b_min := min_val, cnt0_b_max := max_val }
  | .SET_CNT1_B =>
      setWindow user s fun min_val max_val => { p with cnt1_b_min := min_val, cnt1_b_max := max_val }
  | .GET_CONFIG => (0, hiirConfig s)
  | .ENDBG => (0, hiirConfig s)
  | .DISDBG => (0, hiirConfig s)
  | .other => (-ENOTTY, s)

/-! ## The file operations -/

/-- `hiir_open`. -/
def hiirOpen (s : Hiir) : Int × Hiir :=
  -- one file at a time; the counter is put back when it is refused
  if s.hiir_s_available - 1 ≠ 0 then (-EBUSY, s)
  else
    (0, hiirConfig
      { s with
        hiir_s_available := s.hiir_s_available - 1
        timer := false
        hiir_dev := { s.hiir_dev with
          dev_parm := staticDevParam0
          head := 0
          tail := 0
          buf_len := DEFAULT_BUF_LEN
          enable_repkey := 1
          repkey_checkflag := 0
          repkey_delaytime := DEFAULT_DELAYTIME
          enable_keyup := 1 } })

/-- `hiir_release`. -/
def hiirRelease (s : Hiir) : Hiir :=
  { s with
    timer := false
    regs := { s.regs with IR_ENABLE := 0x00 }
    hiir_s_available := s.hiir_s_available + 1 }

/-- Where a call of `hiir_read` stands: at `retry`, asleep in
`wait_event_interruptible`, or in the copy loop. -/
inductive ReadPc where
  | retry
  | waiting
  | copying
  deriving DecidableEq, Repr

/-- A call of `hiir_read`: the events copied to the user's buffer so far, so
that `res` is `sizeof(irkey_info_s)` for each. -/
structure ReadCall where
  nonblock : Bool
  count : Nat
  pc : ReadPc
  ubuf : List IrkeyInfo
  deriving DecidableEq

def ReadCall.res (r : ReadCall) : Nat := r.ubuf.length * sizeofIrkeyInfo

/-- The outcome of a turn of `hiir_read`. -/
inductive ReadTurn where
  | goOn (r : ReadCall)
  | returns (res : Int)

/-- One turn of `hiir_read`: the test at `retry`, a wake-up, or one round of
the copy loop with the event it copies. A fault of `copy_to_user` is only
printed. -/
def hiirReadStep (signal : Bool) (r : ReadCall) (d : HiirDev) :
    ReadTurn × Option IrkeyInfo × HiirDev :=
  match r.pc with
  | .retry =>
      if d.head = d.tail then
        if r.nonblock then (.returns (-EAGAIN), none, d)
        else (.goOn { r with pc := .waiting }, none, d)
      else (.goOn { r with pc := .copying }, none, d)
  | .waiting =>
      if signal then (.returns (-ERESTARTSYS), none, d)
      else if d.head ≠ d.tail then (.goOn { r with pc := .retry }, none, d)
      else (.goOn r, none, d)
  | .copying =>
      -- the handler may have moved the head since the last turn
      if d.head ≠ d.tail ∧ r.res + sizeofIrkeyInfo ≤ r.count then
        (.goOn { r with ubuf := r.ubuf ++ [d.bufTail] }, some d.bufTail,
          { d with tail := (d.tail + 1) % d.buf_len })
      else (.returns r.res, none, d)

/-! ## What each operation does to the ring -/

/-- The fields of the ring. -/
def HiirDev.ring (d : HiirDev) : Nat × Nat × Nat × (Nat → IrkeyInfo) :=
  (d.head, d.tail, d.buf_len, d.buf)

@[simp] theorem setCheckflag_ring (d : HiirDev) (v : BitVec 32) :
    (d.setCheckflag v).ring = d.ring := rfl

@[simp] theorem setCheckflag_queue_ring (d : HiirDev) (v : BitVec 32) (ev : IrkeyInfo) :
    ((d.setCheckflag v).queue ev).ring = (d.queue ev).ring := rfl

/-- The command and argument that empty the ring. -/
def resetsBuf (cmd : IrIoc) (arg : BitVec 32) : Bool :=
  decide (cmd = .SET_BUF ∧ 0 < arg.toNat ∧ arg.toNat ≤ HI_IR_MAX_BUF)

/-- An interrupt queues `irqEvent` and otherwise touches flags only. -/
theorem hiirInterrupt_ring (i : IrInt) (s : Hiir) :
    (hiirInterrupt i s).hiir_dev.ring
      = match irqEvent i s.hiir_dev with
        | some ev => (s.hiir_dev.queue ev).ring
        | none => s.hiir_dev.ring := by
  unfold hiirInterrupt irqEvent
  cases hf : i.framerr
  case true => simp [Hiir.writeIntc]
  cases ho : i.overflow
  case true => simp [Hiir.writeIntc]
  cases hr : i.release
  case true => cases hup : s.hiir_dev.keyUpDue <;> simp [hup]
  cases hc : i.rcv
  case false => simp
  by_cases hrep : s.hiir_dev.enable_repkey = 0#32
  · cases hheld : s.hiir_dev.isHeld i <;> simp [hrep, hheld, Hiir.writeIntc]
  · cases hsame : s.hiir_dev.isRepeat i <;> simp [hrep, hsame, Hiir.writeIntc]

@[simp] theorem hiirConfig_hiir_dev (s : Hiir) : (hiirConfig s).hiir_dev = s.hiir_dev := rfl

@[simp] theorem hiirConfig_enable (s : Hiir) : (hiirConfig s).regs.IR_ENABLE = 0x01 := rfl

theorem setWindow_ring (user : Option (BitVec 32 × BitVec 32)) (s : Hiir)
    (set : BitVec 16 → BitVec 16 → HiirDevParam) :
    (setWindow user s set).2.hiir_dev.ring = s.hiir_dev.ring := by
  cases user <;> rfl

/-- An accepted `SET_BUF` empties the ring and gives it its new length; no other
command touches it. -/
theorem hiirIoctl_ring (cmd : IrIoc) (arg : BitVec 32) (user : Option (BitVec 32 × BitVec 32))
    (s : Hiir) :
    (hiirIoctl cmd arg user s).2.hiir_dev.ring
      = if resetsBuf cmd arg then (0, 0, arg.toNat + 1, s.hiir_dev.buf)
        else s.hiir_dev.ring := by
  cases cmd with
  | SET_BUF =>
    by_cases ha : 0 < arg.toNat ∧ arg.toNat ≤ HI_IR_MAX_BUF
    · simp [hiirIoctl, ha, resetsBuf, HiirDev.ring, Hiir.setDev]
    · simp [hiirIoctl, ha, resetsBuf]
  | SET_REPKEY_TIMEOUTVAL | SET_FORMAT | SET_FREQ =>
    simp only [hiirIoctl, resetsBuf]
    split <;> rfl
  | SET_LEADS | SET_LEADE | SET_SLEADE | SET_CNT0_B | SET_CNT1_B =>
    exact setWindow_ring user s _
  | SET_ENABLE_KEYUP | SET_ENABLE_REPKEY | SET_CODELEN | GET_CONFIG | ENDBG | DISDBG | other => rfl

/-- A successful open empties the ring and leaves the slots as they are. -/
theorem hiirOpen_ring {s st : Hiir} (h : hiirOpen s = (0, st)) :
    st.hiir_dev.ring = (0, 0, DEFAULT_BUF_LEN, s.hiir_dev.buf) := by
  unfold hiirOpen at h
  split at h
  · simp [EBUSY] at h
  · rw [← (Prod.mk.inj h).2]
    rfl

end ExtDrv.Irda
