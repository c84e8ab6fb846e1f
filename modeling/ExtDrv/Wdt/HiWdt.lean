import ExtDrv.Lib.Run
import Mathlib.Data.BitVec

/-!
# The watchdog driver (`hi_wdt.c`)

The registers, the four routines that write them, the file operations and the
load of the module. What is written between the unlocking and the locking of
the register file is one step, as the driver's spin lock makes it.
-/

namespace ExtDrv.Wdt

open Run

/-! ## State -/

/-- The registers of the watchdog, with the system control register that holds
its clock gate. `INTCLR` is left out: a write to it reloads the counter. -/
structure WdtRegs where
  LOAD : BitVec 32
  VALUE : BitVec 32
  CTRL : BitVec 32
  SCTL : BitVec 32
  deriving DecidableEq, Repr

inductive HidogState where
  | EXIT
  | SELFCLR
  | EXTCLR
  deriving DecidableEq, Repr

def HIDOG_TIMER_MARGIN : BitVec 32 := 60
def WDIOS_DISABLECARD : BitVec 32 := 1
def WDIOS_ENABLECARD : BitVec 32 := 2

/-- `rate`: the counter runs at 3 MHz. -/
def rate : Nat := 3 * (1000 * 1000)

/-- The globals of the driver. `refs` counts `__module_get` and `module_put`. -/
structure Hidog where
  regs : WdtRegs
  default_margin : BitVec 32
  nowayout : BitVec 32
  nodeamon : BitVec 32
  cur_margin : BitVec 32
  hidog_state : HidogState
  driver_open : Bool
  orphan_timer : Bool
  options : BitVec 32
  refs : Int
  deriving DecidableEq

/-! ## The register routines -/

/-- `(~0x0)/rate`: the largest margin, in seconds. -/
def maxMargin : Nat := (2 ^ 32 - 1) / rate

/-- What `hidog_set_timeout` loads for `nr`. -/
def loadCount (nr : BitVec 32) : BitVec 32 :=
  if nr.toNat = 0 ∨ maxMargin < nr.toNat then ~~~0 else nr * BitVec.ofNat 32 rate

/-- `hidog_set_timeout`. -/
def hidogSetTimeout (nr : BitVec 32) (s : Hidog) : Hidog :=
  { s with regs := { s.regs with LOAD := loadCount nr, VALUE := loadCount nr } }

/-- The margin `hidog_set_heartbeat` settles for, with what it returns. The
comparison with `cnt` is unsigned, so it takes negative margins as well. -/
def clampMargin (t cur_margin : BitVec 32) : BitVec 32 × Int :=
  -- zero keeps the margin there is, and is reported all the same
  if t = 0 then (cur_margin, 1)
  else if maxMargin < t.toNat then (BitVec.ofNat 32 maxMargin, -1)
  else (t, 0)

/-- `hidog_set_heartbeat`. -/
def hidogSetHeartbeat (t : BitVec 32) (s : Hidog) : Int × Hidog :=
  let (t, ret) := clampMargin t s.cur_margin
  (ret, hidogSetTimeout t { s with cur_margin := t })

/-- `hidog_start`. -/
def hidogStart (s : Hidog) : Hidog :=
  { s with
    regs := { s.regs with CTRL := 0x03, SCTL := s.regs.SCTL &&& ~~~0x00800000 }
    options := WDIOS_ENABLECARD }

/-- `hidog_stop`. -/
def hidogStop (s : Hidog) : Hidog :=
  { hidogSetTimeout 0 { s with regs := { s.regs with CTRL := 0x00 } } with
    options := WDIOS_DISABLECARD }

/-! ## The file operations -/

def EBUSY : Int := 16
def EFAULT : Int := 14
def EINVAL : Int := 22
def ENOIOCTLCMD : Int := 515
def WDIOS_UNKNOWN : Int := -1

/-- `hidog_open`. -/
def hidogOpen (s : Hidog) : Int × Hidog :=
  if s.driver_open then (-EBUSY, s)
  else
    (0, { s with
      driver_open := true
      orphan_timer := false
      refs := if s.orphan_timer then s.refs else s.refs + 1
      hidog_state := .EXTCLR })

/-- `hidog_release`. -/
def hidogRelease (s : Hidog) : Hidog :=
  if s.nowayout = 0#32 then
    -- `cur_margin = default_margin` is commented out in the source
    let s := (hidogSetHeartbeat s.cur_margin { s with hidog_state := .SELFCLR }).2
    { s with refs := s.refs - 1, driver_open := false }
  else { s with orphan_timer := true, driver_open := false }

/-- The loop of `hidog_write` over the user's bytes, from `nowayout` on: `none`
is a byte `get_user` faults on, and a fault ends the loop. -/
def scanWrite : List (Option (BitVec 8)) → BitVec 32 → Bool × BitVec 32
  | [], nowayout => (true, nowayout)
  | none :: _, nowayout => (false, nowayout)
  | some c :: data, nowayout => scanWrite data (if c = 'V'.toNat then 1 else nowayout)

/-- `hidog_write`. -/
def hidogWrite (data : List (Option (BitVec 8))) (s : Hidog) : Int × Hidog :=
  if data.length ≠ 0 then
    -- `nowayout` is cleared first, and set again by a `V`
    match scanWrite data 0 with
    | (false, nowayout) => (-EFAULT, { s with nowayout := nowayout })
    | (true, nowayout) => (data.length, { s with nowayout := nowayout })
  else (0, s)

/-- The commands of `hidog_ioctl`. `fault` is a copy to the user that fails,
`none` a `get_user` that does. -/
inductive WdIoc where
  | GETSUPPORT (fault : Bool)
  | GETSTATUS (fault : Bool)
  | GETBOOTSTATUS (fault : Bool)
  | KEEPALIVE
  | SETTIMEOUT (new_margin : Option (BitVec 32))
  | GETTIMEOUT (fault : Bool)
  | SETOPTIONS (new_options : Option (BitVec 32))
  | other
  deriving DecidableEq, Repr

/-- `put_user` and `copy_to_user` as return values. -/
def faultOr (fault : Bool) : Int := if fault then -EFAULT else 0

/-- `hidog_ioctl`. -/
def hidogIoctl (cmd : WdIoc) (s : Hidog) : Int × Hidog :=
  match cmd with
  | .GETSUPPORT fault => (faultOr fault, s)
  | .GETSTATUS fault => (faultOr fault, s)
  | .GETBOOTSTATUS fault => (faultOr fault, s)
  | .KEEPALIVE => (0, s)
  | .SETTIMEOUT none => (-EFAULT, s)
  | .SETTIMEOUT (some new_margin) =>
      let (ret, s) := hidogSetHeartbeat new_margin s
      -- the margin that replaces one out of range stays although the call fails
      if ret ≠ 0 then (-EINVAL, s) else (0, s)
  | .GETTIMEOUT fault => (faultOr fault, s)
  | .SETOPTIONS new_options =>
      if s.nowayout ≠ 0#32 then (-WDIOS_UNKNOWN, s)
      else
        match new_options with
        | none => (-EFAULT, s)
        | some new_options =>
            if new_options &&& WDIOS_ENABLECARD ≠ 0#32 then
              (0, (hidogSetHeartbeat s.cur_margin (hidogStart s)).2)
            else if new_options &&& WDIOS_DISABLECARD ≠ 0#32 then (0, hidogStop s)
            else (-WDIOS_UNKNOWN, s)
  | .other => (-ENOIOCTLCMD, s)

/-! ## Loading the module -/

/-- The state the module's data and its parameters give, before
`watchdog_init`. -/
def loaded (default_margin nowayout nodeamon : BitVec 32) : Hidog where
  regs := ⟨0, 0, 0, 0⟩
  default_margin := default_margin
  nowayout := nowayout
  nodeamon := nodeamon
  cur_margin := HIDOG_TIMER_MARGIN
  hidog_state := .EXIT
  driver_open := false
  orphan_timer := false
  options := WDIOS_ENABLECARD
  refs := 0

/-- `hidog_init`. -/
def hidogInit (s : Hidog) : Hidog := { hidogStart s with hidog_state := .SELFCLR }

/-- `watchdog_init`, where nothing it registers fails. -/
def watchdogInit (default_margin nowayout nodeamon : BitVec 32) : Hidog :=
  let s := { loaded default_margin nowayout nodeamon with cur_margin := default_margin }
  let (ret, s) := hidogSetHeartbeat default_margin s
  if ret ≠ 0 then
    let s := { s with default_margin := HIDOG_TIMER_MARGIN }
    hidogInit (hidogSetHeartbeat HIDOG_TIMER_MARGIN s).2
  else hidogInit s

/-! ## The calls of users -/

/-- The calls on the device file. -/
inductive Call where
  | openFile
  | write (data : List (Option (BitVec 8)))
  | ioctl (cmd : WdIoc)
  | close
  deriving DecidableEq, Repr

/-- One call. Only an open file is written, controlled or closed. -/
def call (s : Hidog) : Call → Hidog
  | .openFile => (hidogOpen s).2
  | .write data => if s.driver_open then (hidogWrite data s).2 else s
  | .ioctl cmd => if s.driver_open then (hidogIoctl cmd s).2 else s
  | .close => if s.driver_open then hidogRelease s else s

/-! ## What every state has in order -/

/-- A margin the driver programs: from one second to `maxMargin`. -/
def MarginOk (t : BitVec 32) : Prop := 0 < t.toNat ∧ t.toNat ≤ maxMargin

/-- The registers, the margin and the flags, as the load leaves them and every
call keeps them. -/
structure Programmed (s : Hidog) : Prop where
  default_ok : MarginOk s.default_margin
  cur_ok : MarginOk s.cur_margin
  ctrl : s.regs.CTRL = 0x03 ∨ s.regs.CTRL = 0x00
  options : s.options = if s.regs.CTRL = 0x03 then WDIOS_ENABLECARD else WDIOS_DISABLECARD
  load : s.regs.CTRL = 0x03 → s.regs.LOAD = s.cur_margin * BitVec.ofNat 32 rate

theorem maxMargin_eq : maxMargin = 1431 := rfl

theorem loadCount_of_ok {t : BitVec 32} (h : MarginOk t) :
    loadCount t = t * BitVec.ofNat 32 rate := by
  have hrange : ¬ (t.toNat = 0 ∨ maxMargin < t.toNat) := by
    rcases h with ⟨hpos, hle⟩
    omega
  rw [loadCount, if_neg hrange]

/-- The counter of a margin in range holds the whole product. -/
theorem toNat_load {t : BitVec 32} (h : MarginOk t) :
    (t * BitVec.ofNat 32 rate).toNat = t.toNat * 3000000 := by
  rcases h with ⟨-, hle⟩
  rw [maxMargin_eq] at hle
  have hrate : (BitVec.ofNat 32 rate).toNat = 3000000 := by decide
  rw [BitVec.toNat_mul, hrate]
  apply Nat.mod_eq_of_lt
  omega

/-- The margin that is kept is in range. -/
theorem clampMargin_ok {t cur_margin : BitVec 32} (h : MarginOk cur_margin) :
    MarginOk (clampMargin t cur_margin).1 := by
  unfold clampMargin
  split
  · exact h
  · rename_i hne
    split
    · exact ⟨by decide, by decide⟩
    · rename_i hle
      exact ⟨Nat.pos_of_ne_zero fun hzero => hne (BitVec.eq_of_toNat_eq hzero), Nat.not_lt.mp hle⟩

/-- A margin in range is taken as it is. -/
theorem clampMargin_of_ok {t cur_margin : BitVec 32} (h : MarginOk t) :
    clampMargin t cur_margin = (t, 0) := by
  rcases h with ⟨hpos, hle⟩
  have hne : t ≠ 0 := by
    rintro rfl
    simp at hpos
  rw [clampMargin, if_neg hne, if_neg (by omega)]

/-- Any other margin is refused or replaced, which the return value tells. -/
theorem clampMargin_snd {t cur_margin : BitVec 32} (h : ¬ MarginOk t) :
    (clampMargin t cur_margin).2 ≠ 0 := by
  unfold clampMargin
  split
  · exact one_ne_zero
  · rename_i hne
    have hpos : 0 < t.toNat := Nat.pos_of_ne_zero fun hzero => hne (BitVec.eq_of_toNat_eq hzero)
    split
    · decide
    · rename_i hle
      exact absurd ⟨hpos, Nat.not_lt.mp hle⟩ h

/-- The state after a heartbeat is set. -/
theorem hidogSetHeartbeat_snd (t : BitVec 32) (s : Hidog) :
    (hidogSetHeartbeat t s).2
      = hidogSetTimeout (clampMargin t s.cur_margin).1
          { s with cur_margin := (clampMargin t s.cur_margin).1 } := rfl

theorem hidogSetHeartbeat_programmed {s : Hidog} (h : Programmed s) (t : BitVec 32) :
    Programmed (hidogSetHeartbeat t s).2 := by
  have hok : MarginOk (clampMargin t s.cur_margin).1 := clampMargin_ok h.cur_ok
  exact ⟨h.default_ok, hok, h.ctrl, h.options, fun _ => loadCount_of_ok hok⟩

theorem hidogStop_programmed {s : Hidog} (h : Programmed s) : Programmed (hidogStop s) :=
  ⟨h.default_ok, h.cur_ok, .inr rfl, rfl, fun hc => nomatch hc⟩

/-- A start and the heartbeat after it, from a margin in range. -/
theorem start_programmed {s : Hidog} (hd : MarginOk s.default_margin)
    (hc : MarginOk s.cur_margin) :
    Programmed (hidogSetHeartbeat s.cur_margin (hidogStart s)).2 := by
  have hclamp : clampMargin s.cur_margin s.cur_margin = (s.cur_margin, 0) := clampMargin_of_ok hc
  have hok : MarginOk (clampMargin s.cur_margin s.cur_margin).1 := by
    rw [hclamp]
    exact hc
  exact ⟨hd, hok, .inl rfl, rfl, fun _ => loadCount_of_ok hok⟩

/-- What a write leaves: only `nowayout` may change. -/
theorem hidogWrite_snd (data : List (Option (BitVec 8))) (s : Hidog) :
    (hidogWrite data s).2
      = { s with nowayout := if data.length ≠ 0 then (scanWrite data 0).2 else s.nowayout } := by
  unfold hidogWrite
  split
  · rcases scanWrite data 0 with ⟨_ | _, nowayout⟩ <;> rfl
  · rfl

/-- The ioctl that stops the watchdog. -/
def stops (s : Hidog) : Call → Bool
  | .ioctl (.SETOPTIONS (some new_options)) =>
      s.driver_open && s.nowayout == 0#32 && new_options &&& WDIOS_ENABLECARD == 0#32
        && new_options &&& WDIOS_DISABLECARD != 0#32
  | _ => false

/-! ## What a call can do -/

/-- **The outcomes of a call**, with the state each leaves. -/
inductive Leaves (s : Hidog) : Call → Hidog → Prop
  | same {c : Call} (hstop : stops s c = false) : Leaves s c s
  | opened (hopen : s.driver_open = false) : Leaves s .openFile (hidogOpen s).2
  | wrote (data : List (Option (BitVec 8))) (nowayout : BitVec 32) :
      Leaves s (.write data) { s with nowayout := nowayout }
  | margin (new_margin : BitVec 32) :
      Leaves s (.ioctl (.SETTIMEOUT (some new_margin))) (hidogSetHeartbeat new_margin s).2
  | started {new_options : BitVec 32} (hen : new_options &&& WDIOS_ENABLECARD ≠ 0#32) :
      Leaves s (.ioctl (.SETOPTIONS (some new_options)))
        (hidogSetHeartbeat s.cur_margin (hidogStart s)).2
  | stopped {c : Call} (hstop : stops s c = true) : Leaves s c (hidogStop s)
  | closed (hopen : s.driver_open = true) : Leaves s .close (hidogRelease s)

theorem ioctl_leaves {s : Hidog} (hopen : s.driver_open = true) (cmd : WdIoc) :
    Leaves s (.ioctl cmd) (hidogIoctl cmd s).2 := by
  cases cmd with
  | SETTIMEOUT new_margin =>
    cases new_margin with
    | none => exact .same rfl
    | some t =>
      simp only [hidogIoctl]
      split <;> exact .margin t
  | SETOPTIONS new_options =>
    cases new_options with
    | none =>
      simp only [hidogIoctl]
      split <;> exact .same rfl
    | some o =>
      simp only [hidogIoctl]
      by_cases hno : s.nowayout = 0#32
      case neg =>
        rw [if_pos hno]
        exact .same (by simp [stops, hno])
      rw [if_neg (not_not_intro hno)]
      by_cases hen : o &&& WDIOS_ENABLECARD = 0#32
      case neg =>
        rw [if_pos hen]
        exact .started hen
      rw [if_neg (not_not_intro hen)]
      by_cases hdis : o &&& WDIOS_DISABLECARD = 0#32
      · rw [if_neg (not_not_intro hdis)]
        exact .same (by simp [stops, hdis])
      · rw [if_pos hdis]
        exact .stopped (by simp [stops, hopen, hno, hen, hdis])
  | GETSUPPORT | GETSTATUS | GETBOOTSTATUS | KEEPALIVE | GETTIMEOUT | other => exact .same rfl

theorem call_leaves {s t : Hidog} {c : Call} (h : call s c = t) : Leaves s c t := by
  subst h
  cases c with
  | openFile =>
    cases hopen : s.driver_open with
    | true =>
      simp only [call, hidogOpen, hopen, if_true]
      exact .same rfl
    | false => exact .opened hopen
  | write data =>
    simp only [call]
    split
    · rw [hidogWrite_snd]
      exact .wrote data _
    · exact .same rfl
  | close =>
    simp only [call]
    split
    · rename_i hopen
      exact .closed hopen
    · exact .same rfl
  | ioctl cmd =>
    by_cases hopen : s.driver_open = true
    · rw [call, if_pos hopen]
      exact ioctl_leaves hopen cmd
    · -- there is no file for the command to go to
      have hstop : stops s (.ioctl cmd) = false := by
        cases cmd with
        | SETOPTIONS new_options => cases new_options <;> simp [stops, hopen]
        | GETSUPPORT | GETSTATUS | GETBOOTSTATUS | KEEPALIVE | SETTIMEOUT | GETTIMEOUT | other =>
          rfl
      rw [call, if_neg hopen]
      exact .same hstop

theorem hidogRelease_programmed {s : Hidog} (h : Programmed s) : Programmed (hidogRelease s) := by
  have hself : Programmed { s with hidog_state := .SELFCLR } :=
    ⟨h.default_ok, h.cur_ok, h.ctrl, h.options, h.load⟩
  unfold hidogRelease
  split
  · have hset := hidogSetHeartbeat_programmed hself s.cur_margin
    exact ⟨hset.default_ok, hset.cur_ok, hset.ctrl, hset.options, hset.load⟩
  · exact ⟨h.default_ok, h.cur_ok, h.ctrl, h.options, h.load⟩

/-- **One call** keeps what every state has in order. -/
theorem call_programmed {s : Hidog} (h : Programmed s) (c : Call) : Programmed (call s c) := by
  generalize hc : call s c = t
  cases call_leaves hc with
  | same => exact h
  | opened hopen =>
    rw [hidogOpen, if_neg (by simp [hopen])]
    exact ⟨h.default_ok, h.cur_ok, h.ctrl, h.options, h.load⟩
  | wrote => exact ⟨h.default_ok, h.cur_ok, h.ctrl, h.options, h.load⟩
  | margin new_margin => exact hidogSetHeartbeat_programmed h new_margin
  | started => exact start_programmed h.default_ok h.cur_ok
  | stopped => exact hidogStop_programmed h
  | closed => exact hidogRelease_programmed h

/-! ## The load keeps the order too -/

/-- The start of a watchdog whose heartbeat is set. -/
theorem hidogInit_programmed {s : Hidog} {t : BitVec 32} (hd : MarginOk s.default_margin)
    (ht : MarginOk t) : Programmed (hidogInit (hidogSetHeartbeat t s).2) := by
  have hclamp : clampMargin t s.cur_margin = (t, 0) := clampMargin_of_ok ht
  rw [hidogSetHeartbeat_snd, hclamp]
  exact ⟨hd, ht, .inl rfl, rfl, fun _ => loadCount_of_ok ht⟩

/-- The load of the module programs the default margin, or 60 seconds for one
out of range, and starts the watchdog. -/
theorem watchdogInit_programmed (default_margin nowayout nodeamon : BitVec 32) :
    Programmed (watchdogInit default_margin nowayout nodeamon) := by
  have hsixty : MarginOk HIDOG_TIMER_MARGIN := ⟨by decide, by decide⟩
  unfold watchdogInit
  dsimp only
  split
  · exact hidogInit_programmed hsixty hsixty
  · rename_i hret
    have hok : MarginOk default_margin := by
      by_contra hno
      exact hret (clampMargin_snd hno)
    exact hidogInit_programmed (s := { loaded default_margin nowayout nodeamon with
      cur_margin := default_margin }) hok hok

end ExtDrv.Wdt
