import ExtDrv.Lib.Calendar

/-!
# Rtc — hi_rtc

The real time clock of `src/rtc/hi_rtc.c`: a counter of seconds `DR`, an
alarm register `MR` and a load register `LR`. The driver converts between its
own `rtc_time_t` (year and month as written, January being 1) and the
kernel's `struct rtc_time` (years from 1900, January being 0), and lets the
kernel convert the latter to and from seconds.

The kernel's three functions are not in this repository: they are the
parameter `RtcLib`, and `RtcLib.Documented` is what the driver relies on.
-/

namespace ExtDrv.Rtc

open ExtDrv.Calendar

/-! ## The two records of a time -/

/-- The driver's `rtc_time_t`. -/
@[ext]
structure RtcTime where
  year : BitVec 32
  month : BitVec 32
  date : BitVec 32
  hour : BitVec 32
  minute : BitVec 32
  second : BitVec 32
  weekday : BitVec 32
  deriving DecidableEq

/-- The kernel's `struct rtc_time`, the fields the driver uses. -/
structure Tm where
  tm_sec : Int
  tm_min : Int
  tm_hour : Int
  tm_mday : Int
  tm_mon : Int
  tm_year : Int
  tm_wday : Int

/-! ## The kernel's conversions -/

/-- `rtc_valid_tm`, `rtc_tm_to_time` (the status, and what it stores in the
32-bit `*time`) and `rtc_time_to_tm`. -/
structure RtcLib where
  rtc_valid_tm : Tm → Int
  rtc_tm_to_time : Tm → Int × BitVec 32
  rtc_time_to_tm : BitVec 32 → Tm

/-- The fields of `tm` are those of the second `t`. -/
structure Tm.Reads (tm : Tm) (t : DateTime) : Prop where
  year : tm.tm_year + 1900 = t.date.year
  month : tm.tm_mon = t.date.month
  day : tm.tm_mday = t.date.day
  hour : tm.tm_hour = t.hour
  minute : tm.tm_min = t.minute
  second : tm.tm_sec = t.second

/-- The day number of 1 January 1970. -/
def epochDay : ℕ := dayCount 1970 0 1

/-- The seconds of `t` since the beginning of 1970. -/
def sinceEpoch (t : DateTime) : ℕ := t.seconds - secondCount epochDay 0 0 0

theorem epochDay_value : epochDay = 719528 := by decide

theorem epoch_le_iff {t : DateTime} :
    secondCount epochDay 0 0 0 ≤ t.seconds ↔ 1970 ≤ t.date.year := by
  have h1970 : yearStart 1970 = 719528 := by decide
  have hh := t.hour_lt
  have hm := t.minute_lt
  have hs := t.second_lt
  rw [← Date.yearStart_le_iff, h1970, epochDay_value]
  unfold DateTime.seconds secondCount
  omega

/-- The documented behaviour of the three functions: the check is that of the
year and of the field ranges; a valid time is converted to its second
modulo `2 ^ 32`; and a second is converted back to its time and weekday. -/
structure RtcLib.Documented (K : RtcLib) : Prop where
  valid (tm : Tm) : K.rtc_valid_tm tm = 0 ↔ 70 ≤ tm.tm_year ∧ ∃ t, tm.Reads t
  toTime {tm : Tm} {t : DateTime} : 70 ≤ tm.tm_year → tm.Reads t →
    K.rtc_tm_to_time tm = (0, BitVec.ofNat 32 (sinceEpoch t))
  ofTime (n : BitVec 32) : ∃ t, (K.rtc_time_to_tm n).Reads t ∧ 1970 ≤ t.date.year ∧
    sinceEpoch t = n.toNat ∧ (K.rtc_time_to_tm n).tm_wday = weekday t.date.dayNumber

/-! ## The kernel's conversions by the calendar -/

/-- The year is from 1970 on and the fields are in their ranges. -/
def Tm.InRange (tm : Tm) : Prop :=
  70 ≤ tm.tm_year ∧ (0 ≤ tm.tm_mon ∧ tm.tm_mon < 12) ∧
    (1 ≤ tm.tm_mday ∧ tm.tm_mday ≤ monthDays (tm.tm_year + 1900).toNat tm.tm_mon.toNat) ∧
    (0 ≤ tm.tm_hour ∧ tm.tm_hour < 24) ∧ (0 ≤ tm.tm_min ∧ tm.tm_min < 60) ∧
    (0 ≤ tm.tm_sec ∧ tm.tm_sec < 60)

instance (tm : Tm) : Decidable tm.InRange := inferInstanceAs (Decidable (_ ∧ _))

/-- The three functions as the calendar has them. -/
def calendarLib : RtcLib where
  rtc_valid_tm tm := if tm.InRange then 0 else -22
  rtc_tm_to_time tm := (0, BitVec.ofNat 32
    (secondCount (dayCount (tm.tm_year + 1900).toNat tm.tm_mon.toNat tm.tm_mday.toNat)
      tm.tm_hour.toNat tm.tm_min.toNat tm.tm_sec.toNat - secondCount epochDay 0 0 0))
  rtc_time_to_tm n :=
    let t := DateTime.ofSeconds (n.toNat + secondCount epochDay 0 0 0)
    { tm_sec := t.second
      tm_min := t.minute
      tm_hour := t.hour
      tm_mday := t.date.day
      tm_mon := t.date.month
      tm_year := t.date.year - 1900
      tm_wday := weekday t.date.dayNumber }

theorem Tm.inRange_iff (tm : Tm) : tm.InRange ↔ 70 ≤ tm.tm_year ∧ ∃ t, tm.Reads t := by
  constructor
  · rintro ⟨hy, hmon, hday, hh, hmin, hsec⟩
    refine ⟨hy, ⟨⟨⟨(tm.tm_year + 1900).toNat, tm.tm_mon.toNat, tm.tm_mday.toNat,
      by omega, by omega, by omega⟩, tm.tm_hour.toNat, tm.tm_min.toNat, tm.tm_sec.toNat,
      by omega, by omega, by omega⟩, ?_⟩⟩
    constructor <;> exact (Int.toNat_of_nonneg (by omega)).symm
  · rintro ⟨hy, t, ht⟩
    have hmonth := t.date.month_lt
    have hpos := t.date.day_pos
    have hday := t.date.day_le
    have hh := t.hour_lt
    have hm := t.minute_lt
    have hs := t.second_lt
    obtain ⟨hy', hmon', hday', hh', hm', hs'⟩ := ht
    rw [InRange, hy', hmon', hday', hh', hm', hs']
    simp only [Int.toNat_natCast]
    omega

theorem calendarLib_documented : calendarLib.Documented where
  valid tm := by
    rw [← Tm.inRange_iff]
    simp only [calendarLib]
    split_ifs with h <;> simp [h]
  toTime {tm t} hy ht := by
    obtain ⟨hy', hmon', hday', hh', hm', hs'⟩ := ht
    simp only [calendarLib, hy', hmon', hday', hh', hm', hs', Int.toNat_natCast]
    rfl
  ofTime n := by
    have hs := DateTime.seconds_ofSeconds (n.toNat + secondCount epochDay 0 0 0)
    refine ⟨DateTime.ofSeconds (n.toNat + secondCount epochDay 0 0 0),
      ⟨?_, rfl, rfl, rfl, rfl, rfl⟩, ?_, ?_, rfl⟩
    · exact Int.sub_add_cancel _ _
    · rw [← epoch_le_iff, hs]
      exact Nat.le_add_left _ _
    · rw [sinceEpoch, hs, Nat.add_sub_cancel]

/-! ## The driver -/

/-- The registers the driver reads and writes. -/
@[ext]
structure Regs where
  DR : BitVec 32
  MR : BitVec 32
  LR : BitVec 32
  CR : BitVec 32
  IMSC : BitVec 32
  deriving DecidableEq

/-- `writel(v, RTC_LR)`: the counter takes the value loaded. -/
def Regs.load (s : Regs) (v : BitVec 32) : Regs := { s with LR := v, DR := v }

def EINVAL : Int := 22

def EFAULT : Int := 14

/-- The kernel's record of an `rtc_time_t`, the subtractions being unsigned
and their results stored in an `int`. -/
def RtcTime.toTm (c : RtcTime) : Tm where
  tm_year := (c.year - 1900).toInt
  tm_mon := (c.month - 1).toInt
  tm_mday := c.date.toInt
  tm_wday := c.weekday.toInt
  tm_hour := c.hour.toInt
  tm_min := c.minute.toInt
  tm_sec := c.second.toInt

/-- The status, and the seconds when it is 0. -/
def rtcdate2second (K : RtcLib) (compositetime : RtcTime) : Int × BitVec 32 :=
  if compositetime.weekday > 6 then (-1, 0)
  else if K.rtc_valid_tm compositetime.toTm = 0 then K.rtc_tm_to_time compositetime.toTm
  else (-1, 0)

def rtcSecond2Date (K : RtcLib) (timeOfsecond : BitVec 32) : RtcTime :=
  let tmp := K.rtc_time_to_tm timeOfsecond
  { year := BitVec.ofInt 32 tmp.tm_year + 1900
    month := BitVec.ofInt 32 tmp.tm_mon + 1
    date := BitVec.ofInt 32 tmp.tm_mday
    hour := BitVec.ofInt 32 tmp.tm_hour
    minute := BitVec.ofInt 32 tmp.tm_min
    second := BitVec.ofInt 32 tmp.tm_sec
    weekday := BitVec.ofInt 32 tmp.tm_wday }

def rtc_set (K : RtcLib) (compositetime : RtcTime) (s : Regs) : Int × Regs :=
  let r := rtcdate2second K compositetime
  if r.1 ≠ 0 then (r.1, s) else (0, { s with CR := 1 }.load r.2)

def rtc_get (K : RtcLib) (s : Regs) : RtcTime := rtcSecond2Date K s.DR

def rtc_getalm (K : RtcLib) (s : Regs) : RtcTime := rtcSecond2Date K s.MR

def rtc_alarm_complex_set (K : RtcLib) (stCompositeTime : RtcTime) (s : Regs) : Int × Regs :=
  let r := rtcdate2second K stCompositeTime
  if r.1 = 0 then
    if r.2 ≤ 0 ∨ r.2 = 0xFFFFFFFF then (-EINVAL, s) else (0, { s with MR := r.2 })
  else (-EINVAL, s)

/-- The commands of `hi_rtc_ioctl` with what `arg` points to: a time to be
read, `none` where `copy_from_user` fails, or whether a time can be written
there. -/
inductive Cmd
  | AIE_ON
  | AIE_OFF
  | ALM_READ (writable : Bool)
  | ALM_SET (arg : Option RtcTime)
  | RD_TIME (writable : Bool)
  | SET_TIME (arg : Option RtcTime)
  | other (cmd : BitVec 32)
  deriving DecidableEq

/-- The return value of a request and the time copied to the user. -/
structure Answer where
  ret : Int
  out : Option RtcTime
  deriving DecidableEq

/-- `copy_to_user` of a time. -/
def copyOut (writable : Bool) (tm : RtcTime) : Answer :=
  if writable then ⟨0, some tm⟩ else ⟨-EFAULT, none⟩

def hi_rtc_ioctl (K : RtcLib) (cmd : Cmd) (s : Regs) : Answer × Regs :=
  match cmd with
  | .AIE_ON => (⟨0, none⟩, { s with IMSC := 1 })
  | .AIE_OFF => (⟨0, none⟩, { s with IMSC := 0 })
  | .ALM_READ writable => (copyOut writable (rtc_getalm K s), s)
  | .ALM_SET none => (⟨-EFAULT, none⟩, s)
  | .ALM_SET (some tm) =>
      let r := rtc_alarm_complex_set K tm s
      (⟨r.1, none⟩, r.2)
  | .RD_TIME writable => (copyOut writable (rtc_get K s), s)
  | .SET_TIME none => (⟨-EFAULT, none⟩, s)
  | .SET_TIME (some tm) =>
      let r := rtc_set K tm s
      (⟨r.1, none⟩, r.2)
  | .other _ => (⟨-EINVAL, none⟩, s)

/-- What happens to the clock: a request, or a second going by. -/
inductive Act
  | request (cmd : Cmd)
  | tick
  deriving DecidableEq

def step (K : RtcLib) (s : Regs) : Act → Regs
  | .request cmd => (hi_rtc_ioctl K cmd s).2
  | .tick => { s with DR := s.DR + 1 }

end ExtDrv.Rtc
