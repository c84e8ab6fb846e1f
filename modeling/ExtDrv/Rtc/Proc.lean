import ExtDrv.Lib.Numerals
import ExtDrv.Rtc.RoundTrip

/-!
# Rtc — Proc

The second view of the clock, the text of `rtc_read_proc`, beside the record
that `RD_TIME` copies out. Both come from `rtc_get`, whose record already has
the year and the month as written; the handler adds 1900 and 1 once more, as
one would to the kernel's `struct rtc_time`.
-/

namespace ExtDrv.Rtc

open ExtDrv.Calendar ExtDrv.Decimal

/-- The `sprintf` of `rtc_read_proc`; `%d` takes its arguments as `int`. -/
def rtcText (hour minute second year month date : BitVec 32) : List Char :=
  "rtc_time\t: ".toList ++ (fmtD 2 hour.toInt ++ ':' :: (fmtD 2 minute.toInt ++
    ':' :: (fmtD 2 second.toInt ++ '\n' :: ("rtc_date\t: ".toList ++
      (fmtD 4 year.toInt ++ '-' :: (fmtD 2 month.toInt ++ '-' :: (fmtD 2 date.toInt ++
        ['\n'])))))))

/-- What a read of the file gives: the text, the offset of `*start` in it,
`*eof` and the length returned. -/
structure ProcRead where
  page : List Char
  start : Int
  eof : Bool
  len : Int
  deriving DecidableEq

def rtc_read_proc (K : RtcLib) (off count : Int) (s : Regs) : ProcRead :=
  let tm := rtc_get K s
  let page := rtcText tm.hour tm.minute tm.second (tm.year + 1900) (tm.month + 1) tm.date
  let len := max (page.length - off) 0
  { page, start := off, eof := decide (len ≤ count), len }

/-- The text shows the civil date and time of a record. -/
def Shows (page : List Char) (tm : RtcTime) : Prop :=
  page = rtcText tm.hour tm.minute tm.second tm.year tm.month tm.date

instance (page : List Char) (tm : RtcTime) : Decidable (Shows page tm) :=
  inferInstanceAs (Decidable (_ = _))

/-- The text of `/proc` shows the time that `RD_TIME` copies out. -/
def ViewsAgree (K : RtcLib) (off count : Int) (s : Regs) : Prop :=
  ∀ tm, (hi_rtc_ioctl K (.RD_TIME true) s).1 = ⟨0, some tm⟩ →
    Shows (rtc_read_proc K off count s).page tm

variable {K : RtcLib}

theorem toInt_eq_of_lt {x : BitVec 32} (h : x.toNat < 2 ^ 31) : x.toInt = (x.toNat : Int) := by
  rw [BitVec.toInt_eq_toNat_cond]
  omega

/-- Two texts of one time of day and of years that are no negative `int`s
are of one year. -/
theorem year_eq_of_rtcText {h m s y y' mo mo' d d' : BitVec 32}
    (hy : y.toNat < 2 ^ 31) (hy' : y'.toNat < 2 ^ 31)
    (heq : rtcText h m s y mo d = rtcText h m s y' mo' d') : y.toNat = y'.toNat := by
  unfold rtcText at heq
  simp only [List.append_cancel_left_eq, List.cons.injEq, true_and] at heq
  rw [toInt_eq_of_lt hy, toInt_eq_of_lt hy'] at heq
  exact eq_of_fmtD_append (by decide) heq

/-- **The two views never agree**: the year in the text is 1900 more. -/
theorem views_never_agree (hK : K.Documented) (off count : Int) (s : Regs) :
    ¬ ViewsAgree K off count s := by
  intro hagree
  obtain ⟨t, ht, -, hn, -⟩ := rtcSecond2Date_spec hK s.DR
  have hyear : t.date.year < 2108 := year_lt_of_sinceEpoch (by rw [hn]; exact s.DR.isLt)
  have hshows : Shows (rtc_read_proc K off count s).page (rtc_get K s) := hagree _ rfl
  have hy : (rtc_get K s).year.toNat = t.date.year := ht.year
  have hplus : ((rtc_get K s).year + 1900).toNat = t.date.year + 1900 := by
    rw [BitVec.toNat_add, hy]
    simp
    omega
  have heq := year_eq_of_rtcText (by omega) (by omega) hshows
  omega

/-- The counter at 0: the text shows the year 3870. -/
theorem views_never_agree_epoch : ¬ ViewsAgree calendarLib 0 4096 ⟨0, 0, 0, 0, 0⟩ :=
  views_never_agree calendarLib_documented 0 4096 ⟨0, 0, 0, 0, 0⟩

/-- The text of `/proc` at the beginning of 1970. -/
theorem views_agree_broken :
    ¬ ∀ (K : RtcLib) (off count : Int) (s : Regs), K.Documented → ViewsAgree K off count s := by
  intro h
  have hshows := h calendarLib 0 4096 ⟨0, 0, 0, 0, 0⟩ calendarLib_documented _ rfl
  exact absurd hshows (by decide)

end ExtDrv.Rtc
