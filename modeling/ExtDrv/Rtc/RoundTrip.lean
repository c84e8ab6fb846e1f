import ExtDrv.Rtc.HiRtc
import ExtDrv.Lib.Run
import Mathlib.Data.BitVec

/-!
# Rtc — RoundTrip

What is read back after a time or an alarm has been set. The driver's two
conversions are compared through the second `DateTime` that a record stands
for: an accepted `rtc_time_t` stands for one, the registers hold its number
modulo `2 ^ 32`, and reading gives the record of the second with that number
and the weekday of its date. So a time comes back as it was set exactly when
it is `Storable`: its second fits the counter, and its weekday is right.
-/

namespace ExtDrv.Rtc

open ExtDrv.Calendar ExtDrv.Run

/-! ## The second a record stands for -/

/-- The fields of `c`, but for the weekday, are those of the second `t`. -/
structure RtcTime.Is (c : RtcTime) (t : DateTime) : Prop where
  year : c.year.toNat = t.date.year
  month : c.month.toNat = t.date.month + 1
  date : c.date.toNat = t.date.day
  hour : c.hour.toNat = t.hour
  minute : c.minute.toNat = t.minute
  second : c.second.toNat = t.second

theorem RtcTime.Is.unique {c : RtcTime} {t u : DateTime} (ht : c.Is t) (hu : c.Is u) :
    t = u := by
  have hm := ht.month.symm.trans hu.month
  apply DateTime.ext
  · exact Date.ext (ht.year.symm.trans hu.year) (by omega) (ht.date.symm.trans hu.date)
  · exact ht.hour.symm.trans hu.hour
  · exact ht.minute.symm.trans hu.minute
  · exact ht.second.symm.trans hu.second

/-- Two records of one second differ in the weekday at most. -/
theorem RtcTime.Is.eq_of_weekday {c e : RtcTime} {t : DateTime} (hc : c.Is t) (he : e.Is t)
    (hw : c.weekday = e.weekday) : c = e := by
  apply RtcTime.ext
  · exact BitVec.eq_of_toNat_eq (hc.year.trans he.year.symm)
  · exact BitVec.eq_of_toNat_eq (hc.month.trans he.month.symm)
  · exact BitVec.eq_of_toNat_eq (hc.date.trans he.date.symm)
  · exact BitVec.eq_of_toNat_eq (hc.hour.trans he.hour.symm)
  · exact BitVec.eq_of_toNat_eq (hc.minute.trans he.minute.symm)
  · exact BitVec.eq_of_toNat_eq (hc.second.trans he.second.symm)
  · exact hw

/-- The day number of the date in a record. -/
def RtcTime.dayNumber (c : RtcTime) : ℕ :=
  dayCount c.year.toNat (c.month.toNat - 1) c.date.toNat

/-- The seconds from the beginning of 1970 to the time in a record. -/
def RtcTime.secondsSince1970 (c : RtcTime) : ℕ :=
  secondCount c.dayNumber c.hour.toNat c.minute.toNat c.second.toNat -
    secondCount epochDay 0 0 0

/-- The time is one of the `2 ^ 32` seconds the counter can hold (the last is
06:28:15 on 7 February 2106), and the weekday is that of the date. -/
def RtcTime.Storable (c : RtcTime) : Prop :=
  c.secondsSince1970 < 2 ^ 32 ∧ c.weekday.toNat = Calendar.weekday c.dayNumber

instance (c : RtcTime) : Decidable c.Storable := inferInstanceAs (Decidable (_ ∧ _))

theorem RtcTime.Is.dayNumber {c : RtcTime} {t : DateTime} (h : c.Is t) :
    c.dayNumber = t.date.dayNumber := by
  rw [RtcTime.dayNumber, h.year, h.month, h.date, Nat.add_sub_cancel]
  rfl

theorem RtcTime.Is.secondsSince1970 {c : RtcTime} {t : DateTime} (h : c.Is t) :
    c.secondsSince1970 = sinceEpoch t := by
  rw [RtcTime.secondsSince1970, h.dayNumber, h.hour, h.minute, h.second]
  rfl

/-! ## The two conversions -/

theorem sinceEpoch_inj {t u : DateTime} (ht : 1970 ≤ t.date.year) (hu : 1970 ≤ u.date.year)
    (h : sinceEpoch t = sinceEpoch u) : t = u := by
  have h1 := epoch_le_iff.mpr ht
  have h2 := epoch_le_iff.mpr hu
  unfold sinceEpoch at h
  apply DateTime.seconds_injective
  omega

/-- The seconds of the counter are of years before 2108. -/
theorem year_lt_of_sinceEpoch {t : DateTime} (h : sinceEpoch t < 2 ^ 32) :
    t.date.year < 2108 := by
  have hy : yearStart t.date.year ≤ t.date.dayNumber := Date.yearStart_le_iff.mpr (le_refl _)
  have h365 : 365 * t.date.year ≤ yearStart t.date.year := by
    unfold yearStart
    omega
  unfold sinceEpoch DateTime.seconds at h
  rw [epochDay_value] at h
  unfold secondCount at h
  omega

variable {K : RtcLib}

/-- An unsigned difference that is a natural number as an `int`. -/
theorem toNat_of_sub_toInt {x k : BitVec 32} {m : ℕ} (h : (x - k).toInt = m)
    (hlt : m + k.toNat < 2 ^ 32) : x.toNat = m + k.toNat := by
  have hx := x.isLt
  have hk := k.isLt
  rw [BitVec.toInt_eq_toNat_cond, BitVec.toNat_sub] at h
  omega

theorem toNat_of_toInt {x : BitVec 32} {m : ℕ} (h : x.toInt = m) : x.toNat = m := by
  have hx := x.isLt
  rw [BitVec.toInt_eq_toNat_cond] at h
  omega

/-- A field of `struct rtc_time` as an `unsigned int`. -/
theorem toNat_ofInt {i : Int} {m : ℕ} (h : i = m) (hlt : m < 2 ^ 32) :
    (BitVec.ofInt 32 i).toNat = m := by
  rw [h, BitVec.ofInt_natCast, BitVec.toNat_ofNat, Nat.mod_eq_of_lt hlt]

theorem RtcTime.is_of_reads {c : RtcTime} {t : DateTime} (hyear : 70 ≤ c.toTm.tm_year)
    (h : c.toTm.Reads t) : c.Is t ∧ 1970 ≤ t.date.year := by
  have hmonth := t.date.month_lt
  have hyeq := h.year
  simp only [RtcTime.toTm] at hyear hyeq
  have hint := BitVec.toInt_lt (x := c.year - 1900)
  have hy : (c.year - 1900).toInt = (t.date.year - 1900 : ℕ) := by omega
  have hm : (c.month - 1).toInt = (t.date.month : ℕ) := h.month
  refine ⟨⟨?_, ?_, ?_, ?_, ?_, ?_⟩, by omega⟩
  · have := toNat_of_sub_toInt hy (by simp; omega)
    simp at this
    omega
  · exact toNat_of_sub_toInt hm (by simp; omega)
  · exact toNat_of_toInt h.day
  · exact toNat_of_toInt h.hour
  · exact toNat_of_toInt h.minute
  · exact toNat_of_toInt h.second

/-- **What setting a time stores**: an accepted record stands for a second
from 1970 on, and its number modulo `2 ^ 32` is stored. -/
theorem rtcdate2second_ok (hK : K.Documented) {c : RtcTime}
    (h : (rtcdate2second K c).1 = 0) :
    ∃ t, c.Is t ∧ 1970 ≤ t.date.year ∧
      (rtcdate2second K c).2 = BitVec.ofNat 32 (sinceEpoch t) := by
  unfold rtcdate2second at h ⊢
  split_ifs at h ⊢ with hw hv
  · exact absurd h (by decide)
  · obtain ⟨hyear, t, ht⟩ := (hK.valid c.toTm).mp hv
    obtain ⟨hc, h1970⟩ := RtcTime.is_of_reads hyear ht
    exact ⟨t, hc, h1970, by rw [hK.toTime hyear ht]⟩
  · exact absurd h (by decide)

/-- **What reading a register gives**: the second of that number, with the
weekday of its date. -/
theorem rtcSecond2Date_spec (hK : K.Documented) (n : BitVec 32) :
    ∃ t, (rtcSecond2Date K n).Is t ∧ 1970 ≤ t.date.year ∧ sinceEpoch t = n.toNat ∧
      (rtcSecond2Date K n).weekday.toNat = Calendar.weekday t.date.dayNumber := by
  obtain ⟨t, ht, h1970, hn, hw⟩ := hK.ofTime n
  have hyear : t.date.year < 2108 := year_lt_of_sinceEpoch (by rw [hn]; exact n.isLt)
  have hmonth := t.date.month_lt
  have hday := t.date.day_le_31
  have hy : (K.rtc_time_to_tm n).tm_year = (t.date.year - 1900 : ℕ) := by
    have := ht.year
    omega
  refine ⟨t, ⟨?_, ?_, ?_, ?_, ?_, ?_⟩, h1970, hn, ?_⟩ <;> simp only [rtcSecond2Date]
  · rw [BitVec.toNat_add, toNat_ofInt hy (by omega)]
    simp
    omega
  · rw [BitVec.toNat_add, toNat_ofInt ht.month (by omega)]
    simp
    omega
  · exact toNat_ofInt ht.day (by omega)
  · exact toNat_ofInt ht.hour (by have := t.hour_lt; omega)
  · exact toNat_ofInt ht.minute (by have := t.minute_lt; omega)
  · exact toNat_ofInt ht.second (by have := t.second_lt; omega)
  · exact toNat_ofInt hw (by unfold weekday; omega)

/-- **Reading back what was set**: an accepted time comes back exactly when
it is storable. -/
theorem rtcSecond2Date_stored_iff (hK : K.Documented) {c : RtcTime}
    (h : (rtcdate2second K c).1 = 0) :
    rtcSecond2Date K (rtcdate2second K c).2 = c ↔ c.Storable := by
  obtain ⟨t, hc, h1970, hset⟩ := rtcdate2second_ok hK h
  rw [hset, RtcTime.Storable, hc.secondsSince1970, hc.dayNumber]
  obtain ⟨u, hu, hu1970, hun, huw⟩ := rtcSecond2Date_spec hK (BitVec.ofNat 32 (sinceEpoch t))
  rw [BitVec.toNat_ofNat] at hun
  constructor
  · intro hback
    rw [hback] at hu huw
    -- the record stands for one second, whose number is then below `2 ^ 32`
    have htu : t = u := hc.unique hu
    subst htu
    exact ⟨hun ▸ Nat.mod_lt _ (by decide), huw⟩
  · rintro ⟨hlt, hw⟩
    rw [Nat.mod_eq_of_lt hlt] at hun
    have htu : u = t := sinceEpoch_inj hu1970 h1970 hun
    subst htu
    exact hu.eq_of_weekday hc (BitVec.eq_of_toNat_eq (huw.trans hw.symm))

/-! ## Between setting and reading -/

/-- Nothing that changes the counter: no second goes by and no time is set. -/
def Act.KeepsTime : Act → Prop
  | .request (.SET_TIME _) => False
  | .request _ => True
  | .tick => False

/-- No alarm is set. -/
def Act.KeepsAlarm : Act → Prop
  | .request (.ALM_SET _) => False
  | _ => True

theorem step_DR {s : Regs} {a : Act} (h : a.KeepsTime) : (step K s a).DR = s.DR := by
  cases a with
  | tick => exact h.elim
  | request cmd =>
    cases cmd with
    | SET_TIME arg => exact h.elim
    | ALM_SET arg =>
      cases arg with
      | none => rfl
      | some tm =>
        simp only [step, hi_rtc_ioctl, rtc_alarm_complex_set]
        split_ifs <;> rfl
    | _ => rfl

theorem step_MR {s : Regs} {a : Act} (h : a.KeepsAlarm) : (step K s a).MR = s.MR := by
  cases a with
  | tick => rfl
  | request cmd =>
    cases cmd with
    | ALM_SET arg => exact h.elim
    | SET_TIME arg =>
      cases arg with
      | none => rfl
      | some tm =>
        simp only [step, hi_rtc_ioctl, rtc_set]
        split_ifs <;> rfl
    | _ => rfl

theorem exec_DR {s : Regs} {as : List Act} (h : ∀ a ∈ as, a.KeepsTime) :
    (exec (step K) s as).DR = s.DR := by
  have halong : Along (step K) (fun _ a => a.KeepsTime) s as := along_iff_forall.mpr h
  exact (always_of_along (I := fun s' => s'.DR = s.DR)
    (fun _ _ hI hP => (step_DR hP).trans hI) rfl halong).last

theorem exec_MR {s : Regs} {as : List Act} (h : ∀ a ∈ as, a.KeepsAlarm) :
    (exec (step K) s as).MR = s.MR := by
  have halong : Along (step K) (fun _ a => a.KeepsAlarm) s as := along_iff_forall.mpr h
  exact (always_of_along (I := fun s' => s'.MR = s.MR)
    (fun _ _ hI hP => (step_MR hP).trans hI) rfl halong).last

/-- An accepted time is loaded into the counter. -/
theorem set_time_ok {tm : RtcTime} {s : Regs}
    (h : (hi_rtc_ioctl K (.SET_TIME (some tm)) s).1.ret = 0) :
    (rtcdate2second K tm).1 = 0 ∧
      (hi_rtc_ioctl K (.SET_TIME (some tm)) s).2.DR = (rtcdate2second K tm).2 := by
  simp only [hi_rtc_ioctl, rtc_set] at h ⊢
  split_ifs at h ⊢ with hne
  · exact absurd h hne
  · exact ⟨not_not.mp hne, rfl⟩

/-- An accepted alarm is stored in the alarm register. -/
theorem set_alarm_ok {tm : RtcTime} {s : Regs}
    (h : (hi_rtc_ioctl K (.ALM_SET (some tm)) s).1.ret = 0) :
    (rtcdate2second K tm).1 = 0 ∧
      (hi_rtc_ioctl K (.ALM_SET (some tm)) s).2.MR = (rtcdate2second K tm).2 := by
  simp only [hi_rtc_ioctl, rtc_alarm_complex_set] at h ⊢
  split_ifs at h ⊢ with hok hrange
  · exact absurd h (by simp [EINVAL])
  · exact ⟨hok, rfl⟩
  · exact absurd h (by simp [EINVAL])

/-- **Setting and reading back**: an accepted time is what `RD_TIME` copies out
while the counter stands, whatever else is requested, and an accepted alarm
is what `ALM_READ` copies out until the next alarm, exactly when it is
storable. -/
theorem readBack_iff (hK : K.Documented) (tm : RtcTime) (s : Regs) (as : List Act) :
    ((hi_rtc_ioctl K (.SET_TIME (some tm)) s).1.ret = 0 → (∀ a ∈ as, a.KeepsTime) →
      ((hi_rtc_ioctl K (.RD_TIME true)
          (exec (step K) s (.request (.SET_TIME (some tm)) :: as))).1 = ⟨0, some tm⟩ ↔
        tm.Storable)) ∧
    ((hi_rtc_ioctl K (.ALM_SET (some tm)) s).1.ret = 0 → (∀ a ∈ as, a.KeepsAlarm) →
      ((hi_rtc_ioctl K (.ALM_READ true)
          (exec (step K) s (.request (.ALM_SET (some tm)) :: as))).1 = ⟨0, some tm⟩ ↔
        tm.Storable)) := by
  constructor
  · intro hret has
    obtain ⟨hok, hDR⟩ := set_time_ok hret
    have hdr := (exec_DR (K := K) (s := step K s (.request (.SET_TIME (some tm)))) has).trans hDR
    rw [← rtcSecond2Date_stored_iff hK hok, ← hdr]
    simp [hi_rtc_ioctl, copyOut, rtc_get]
  · intro hret has
    obtain ⟨hok, hMR⟩ := set_alarm_ok hret
    have hmr := (exec_MR (K := K) (s := step K s (.request (.ALM_SET (some tm)))) has).trans hMR
    rw [← rtcSecond2Date_stored_iff hK hok, ← hmr]
    simp [hi_rtc_ioctl, copyOut, rtc_getalm]

/-- 29 February 2000, noon: a Tuesday. -/
def leapDay2000 : RtcTime := ⟨2000, 2, 29, 12, 0, 0, 2⟩

/-- One second after the last of the counter, a Sunday. -/
def pastCounter : RtcTime := ⟨2106, 2, 7, 6, 28, 16, 0⟩

/-- The leap day is read back, with requests and, for the alarm, a second in
between. -/
theorem readBack_iff_leapDay :
    (hi_rtc_ioctl calendarLib (.RD_TIME true)
      (exec (step calendarLib) ⟨0, 0, 0, 0, 0⟩
        [.request (.SET_TIME (some leapDay2000)), .request .AIE_ON])).1 =
        ⟨0, some leapDay2000⟩ ∧
      (hi_rtc_ioctl calendarLib (.ALM_READ true)
        (exec (step calendarLib) ⟨0, 0, 0, 0, 0⟩
          [.request (.ALM_SET (some leapDay2000)), .tick])).1 = ⟨0, some leapDay2000⟩ := by
  have h := readBack_iff calendarLib_documented leapDay2000 ⟨0, 0, 0, 0, 0⟩
  constructor
  · exact ((h [.request .AIE_ON]).1 (by decide) (by simp [Act.KeepsTime])).mpr (by decide)
  · exact ((h [.tick]).2 (by decide) (by simp [Act.KeepsAlarm])).mpr (by decide)

/-- The second after the counter's last one is accepted, and the beginning of
1970 is read back. -/
theorem readBack_broken :
    ¬ ∀ (K : RtcLib) (tm : RtcTime) (s : Regs), K.Documented →
      (hi_rtc_ioctl K (.SET_TIME (some tm)) s).1.ret = 0 →
      (hi_rtc_ioctl K (.RD_TIME true) (hi_rtc_ioctl K (.SET_TIME (some tm)) s).2).1 =
        ⟨0, some tm⟩ := by
  intro h
  exact absurd (h calendarLib pastCounter ⟨0, 0, 0, 0, 0⟩ calendarLib_documented (by decide))
    (by decide)

end ExtDrv.Rtc
