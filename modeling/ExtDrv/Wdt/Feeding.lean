import ExtDrv.Wdt.HiWdt
import Mathlib.Tactic.Linarith

/-!
# Is the daemon fast enough

The kernel daemon sleeps for half the default margin, the hardware is
programmed with the current one, and nothing brings the two together again
when a user who changed the margin closes the file.
-/

namespace ExtDrv.Wdt

open Run

/-! ## Time -/

/-- The clocks around the driver: the kernel's tick rate, of which the kernel
accepts none below 12, and how many times the counter must run out before the
board is reset. -/
structure Clock where
  hz : Nat
  countdowns : Nat
  hz_le : 12 ≤ hz
  countdowns_pos : 0 < countdowns

/-- `msecs_to_jiffies`: milliseconds in ticks, rounded up. -/
def msecsToJiffies (hz m : Nat) : Nat := (m * hz + 999) / 1000

/-- The ticks `hidog_deamon` sleeps between two feeds. -/
def daemonPeriod (k : Clock) (s : Hidog) : Nat :=
  msecsToJiffies k.hz ((s.default_margin * 1000#32).sdiv 2#32).toNat + 1

/-- `hidog_deamon` is there, and it is the one that feeds. -/
def DaemonFeeds (s : Hidog) : Prop := s.nodeamon = 0 ∧ s.hidog_state = .SELFCLR

/-- The daemon's period, `daemonPeriod / hz` seconds, is less than the time to
the reset, `countdowns * LOAD / rate` seconds. -/
def FastEnough (k : Clock) (s : Hidog) : Prop :=
  daemonPeriod k s * rate < k.countdowns * s.regs.LOAD.toNat * k.hz

/-- **Self-feeding**: a watchdog that runs and is fed by the daemon is fed in
time. -/
def SelfFed (k : Clock) (s : Hidog) : Prop :=
  s.regs.CTRL = 0x03 → DaemonFeeds s → FastEnough k s

/-- A close that hands a running watchdog back to the daemon finds a margin
above half the default one, over all countdowns. -/
def ClosesInTime (k : Clock) (s : Hidog) : Call → Prop
  | .close =>
      s.driver_open = true → s.nowayout = 0#32 → s.regs.CTRL = 0x03 → s.nodeamon = 0 →
        s.default_margin.toNat < 2 * k.countdowns * s.cur_margin.toNat
  | _ => True

/-- In milliseconds, half of a margin in range is five hundred times it. -/
theorem half_margin {t : BitVec 32} (h : MarginOk t) :
    ((t * 1000#32).sdiv 2#32).toNat = t.toNat * 500 := by
  rcases h with ⟨-, hle⟩
  rw [maxMargin_eq] at hle
  have hmul : (t * 1000#32).toNat = t.toNat * 1000 := by
    rw [BitVec.toNat_mul]
    apply Nat.mod_eq_of_lt
    show t.toNat * 1000 < 2 ^ 32
    omega
  have hpos : (t * 1000#32).msb = false := by
    rw [BitVec.msb_eq_decide, hmul]
    simp
    omega
  rw [BitVec.sdiv_eq, hpos, show (2#32).msb = false from rfl]
  dsimp only
  rw [BitVec.udiv_eq, BitVec.toNat_udiv, hmul]
  show t.toNat * 1000 / 2 = t.toNat * 500
  omega

/-- With a tick of at least 12 a second, half a margin and the extra tick fit
into `n` margins `c` exactly when half the margin does. -/
theorem ticks_lt_iff {hz n d c : Nat} (hhz : 12 ≤ hz) :
    msecsToJiffies hz (d * 500) + 1 < n * c * hz ↔ d < 2 * n * c := by
  have hticks : d * 500 * hz = d * hz * 500 := Nat.mul_right_comm d 500 hz
  have hsum : 2 * n * c * hz = 2 * (n * c * hz) := by
    rw [Nat.mul_assoc 2 n c, Nat.mul_assoc 2]
  rw [msecsToJiffies, hticks]
  constructor
  · intro hlt
    by_contra hge
    -- half a margin too many is `hz / 2` ticks, beyond what rounding can hide
    have hmul : 2 * n * c * hz ≤ d * hz := Nat.mul_le_mul_right hz (Nat.not_lt.mp hge)
    omega
  · intro hlt
    have hmul : (d + 1) * hz ≤ 2 * n * c * hz := Nat.mul_le_mul_right hz hlt
    rw [Nat.add_mul, Nat.one_mul] at hmul
    omega

/-- **The margins decide**: a running watchdog is fed in time by the daemon
exactly when the default margin is below twice the current one, over all
countdowns. -/
theorem fastEnough_iff (k : Clock) {s : Hidog} (h : Programmed s) (hc : s.regs.CTRL = 0x03) :
    FastEnough k s ↔ s.default_margin.toNat < 2 * k.countdowns * s.cur_margin.toNat := by
  have hload : k.countdowns * (s.cur_margin.toNat * 3000000) * k.hz
      = k.countdowns * s.cur_margin.toNat * k.hz * rate := by
    rw [← Nat.mul_assoc, Nat.mul_right_comm _ 3000000 k.hz]
    rfl
  rw [FastEnough, h.load hc, toNat_load h.cur_ok, hload,
    Nat.mul_lt_mul_right (by decide : 0 < rate), daemonPeriod, half_margin h.default_ok]
  exact ticks_lt_iff k.hz_le

/-! ## Whole runs -/

/-- The daemon feeds only while no file is open. -/
def Handed (s : Hidog) : Prop := s.hidog_state = .SELFCLR → s.driver_open = false

/-- Writes and ioctls hand nothing over. -/
theorem call_state {s : Hidog} {c : Call} (hopen : c ≠ .openFile) (hclose : c ≠ .close) :
    (call s c).hidog_state = s.hidog_state ∧ (call s c).driver_open = s.driver_open := by
  generalize ht : call s c = t
  cases call_leaves ht with
  | opened => exact absurd rfl hopen
  | closed => exact absurd rfl hclose
  | same | wrote | margin | started | stopped => exact ⟨rfl, rfl⟩

theorem Handed.of_state {s t : Hidog} (h : Handed s)
    (ht : t.hidog_state = s.hidog_state ∧ t.driver_open = s.driver_open) : Handed t := by
  intro hst
  rw [ht.1] at hst
  rw [ht.2]
  exact h hst

theorem call_handed {s : Hidog} (h : Handed s) (c : Call) : Handed (call s c) := by
  generalize ht : call s c = t
  cases call_leaves ht with
  | opened hopen =>
    -- the user feeds from here on
    rw [hidogOpen, if_neg (by simp [hopen])]
    exact fun hst => absurd hst (by simp)
  | closed =>
    unfold hidogRelease
    split <;> exact fun _ => rfl
  | same | wrote | margin | started | stopped => exact h.of_state ⟨rfl, rfl⟩

/-- A close with `nowayout` at zero hands the watchdog to the daemon, with the
margin it has. -/
theorem close_hands {s : Hidog} (h : Programmed s) (hopen : s.driver_open = true)
    (hno : s.nowayout = 0#32) :
    (call s .close).hidog_state = .SELFCLR ∧ (call s .close).regs.CTRL = s.regs.CTRL
      ∧ (call s .close).nodeamon = s.nodeamon ∧ (call s .close).default_margin = s.default_margin
      ∧ (call s .close).cur_margin = s.cur_margin := by
  rw [call, if_pos hopen, hidogRelease, if_pos hno, hidogSetHeartbeat_snd]
  exact ⟨rfl, rfl, rfl, rfl, congrArg Prod.fst (clampMargin_of_ok h.cur_ok)⟩

/-- Writes and ioctls find the user feeding, or no file to go to. -/
theorem SelfFed.of_user {k : Clock} {s : Hidog} (hs : SelfFed k s) (hh : Handed s) {c : Call}
    (hopen : c ≠ .openFile) (hclose : c ≠ .close) : SelfFed k (call s c) := by
  by_cases ho : s.driver_open = true
  · intro _ hd
    rw [DaemonFeeds, (call_state hopen hclose).1] at hd
    exact absurd (hh hd.2) (by simp [ho])
  · have hsame : call s c = s := by
      cases c with
      | openFile => exact absurd rfl hopen
      | write | ioctl | close => exact if_neg ho
    rw [hsame]
    exact hs

/-- **One call** keeps the daemon fast enough exactly when a close among them
closes in time. -/
theorem call_selfFed_iff (k : Clock) {s : Hidog} (hp : Programmed s) (hh : Handed s)
    (hs : SelfFed k s) (c : Call) : SelfFed k (call s c) ↔ ClosesInTime k s c := by
  -- where a file is open the user feeds
  have huser : s.driver_open = true → s.hidog_state ≠ .SELFCLR := fun hopen hst => by
    rw [hh hst] at hopen
    exact Bool.false_ne_true hopen
  cases c with
  | openFile =>
    refine iff_of_true ?_ trivial
    simp only [call, hidogOpen]
    split
    · exact hs
    · exact fun _ hd => absurd hd.2 (by simp)
  | write data =>
    exact iff_of_true (hs.of_user hh (by simp) (by simp)) trivial
  | ioctl cmd =>
    exact iff_of_true (hs.of_user hh (by simp) (by simp)) trivial
  | close =>
    by_cases hopen : s.driver_open = true
    case neg =>
      have hsame : call s .close = s := if_neg hopen
      rw [hsame]
      exact iff_of_true hs fun hc => absurd hc hopen
    by_cases hno : s.nowayout = 0#32
    case neg =>
      have hst : (call s .close).hidog_state = s.hidog_state := by
        rw [call, if_pos hopen, hidogRelease, if_neg hno]
      exact iff_of_true (fun _ hd => absurd (hst ▸ hd.2) (huser hopen)) fun _ hc => absurd hc hno
    obtain ⟨hst, hctrl, hdeamon, hdm, hcm⟩ := close_hands hp hopen hno
    have hp' := call_programmed hp .close
    constructor
    · intro hfed _ _ hc hd
      have hfast := hfed (hctrl.trans hc) ⟨hdeamon.trans hd, hst⟩
      rwa [fastEnough_iff k hp' (hctrl.trans hc), hdm, hcm] at hfast
    · intro hin hc hd
      rw [fastEnough_iff k hp' hc, hdm, hcm]
      exact hin hopen hno (hctrl ▸ hc) (hdeamon ▸ hd.1)

/-- The module loads with the two margins equal. -/
theorem watchdogInit_margins (default_margin nowayout nodeamon : BitVec 32) :
    (watchdogInit default_margin nowayout nodeamon).cur_margin
      = (watchdogInit default_margin nowayout nodeamon).default_margin := by
  unfold watchdogInit
  dsimp only
  split
  · rfl
  · rename_i hret
    have hok : MarginOk default_margin := by
      by_contra hno
      exact hret (clampMargin_snd hno)
    have hclamp : clampMargin default_margin default_margin = (default_margin, 0) :=
      clampMargin_of_ok hok
    exact congrArg Prod.fst hclamp

/-- **Fast enough, always**: whatever the parameters, the daemon feeds a
running watchdog in time in every state of a run if and only if every close
that hands it a running watchdog closes in time. -/
theorem self_fed_iff (k : Clock) (default_margin nowayout nodeamon : BitVec 32)
    (calls : List Call) :
    Always call (SelfFed k) (watchdogInit default_margin nowayout nodeamon) calls
      ↔ Along call (ClosesInTime k) (watchdogInit default_margin nowayout nodeamon) calls := by
  have hinit := watchdogInit_programmed default_margin nowayout nodeamon
  apply always_iff_along_of_inv (J := fun s => Programmed s ∧ Handed s)
  · exact fun s c hj _ _ => ⟨call_programmed hj.1 c, call_handed hj.2 c⟩
  · exact fun s c hj hs => call_selfFed_iff k hj.1 hj.2 hs c
  · refine ⟨hinit, fun _ => ?_⟩
    unfold watchdogInit
    dsimp only
    split <;> rfl
  · intro hc _
    rw [fastEnough_iff k hinit hc, watchdogInit_margins]
    have hpos : 0 < k.countdowns := k.countdowns_pos
    have hdm := hinit.default_ok.1
    nlinarith

/-- A hundred ticks a second and a reset when the counter runs out a second
time. -/
def usualClock : Clock := ⟨100, 2, by decide, by decide⟩

/-- A user opens the watchdog, sets a timeout of one second and closes it. -/
def oneSecond : List Call := [.openFile, .ioctl (.SETTIMEOUT (some 1)), .close]

/-- **Thirty seconds of sleep, two to the reset**: the daemon of a default
margin of 60 feeds a watchdog programmed for one second. -/
theorem fed_too_late :
    ¬ (∀ k default_margin nowayout nodeamon calls,
        Always call (SelfFed k) (watchdogInit default_margin nowayout nodeamon) calls)
      ∧ (exec call (watchdogInit 60 0 0) oneSecond).regs.LOAD = 3000000#32
      ∧ daemonPeriod usualClock (exec call (watchdogInit 60 0 0) oneSecond) = 3001 := by
  refine ⟨fun h => ?_, by decide, by decide⟩
  have hin := (self_fed_iff usualClock 60 0 0 oneSecond).mp (h usualClock 60 0 0 oneSecond)
  have hclose := hin.2.2.1 (by decide) (by decide) (by decide) (by decide)
  exact absurd hclose (by decide)

end ExtDrv.Wdt
