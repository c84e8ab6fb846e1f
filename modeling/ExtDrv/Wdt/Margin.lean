import ExtDrv.Wdt.HiWdt

/-!
# The margin and the load register

The arithmetic of the timeout over whole runs: the margin stays in the range
whose product with the clock rate fits the register, and a running watchdog
is loaded with that product. What a margin out of range does is told apart as
the driver tells it apart: zero keeps the margin there is, any other is
replaced by the largest one, and both are reported as errors.
-/

namespace ExtDrv.Wdt

open Run

/-! ## What is asked of a state, and of a timeout that is set -/

/-- The margin is in range and a running watchdog is loaded with the whole
product. -/
structure MarginInOrder (s : Hidog) : Prop where
  pos : 1 ≤ s.cur_margin.toNat
  le : s.cur_margin.toNat ≤ (2 ^ 32 - 1) / rate
  load : s.regs.CTRL = 0x03 → s.regs.LOAD.toNat = s.cur_margin.toNat * rate

/-- A margin in range, as the `int` it is passed as. -/
def InRange (t : BitVec 32) : Prop := 1 ≤ t.toInt ∧ t.toInt ≤ ((2 ^ 32 - 1) / rate : Nat)

instance (t : BitVec 32) : Decidable (InRange t) := inferInstanceAs (Decidable (_ ∧ _))

/-- What setting the timeout `t` does: it is accepted exactly in range, zero
is rejected and keeps the margin, and any other value is rejected and replaced by
the largest one. Either way the margin there is then is loaded. -/
structure Settles (s : Hidog) (t : BitVec 32) : Prop where
  accepted : (hidogIoctl (.SETTIMEOUT (some t)) s).1 = 0 ↔ InRange t
  rejected : (hidogIoctl (.SETTIMEOUT (some t)) s).1 ≠ 0 →
    (hidogIoctl (.SETTIMEOUT (some t)) s).1 = -EINVAL
  taken : InRange t → (hidogIoctl (.SETTIMEOUT (some t)) s).2.cur_margin = t
  kept : t = 0 → (hidogIoctl (.SETTIMEOUT (some t)) s).2.cur_margin = s.cur_margin
  keptLoad : t = 0 → s.regs.CTRL = 0x03 →
    (hidogIoctl (.SETTIMEOUT (some t)) s).2.regs.LOAD = s.regs.LOAD
  replaced : t ≠ 0 → ¬ InRange t →
    (hidogIoctl (.SETTIMEOUT (some t)) s).2.cur_margin = BitVec.ofNat 32 ((2 ^ 32 - 1) / rate)
  loaded : (hidogIoctl (.SETTIMEOUT (some t)) s).2.regs.LOAD.toNat
    = (hidogIoctl (.SETTIMEOUT (some t)) s).2.cur_margin.toNat * rate

/-- Every timeout a call sets is settled so. -/
def CallSettles (s : Hidog) : Call → Prop
  | .ioctl (.SETTIMEOUT (some t)) => Settles s t
  | _ => True

/-! ## One timeout -/

/-- The comparison of the source is unsigned, the range one of an `int`. -/
theorem marginOk_iff {t : BitVec 32} : MarginOk t ↔ InRange t := by
  have ht := t.isLt
  have hmax : (2 ^ 32 - 1) / rate = 1431 := by decide
  rw [MarginOk, InRange, maxMargin_eq, hmax, BitVec.toInt_eq_toNat_cond]
  omega

theorem clampMargin_zero (cur_margin : BitVec 32) : clampMargin 0 cur_margin = (cur_margin, 1) :=
  rfl

/-- A margin above the largest, negative ones included. -/
theorem clampMargin_of_gt {t cur_margin : BitVec 32} (hne : t ≠ 0) (h : ¬ MarginOk t) :
    clampMargin t cur_margin = (BitVec.ofNat 32 maxMargin, -1) := by
  have hpos : t.toNat ≠ 0 := fun hzero => hne (BitVec.eq_of_toNat_eq hzero)
  have hgt : maxMargin < t.toNat := by
    unfold MarginOk at h
    omega
  rw [clampMargin, if_neg hne, if_pos hgt]

theorem settimeout_ret (s : Hidog) (t : BitVec 32) :
    (hidogIoctl (.SETTIMEOUT (some t)) s).1
      = if (clampMargin t s.cur_margin).2 ≠ 0 then -EINVAL else 0 := by
  simp only [hidogIoctl, hidogSetHeartbeat]
  exact apply_ite Prod.fst _ _ _

theorem settimeout_state (s : Hidog) (t : BitVec 32) :
    (hidogIoctl (.SETTIMEOUT (some t)) s).2 = (hidogSetHeartbeat t s).2 := by
  simp only [hidogIoctl]
  split <;> rfl

theorem Programmed.inOrder {s : Hidog} (h : Programmed s) : MarginInOrder s := by
  refine ⟨h.cur_ok.1, h.cur_ok.2, fun hrun => ?_⟩
  rw [h.load hrun, toNat_load h.cur_ok]
  rfl

theorem Programmed.settles {s : Hidog} (h : Programmed s) (t : BitVec 32) : Settles s t := by
  have hok : MarginOk (clampMargin t s.cur_margin).1 := clampMargin_ok h.cur_ok
  have hcur : (hidogSetHeartbeat t s).2.cur_margin = (clampMargin t s.cur_margin).1 := rfl
  have hload : (hidogSetHeartbeat t s).2.regs.LOAD
      = (clampMargin t s.cur_margin).1 * BitVec.ofNat 32 rate := loadCount_of_ok hok
  constructor
  case accepted =>
    rw [settimeout_ret, ← marginOk_iff]
    constructor
    · intro hret
      by_contra hno
      rw [if_pos (clampMargin_snd hno)] at hret
      exact absurd hret (by decide)
    · intro hin
      rw [clampMargin_of_ok hin]
      rfl
  case rejected =>
    rw [settimeout_ret]
    intro hret
    split at hret
    · rw [if_pos ‹_›]
    · exact absurd rfl hret
  case taken =>
    intro hin
    rw [settimeout_state, hcur, clampMargin_of_ok (marginOk_iff.mpr hin)]
  case kept =>
    rintro rfl
    rw [settimeout_state, hcur, clampMargin_zero]
  case keptLoad =>
    rintro rfl hrun
    rw [settimeout_state, hload, clampMargin_zero, h.load hrun]
  case replaced =>
    intro hne hout
    rw [settimeout_state, hcur, clampMargin_of_gt hne (mt marginOk_iff.mp hout)]
    rfl
  case loaded =>
    rw [settimeout_state, hload, hcur, toNat_load hok]
    rfl

/-! ## Whole runs -/

/-- The load of the module takes a default margin in range as it is, and
resets any other to 60 seconds. -/
theorem watchdogInit_margin (default_margin nowayout nodeamon : BitVec 32) :
    (watchdogInit default_margin nowayout nodeamon).cur_margin
      = if InRange default_margin then default_margin else HIDOG_TIMER_MARGIN := by
  unfold watchdogInit
  dsimp only
  split
  · rename_i hret
    have hno : ¬ InRange default_margin := by
      intro hin
      apply hret
      exact congrArg Prod.snd (clampMargin_of_ok (marginOk_iff.mpr hin))
    rw [if_neg hno]
    rfl
  · rename_i hret
    have hok : MarginOk default_margin := by
      by_contra hno
      exact hret (clampMargin_snd hno)
    rw [if_pos (marginOk_iff.mp hok)]
    exact congrArg Prod.fst (clampMargin_of_ok hok)

/-- **The timeout arithmetic**: from the load of the module on, whatever its
parameters and whatever the calls, the margin and the load register are in
order, and every timeout set is settled. -/
theorem margin_run (default_margin nowayout nodeamon : BitVec 32) (calls : List Call) :
    ((watchdogInit default_margin nowayout nodeamon).cur_margin
        = if InRange default_margin then default_margin else HIDOG_TIMER_MARGIN)
      ∧ Always call MarginInOrder (watchdogInit default_margin nowayout nodeamon) calls
      ∧ Along call CallSettles (watchdogInit default_margin nowayout nodeamon) calls := by
  have halways : Always call Programmed (watchdogInit default_margin nowayout nodeamon) calls :=
    always_of_step (fun _ c h => call_programmed h c) calls
      (watchdogInit_programmed default_margin nowayout nodeamon)
  refine ⟨watchdogInit_margin default_margin nowayout nodeamon, ?_, ?_⟩
  · exact halways.mono fun _ h => h.inOrder
  · apply along_of_always _ halways
    intro s c h
    unfold CallSettles
    split
    · exact h.settles _
    · trivial

/-- A timeout of 2000 seconds is rejected, and the margin and the load
register are no longer those of 60 seconds. -/
theorem rejected_margin_changes :
    ¬ ∀ (default_margin nowayout nodeamon t : BitVec 32) (calls : List Call),
        (hidogIoctl (.SETTIMEOUT (some t))
            (exec call (watchdogInit default_margin nowayout nodeamon) calls)).1 ≠ 0 →
          (call (exec call (watchdogInit default_margin nowayout nodeamon) calls)
              (.ioctl (.SETTIMEOUT (some t)))).cur_margin
            = (exec call (watchdogInit default_margin nowayout nodeamon) calls).cur_margin
          ∧ (call (exec call (watchdogInit default_margin nowayout nodeamon) calls)
              (.ioctl (.SETTIMEOUT (some t)))).regs.LOAD
            = (exec call (watchdogInit default_margin nowayout nodeamon) calls).regs.LOAD := by
  intro h
  exact absurd (h 60 0 0 2000 [.openFile] (by decide)).1 (by decide)

end ExtDrv.Wdt
