import ExtDrv.Wdt.HiWdt

/-!
# A watchdog that cannot be stopped

What `nowayout` is worth over whole runs of calls. The flag is a variable of
the driver, and every write that is not empty sets it anew: to one if a `V` is
among its bytes, to zero otherwise. Whoever writes anything else may stop the
watchdog.
-/

namespace ExtDrv.Wdt

open Run

/-- The watchdog counts, from a timeout that is not disabled. -/
def Running (s : Hidog) : Prop := s.regs.CTRL = 0x03 ∧ s.regs.LOAD ≠ ~~~0

instance (s : Hidog) : Decidable (Running s) := by
  unfold Running
  infer_instance

/-- A counter that runs runs from a margin, and no margin loads all ones. -/
theorem running_iff {s : Hidog} (h : Programmed s) : Running s ↔ s.regs.CTRL = 0x03 := by
  refine ⟨And.left, fun hc => ⟨hc, fun hones => ?_⟩⟩
  have hload := toNat_load h.cur_ok
  rw [← h.load hc, hones] at hload
  have hval : (~~~(0 : BitVec 32)).toNat = 4294967295 := by decide
  omega

/-- The call that stops the watchdog, and no other, clears the control
register of a watchdog that runs. -/
theorem call_ctrl {s : Hidog} (hc : s.regs.CTRL = 0x03) (c : Call) :
    (call s c).regs.CTRL = if stops s c then 0x00 else 0x03 := by
  generalize ht : call s c = t
  cases call_leaves ht with
  | same hstop =>
    rw [hstop]
    exact hc
  | opened hopen =>
    rw [hidogOpen, if_neg (by simp [hopen])]
    exact hc
  | wrote | margin => exact hc
  | @started new_options hen =>
    have hstop : stops s (.ioctl (.SETOPTIONS (some new_options))) = false := by simp [stops, hen]
    rw [hstop]
    rfl
  | stopped hstop =>
    rw [hstop]
    rfl
  | closed =>
    unfold hidogRelease
    split <;> exact hc

/-- **No way out**: loaded with `nowayout`, the watchdog runs in every state of
a run if and only if no call of the run stops it, that is, asks to disable the
card without asking to enable it while the last write has left `nowayout` at
zero. -/
theorem nowayout_iff (default_margin nodeamon : BitVec 32) (calls : List Call) :
    Always call Running (watchdogInit default_margin 1 nodeamon) calls
      ↔ Along call (fun s c => stops s c = false) (watchdogInit default_margin 1 nodeamon)
          calls := by
  have hinit := watchdogInit_programmed default_margin 1 nodeamon
  have hctrl : (watchdogInit default_margin 1 nodeamon).regs.CTRL = 0x03 := by
    unfold watchdogInit
    dsimp only
    split <;> rfl
  apply always_iff_along_of_inv (J := Programmed)
  · exact fun s c hj _ _ => call_programmed hj c
  · intro s c hj hrun
    rw [running_iff (call_programmed hj c), call_ctrl hrun.1]
    cases stops s c <;> simp
  · exact hinit
  · exact (running_iff hinit).mpr hctrl

/-- Open, write one byte that is not a `V`, disable the card. -/
def writeThenDisable : List Call :=
  [.openFile, .write [some 0x78], .ioctl (.SETOPTIONS (some WDIOS_DISABLECARD))]

/-- **One byte is enough**: the watchdog loaded with `nowayout` is stopped and
its timeout disabled. -/
theorem stopped_despite_nowayout :
    ¬ (∀ default_margin nodeamon calls,
        Always call Running (watchdogInit default_margin 1 nodeamon) calls)
      ∧ (exec call (watchdogInit 60 1 0) writeThenDisable).regs.CTRL = 0x00
      ∧ (exec call (watchdogInit 60 1 0) writeThenDisable).regs.LOAD = 0xFFFFFFFF := by
  refine ⟨fun h => ?_, by decide, by decide⟩
  have hrun := (h 60 0 writeThenDisable).last
  exact absurd hrun (by decide)

end ExtDrv.Wdt
