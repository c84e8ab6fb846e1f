import ExtDrv.Irda.Hiir
import ExtDrv.Lib.Run
import ExtDrv.Lib.Table
import Mathlib.Algebra.Order.BigOperators.Group.Finset

/-!
# One opener at a time

`hiir_open` takes `hiir_s_available` down with one atomic operation and, when it
is refused, puts it back with another; `hiir_release` puts it back at its end.
Here the two are cut into these atomic steps and any number of callers run them
in any order. What lies between two operations on the counter is one step: it
never looks at the counter.
-/

namespace ExtDrv.Irda

open Run

/-! ## The steps -/

/-- `atomic_dec_and_test(&hiir_s_available)`. -/
def atomicDecAndTest (s : Hiir) : Bool × Hiir :=
  (s.hiir_s_available - 1 = 0, { s with hiir_s_available := s.hiir_s_available - 1 })

/-- `atomic_inc(&hiir_s_available)`. -/
def atomicInc (s : Hiir) : Hiir := { s with hiir_s_available := s.hiir_s_available + 1 }

/-- `hiir_open` once it is let in. -/
def openBody (s : Hiir) : Hiir :=
  hiirConfig
    { s with
      timer := false
      hiir_dev := { s.hiir_dev with
        dev_parm := staticDevParam0
        head := 0
        tail := 0
        buf_len := DEFAULT_BUF_LEN
        enable_repkey := 1
        repkey_checkflag := 0
        repkey_delaytime := DEFAULT_DELAYTIME
        enable_keyup := 1 } }

/-- `hiir_release` before its `atomic_inc`. -/
def releaseBody (s : Hiir) : Hiir :=
  { s with timer := false, regs := { s.regs with IR_ENABLE := 0x00 } }

/-- With nobody in between, the steps of an open are the call. -/
theorem hiirOpen_eq_steps (s : Hiir) :
    hiirOpen s = match atomicDecAndTest s with
      | (true, s) => (0, openBody s)
      | (false, s) => (-EBUSY, atomicInc s) := by
  unfold hiirOpen atomicDecAndTest
  by_cases h : s.hiir_s_available - 1 = 0
  · rw [if_neg (not_not_intro h), decide_eq_true h]
    rfl
  · rw [if_pos h, decide_eq_false h]
    simp [atomicInc]

theorem hiirRelease_eq_steps (s : Hiir) : hiirRelease s = atomicInc (releaseBody s) := rfl

@[simp] theorem openBody_available (s : Hiir) :
    (openBody s).hiir_s_available = s.hiir_s_available := rfl

@[simp] theorem releaseBody_available (s : Hiir) :
    (releaseBody s).hiir_s_available = s.hiir_s_available := rfl

/-! ## The callers -/

/-- Where a caller stands: out of the driver; let in, or refused, by the
decrement of its open; with the file open; or in `hiir_release`. -/
inductive OpenPc where
  | idle
  | letIn
  | refused
  | holding
  | closing
  deriving DecidableEq, Repr

/-- The device is this caller's, from the decrement that let it in to the end of
its release. -/
def OpenPc.Owns (p : OpenPc) : Prop := p = .letIn ∨ p = .holding ∨ p = .closing

/-- The device, and where each caller stands. -/
structure Openers (ι : Type*) where
  dev : Hiir
  pc : ι → OpenPc

/-- The next atomic step of a caller. Only a caller that is out of the driver
opens, and only one that has the file open releases it. -/
inductive OpenStep (ι : Type*) where
  | decAndTest (i : ι)
  | giveBack (i : ι)
  | setUp (i : ι)
  | shut (i : ι)
  | putBack (i : ι)

section

variable {ι : Type*} [DecidableEq ι]

def Openers.goto (s : Openers ι) (i : ι) (p : OpenPc) (dev : Hiir) : Openers ι :=
  { dev := dev, pc := Function.update s.pc i p }

/-- One step of one caller; a step the caller does not stand at does nothing. -/
def openStep (s : Openers ι) : OpenStep ι → Openers ι
  | .decAndTest i =>
      if s.pc i = .idle then
        s.goto i (if (atomicDecAndTest s.dev).1 then .letIn else .refused)
          (atomicDecAndTest s.dev).2
      else s
  | .giveBack i => if s.pc i = .refused then s.goto i .idle (atomicInc s.dev) else s
  | .setUp i => if s.pc i = .letIn then s.goto i .holding (openBody s.dev) else s
  | .shut i => if s.pc i = .holding then s.goto i .closing (releaseBody s.dev) else s
  | .putBack i => if s.pc i = .closing then s.goto i .idle (atomicInc s.dev) else s

/-! ## The invariant -/

/-- One for a caller that has taken the counter down and not yet put it back. -/
def OpenPc.debt (p : OpenPc) : Int := if p = .idle then 0 else 1

variable [Fintype ι]

/-- Every caller inside the driver has taken one off the counter, also while it
is being refused, and at most one of them owns the device. -/
structure Guarded (s : Openers ι) : Prop where
  available : s.dev.hiir_s_available = 1 - ∑ i, (s.pc i).debt
  one : ∀ i j, (s.pc i).Owns → (s.pc j).Owns → i = j

theorem OpenPc.debt_nonneg (p : OpenPc) : 0 ≤ p.debt := by
  unfold OpenPc.debt
  split_ifs <;> omega

/-- A caller that goes from `p` to `q` changes what the callers owe by the
difference. -/
theorem Openers.debt_goto (s : Openers ι) (i : ι) (q : OpenPc) (dev : Hiir) :
    ∑ j, ((s.goto i q dev).pc j).debt = ∑ j, (s.pc j).debt + q.debt - (s.pc i).debt := by
  have h := Table.sum_update OpenPc.debt s.pc i q
  exact eq_sub_of_add_eq h

omit [DecidableEq ι] in
/-- The counter stands at one only when nobody is inside. -/
theorem Guarded.idle_of_available {s : Openers ι} (h : Guarded s)
    (hone : s.dev.hiir_s_available = 1) (i : ι) : s.pc i = .idle := by
  have hsum : ∑ i, (s.pc i).debt = 0 := by
    have := h.available
    omega
  have hi := (Finset.sum_eq_zero_iff_of_nonneg fun j _ => (s.pc j).debt_nonneg).mp hsum i
    (Finset.mem_univ i)
  by_contra hne
  simp [OpenPc.debt, hne] at hi

/-- A caller that settles with the counter what it owes, and does not become an
owner, keeps the guard. -/
theorem Guarded.goto {s : Openers ι} (h : Guarded s) {i : ι} {q : OpenPc} {dev : Hiir}
    (hdev : dev.hiir_s_available + q.debt = s.dev.hiir_s_available + (s.pc i).debt)
    (hq : q.Owns → (s.pc i).Owns) : Guarded (s.goto i q dev) := by
  have hold : ∀ j, ((s.goto i q dev).pc j).Owns → (s.pc j).Owns := by
    intro j hj
    by_cases hji : j = i
    · subst hji
      exact hq (by simpa [Openers.goto] using hj)
    · simpa [Openers.goto, Function.update_of_ne hji] using hj
  refine ⟨?_, fun j k hj hk => h.one j k (hold j hj) (hold k hk)⟩
  have havail := h.available
  rw [s.debt_goto]
  show dev.hiir_s_available = _
  omega

/-- The caller the counter lets in finds nobody else inside. -/
theorem Guarded.letIn {s : Openers ι} (h : Guarded s) {i : ι}
    (htest : (atomicDecAndTest s.dev).1 = true) :
    Guarded (s.goto i .letIn (atomicDecAndTest s.dev).2) := by
  have hone : s.dev.hiir_s_available = 1 := by
    have hzero : s.dev.hiir_s_available - 1 = 0 := of_decide_eq_true htest
    omega
  have hidle := h.idle_of_available hone
  have honly : ∀ j, ((s.goto i .letIn (atomicDecAndTest s.dev).2).pc j).Owns → j = i := by
    intro j hj
    by_contra hji
    simp [Openers.goto, Function.update_of_ne hji, hidle j, OpenPc.Owns] at hj
  refine ⟨?_, fun j k hj hk => (honly j hj).trans (honly k hk).symm⟩
  have havail := h.available
  rw [s.debt_goto, hidle i]
  show s.dev.hiir_s_available - 1 = 1 - (∑ j, (s.pc j).debt + 1 - 0)
  omega

/-- **One step** of one caller keeps the guard. -/
theorem Guarded.step {s : Openers ι} (h : Guarded s) (a : OpenStep ι) : Guarded (openStep s a) := by
  cases a with
  | decAndTest i =>
    by_cases hpc : s.pc i = .idle
    case neg => simpa only [openStep, if_neg hpc] using h
    simp only [openStep, if_pos hpc]
    by_cases htest : (atomicDecAndTest s.dev).1 = true
    · rw [if_pos htest]
      exact h.letIn htest
    · rw [if_neg htest]
      exact h.goto (by simp [hpc, OpenPc.debt, atomicDecAndTest]) (by simp [OpenPc.Owns])
  | giveBack i =>
    by_cases hpc : s.pc i = .refused
    · simp only [openStep, if_pos hpc]
      exact h.goto (by simp [hpc, OpenPc.debt, atomicInc]) (by simp [OpenPc.Owns])
    · simpa only [openStep, if_neg hpc] using h
  | setUp i =>
    by_cases hpc : s.pc i = .letIn
    · simp only [openStep, if_pos hpc]
      exact h.goto (by simp [hpc, OpenPc.debt]) (by simp [OpenPc.Owns, hpc])
    · simpa only [openStep, if_neg hpc] using h
  | shut i =>
    by_cases hpc : s.pc i = .holding
    · simp only [openStep, if_pos hpc]
      exact h.goto (by simp [hpc, OpenPc.debt]) (by simp [OpenPc.Owns, hpc])
    · simpa only [openStep, if_neg hpc] using h
  | putBack i =>
    by_cases hpc : s.pc i = .closing
    · simp only [openStep, if_pos hpc]
      exact h.goto (by simp [hpc, OpenPc.debt, atomicInc]) (by simp [OpenPc.Owns])
    · simpa only [openStep, if_neg hpc] using h

/-! ## Exclusivity -/

/-- At most one caller has the device; when nobody is in the driver, the next open
to reach the counter is let in, and a whole open succeeds; and the counter stays
between one and one less than the callers, so that it never wraps. -/
structure Exclusive (s : Openers ι) : Prop where
  one : ∀ i j, (s.pc i).Owns → (s.pc j).Owns → i = j
  next : (∀ i, s.pc i = .idle) →
    (∀ i, (openStep s (.decAndTest i)).pc i = .letIn) ∧ (hiirOpen s.dev).1 = 0
  bounded : 1 - (Fintype.card ι : Int) ≤ s.dev.hiir_s_available ∧ s.dev.hiir_s_available ≤ 1

theorem Guarded.exclusive {s : Openers ι} (h : Guarded s) : Exclusive s := by
  refine ⟨h.one, fun hidle => ?_, ?_, ?_⟩
  · have hone : s.dev.hiir_s_available = 1 := by
      rw [h.available]
      simp [hidle, OpenPc.debt]
    constructor
    · intro i
      simp [openStep, hidle i, Openers.goto, atomicDecAndTest, hone]
    · simp [hiirOpen, hone]
  · have hle : ∑ i, (s.pc i).debt ≤ ∑ _i : ι, (1 : Int) :=
      Finset.sum_le_sum fun i _ => by unfold OpenPc.debt; split_ifs <;> omega
    have havail := h.available
    simp only [Finset.sum_const, Finset.card_univ, nsmul_eq_mul, mul_one] at hle
    omega
  · have hnonneg : 0 ≤ ∑ i, (s.pc i).debt := Finset.sum_nonneg fun i _ => (s.pc i).debt_nonneg
    have havail := h.available
    omega

/-- The callers, all out of the driver, after the module is loaded:
`ATOMIC_INIT(1)`. -/
def Openers.init (dev : Hiir) : Openers ι :=
  { dev := { dev with hiir_s_available := 1 }, pc := fun _ => .idle }

omit [DecidableEq ι] in
theorem Guarded.init (dev : Hiir) : Guarded (Openers.init dev : Openers ι) :=
  ⟨by simp [Openers.init, OpenPc.debt], fun i j hi _ => by simp [Openers.init, OpenPc.Owns] at hi⟩

/-- **Exclusivity**: whatever the order in which any number of callers take their
steps, at every moment at most one has the device, and with nobody inside the
next open succeeds. -/
theorem exclusive_run (dev : Hiir) (steps : List (OpenStep ι)) :
    Always openStep Exclusive (Openers.init dev) steps :=
  (always_of_step (I := Guarded) (fun _ a h => h.step a) steps (Guarded.init dev)).mono
    fun _ h => h.exclusive

end

end ExtDrv.Irda
