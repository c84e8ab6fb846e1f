import ExtDrv.Ov7725.Output

/-!
# The picture adjustments (`ov7725.c`)

Brightness, contrast, saturation and hue: each routine enables its adjustment
in `SDE` and writes value registers of its own. The value registers keep what
they were given last, whatever follows; the enables do not stay together, for
`SDE` is written whole, and what a sequence leaves there is the enable of its last
adjustment.
-/

namespace ExtDrv.Ov7725

open RegFile Run Access

/-! ## The four adjustments -/

inductive Adjustment where
  | BRIGHT
  | CONTRAST
  | SATURATION
  | HUE
  deriving DecidableEq, Repr

namespace Adjustment

/-- The command that makes an adjustment. -/
def cmd : Adjustment → Cmd
  | BRIGHT => .SET_BRIGHT
  | CONTRAST => .SET_CONTRAST
  | SATURATION => .SET_SATURATION
  | HUE => .SET_HUE

/-- The routine of an adjustment. -/
def routine : Adjustment → BitVec 8 → List (Access (BitVec 8) (BitVec 8))
  | BRIGHT => setBright
  | CONTRAST => setContrast
  | SATURATION => setSaturation
  | HUE => setHue

/-- The bit of `SDE` that enables an adjustment: contrast and brightness share
one. -/
def enable : Adjustment → BitVec 8
  | BRIGHT => 0x04
  | CONTRAST => 0x04
  | SATURATION => 0x02
  | HUE => 0x01

/-- The value registers of an adjustment. -/
def valueRegs : Adjustment → List (BitVec 8)
  | BRIGHT => [0x9b]
  | CONTRAST => [0x9c]
  | SATURATION => [0xa7, 0xa8]
  | HUE => [0xa9, 0xaa]

/-- What the value registers hold for a value. -/
def stored : Adjustment → BitVec 8 → BitVec 8
  | HUE, v => reghue v
  | _, v => v

end Adjustment

/-- The sensor after an adjustment. -/
def adjust (s : Sensor) (x : Adjustment × BitVec 8) : Sensor := s.run (x.1.routine x.2)

/-- A request: the adjustment and the word to copy from the user, `none` where
the copy fails. -/
abbrev Request := Adjustment × Option (BitVec 32)

def Request.ioctl (r : Request) : Ioctl := ⟨r.1.cmd, r.2⟩

/-- The adjustments that a sequence of requests makes, with their values. -/
def taken (rs : List Request) : List (Adjustment × BitVec 8) :=
  rs.filterMap fun r => r.2.map fun val => (r.1, low val)

theorem control_request (s : Sensor) (a : Adjustment) (val : BitVec 32) :
    control s (Request.ioctl (a, some val)) = adjust s (a, low val) := by
  cases a <;> rfl

/-- A request whose value cannot be copied does nothing. -/
theorem exec_requests (s : Sensor) (rs : List Request) :
    exec control s (rs.map Request.ioctl) = exec adjust s (taken rs) := by
  induction rs generalizing s with
  | nil => rfl
  | cons r rs ih =>
    obtain ⟨a, val⟩ := r
    rw [List.map_cons, exec_cons, ih]
    cases val with
    | none => rfl
    | some val =>
      rw [control_request]
      rfl

/-! ## What one adjustment does -/

theorem harmless_routine (a : Adjustment) (v : BitVec 8) : ∀ x ∈ a.routine v, Harmless x := by
  cases a <;> simp (disch := decide) [Adjustment.routine, setBright, setContrast, setSaturation,
    setHue, harmless_write]

theorem adjust_reg (s : Sensor) (x : Adjustment × BitVec 8) (r : BitVec 8) :
    (adjust s x).reg r = effect (x.1.routine x.2) r (s.reg r) :=
  run_reg (harmless_routine x.1 x.2) s r

/-- `SDE` is written whole. -/
theorem adjust_SDE (s : Sensor) (x : Adjustment × BitVec 8) :
    (adjust s x).reg SDE = x.1.enable := by
  obtain ⟨a, v⟩ := x
  rw [adjust_reg]
  cases a <;> rfl

/-- The value registers take the value. -/
theorem adjust_value (s : Sensor) (x : Adjustment × BitVec 8) :
    ∀ r ∈ x.1.valueRegs, (adjust s x).reg r = x.1.stored x.2 := by
  obtain ⟨a, v⟩ := x
  intro r hr
  rw [adjust_reg]
  cases a <;> simp only [Adjustment.valueRegs, List.mem_cons, List.not_mem_nil, or_false] at hr
  · subst hr
    rfl
  · subst hr
    rfl
  · rcases hr with rfl | rfl <;> rfl
  · rcases hr with rfl | rfl <;> rfl

theorem routine_addr (a : Adjustment) (v : BitVec 8) :
    ∀ y ∈ a.routine v, y.addr = SDE ∨ y.addr ∈ a.valueRegs := by
  cases a <;> simp [Adjustment.routine, Adjustment.valueRegs, setBright, setContrast,
    setSaturation, setHue]

theorem valueRegs_apart (a b : Adjustment) (h : a ≠ b) :
    ∀ r ∈ a.valueRegs, r ≠ SDE ∧ r ∉ b.valueRegs := by
  cases a <;> cases b <;> first | exact absurd rfl h | decide +kernel

/-- The value registers of the others keep what they hold. -/
theorem adjust_other (s : Sensor) {x : Adjustment × BitVec 8} {a : Adjustment} (h : a ≠ x.1) :
    ∀ r ∈ a.valueRegs, (adjust s x).reg r = s.reg r := by
  intro r hr
  obtain ⟨hsde, hmem⟩ := valueRegs_apart a x.1 h r hr
  rw [adjust_reg]
  apply effect_of_forall_ne
  rintro y hy rfl
  rcases routine_addr x.1 x.2 y hy with heq | hin
  · exact hsde heq
  · exact hmem hin

/-- Two adjustments have their enables together only in one bit. -/
theorem enable_and_iff (a b : Adjustment) : b.enable &&& a.enable = a.enable ↔
    a.enable = b.enable := by
  cases a <;> cases b <;> decide +kernel

/-! ## Sequences -/

/-- The value `a` was given last in a sequence, if it was given any. -/
def lastValue (a : Adjustment) (xs : List (Adjustment × BitVec 8)) : Option (BitVec 8) :=
  ((xs.filter fun x => x.1 = a).getLast?).map Prod.snd

theorem lastValue_snoc (a : Adjustment) (xs : List (Adjustment × BitVec 8))
    (x : Adjustment × BitVec 8) :
    lastValue a (xs ++ [x]) = if x.1 = a then some x.2 else lastValue a xs := by
  unfold lastValue
  by_cases h : x.1 = a
  · simp [h]
  · simp [h]

theorem exists_lastValue {a : Adjustment} {xs : List (Adjustment × BitVec 8)} :
    (∃ v, lastValue a xs = some v) ↔ ∃ x ∈ xs, x.1 = a := by
  induction xs using List.reverseRecOn with
  | nil => simp [lastValue]
  | append_singleton xs x ih =>
    rw [lastValue_snoc]
    by_cases h : x.1 = a
    · simp [h]
    · simp [h, ih]

/-- The adjustments compose: each one made is enabled, and its value registers
hold the value it was given last. -/
def Composed (s : Sensor) (xs : List (Adjustment × BitVec 8)) : Prop :=
  ∀ a v, lastValue a xs = some v →
    s.reg SDE &&& a.enable = a.enable ∧ ∀ r ∈ a.valueRegs, s.reg r = a.stored v

/-- **The values always hold**, whatever follows them. -/
theorem values_hold (s : Sensor) (xs : List (Adjustment × BitVec 8)) :
    ∀ a v, lastValue a xs = some v →
      ∀ r ∈ a.valueRegs, (exec adjust s xs).reg r = a.stored v := by
  induction xs using List.reverseRecOn with
  | nil =>
    intro a v h
    simp [lastValue] at h
  | append_singleton xs x ih =>
    intro a v h r hr
    rw [exec_append, exec_cons, exec_nil]
    rw [lastValue_snoc] at h
    split at h
    · rename_i hx
      subst hx
      cases h
      exact adjust_value _ x r hr
    · rename_i hx
      rw [adjust_other _ (Ne.symm hx) r hr]
      exact ih a v h r hr

/-- All adjustments of the sequence are enabled by the same bit. -/
def OneEnable (xs : List (Adjustment × BitVec 8)) : Prop :=
  ∀ x ∈ xs, ∀ y ∈ xs, x.1.enable = y.1.enable

/-- **The adjustments compose exactly when they share their enable bit.** -/
theorem composed_iff (s : Sensor) (rs : List Request) :
    Composed (exec control s (rs.map Request.ioctl)) (taken rs) ↔ OneEnable (taken rs) := by
  rw [exec_requests]
  generalize taken rs = xs
  have hvalues := values_hold s xs
  rcases List.eq_nil_or_concat xs with rfl | ⟨ys, x, rfl⟩
  · simp [Composed, OneEnable, lastValue]
  rw [List.concat_eq_append] at hvalues ⊢
  have hsde : (exec adjust s (ys ++ [x])).reg SDE = x.1.enable := by
    rw [exec_append, exec_cons, exec_nil, adjust_SDE]
  constructor
  · intro h
    -- every one made has the bit of the last
    have hlast : ∀ y ∈ ys ++ [x], y.1.enable = x.1.enable := by
      intro y hy
      obtain ⟨v, hv⟩ := exists_lastValue.mpr ⟨y, hy, rfl⟩
      have hbit := (h y.1 v hv).1
      rwa [hsde, enable_and_iff] at hbit
    exact fun y hy z hz => (hlast y hy).trans (hlast z hz).symm
  · intro h a v hv
    obtain ⟨y, hy, rfl⟩ := exists_lastValue.mp ⟨v, hv⟩
    refine ⟨?_, hvalues y.1 v hv⟩
    rw [hsde, enable_and_iff]
    exact h y hy x (by simp)

/-- Brightness, then saturation: brightness is no longer enabled. -/
theorem composed_broken : ¬ ∀ (s : Sensor) (rs : List Request),
    Composed (exec control s (rs.map Request.ioctl)) (taken rs) := by
  intro h
  have hbit := (h powerOn [(.BRIGHT, some 0x80), (.SATURATION, some 0x40)] .BRIGHT 0x80 rfl).1
  exact absurd hbit (by decide)

end ExtDrv.Ov7725
