import ExtDrv.Lib.RegField
import ExtDrv.Ov7725.Sensor

/-!
# Output configuration of the sensor

Two laws of the format and resolution commands. Whether a resolution command
makes the sensor forget its history: `sameResolution_iff`. Whether the formats
and the resolutions, which share `COM7`, leave each other's field alone:
`coexist_iff`.
-/

namespace ExtDrv.Ov7725

open RegField RegFile Run

/-! ## What the commands do to the shared registers -/

theorem com7_resolution (r : Resolution) (v : BitVec 8) :
    effect r.set COM7 v =
      match r with
      | .VGA => v &&& 0x40
      | .QVGA | .QQVGA => v ||| 0x40
      | .CIF | .QCIF => v := by
  cases r <;> rfl

theorem com7_format (f : OutputFormat) (v : BitVec 8) :
    effect (setOutputFormat f) COM7 v = v ||| f.com7 := by
  cases f <;> rfl

/-- A resolution command that is carried out runs its routine. -/
theorem control_resolution (s : Sensor) (r : Resolution) (v : BitVec 32) :
    control s ⟨r.cmd, some v⟩ = s.run r.set := by
  cases r <;> rfl

/-! ## History independence -/

/-- The window and output size registers, the scaling registers and the DSP
control register of the zoom. -/
def resolutionRegs : List (BitVec 8) :=
  [HSTART, HSIZE, VSTART, VSIZE, HREF, HOUTSIZE, VOUTSIZE, EXHCH, SCAL0, SCAL1, SCAL2, DSP_CTRL2]

/-- The two sensors hold the same resolution: its bit of `COM7` and its
registers. -/
def SameResolution (s t : Sensor) : Prop :=
  s.reg COM7 &&& SLCT_MASK = t.reg COM7 &&& SLCT_MASK ∧ AgreeOn resolutionRegs s.reg t.reg

/-- The registers of the resolution that the routine does not write. -/
def Resolution.kept : Resolution → List (BitVec 8)
  | VGA | QVGA => [SCAL0, SCAL1, SCAL2, DSP_CTRL2]
  | QQVGA => []
  | CIF | QCIF => [SCAL0, SCAL1, SCAL2]

/-- Whether the routine leaves the resolution bit of `COM7` as it finds it. -/
def Resolution.keepsSelect : Resolution → Bool
  | VGA | CIF | QCIF => true
  | QVGA | QQVGA => false

/-- The two sensors agree on all that the routine of `r` leaves alone. -/
def SameKept (r : Resolution) (s t : Sensor) : Prop :=
  (r.keepsSelect = true → s.reg COM7 &&& SLCT_MASK = t.reg COM7 &&& SLCT_MASK)
    ∧ AgreeOn r.kept s.reg t.reg

theorem written_or_kept (r : Resolution) :
    ∀ a ∈ resolutionRegs, a ∈ r.kept ∨ Written r.set a := by
  cases r <;> decide +kernel

theorem kept_not_accessed (r : Resolution) :
    ∀ b ∈ r.kept, b ∈ resolutionRegs ∧ ∀ x ∈ r.set, x.addr ≠ b := by
  cases r <;> decide +kernel

theorem or_and_select (v : BitVec 8) : (v ||| 0x40) &&& SLCT_MASK = SLCT_QVGA := by
  revert v
  decide +kernel

/-- The resolution bit after the routine of `r`: set, or what it was. -/
theorem select_resolution (r : Resolution) (v : BitVec 8) :
    effect r.set COM7 v &&& SLCT_MASK
      = if r.keepsSelect then v &&& SLCT_MASK else SLCT_QVGA := by
  rw [com7_resolution]
  cases r with
  | VGA => exact BitVec.and_assoc v 0x40 SLCT_MASK
  | QVGA => exact or_and_select v
  | QQVGA => exact or_and_select v
  | CIF => rfl
  | QCIF => rfl

/-- One step of two runs. -/
theorem sameResolution_run_iff (r : Resolution) (s t : Sensor) :
    SameResolution (s.run r.set) (t.run r.set) ↔ SameKept r s t := by
  have hs := run_reg_eq_foldl (harmless_resolution r) s
  have ht := run_reg_eq_foldl (harmless_resolution r) t
  rw [SameResolution, SameKept, hs, ht,
    agreeOn_foldl_iff (written_or_kept r) (kept_not_accessed r), foldl_access, foldl_access,
    select_resolution, select_resolution]
  cases h : r.keepsSelect <;> simp

/-- **History independence**, exactly: after two histories that end with the
same resolution command the sensor holds the same resolution if and only if
the histories before it had left the same values in whatever the command does
not write. -/
theorem sameResolution_iff (s : Sensor) (as bs : List Ioctl) (r : Resolution)
    (v w : BitVec 32) :
    SameResolution (exec control s (as ++ [⟨r.cmd, some v⟩]))
        (exec control s (bs ++ [⟨r.cmd, some w⟩]))
      ↔ SameKept r (exec control s as) (exec control s bs) := by
  rw [exec_append, exec_append, exec_cons, exec_cons, exec_nil, exec_nil,
    control_resolution, control_resolution]
  exact sameResolution_run_iff r _ _

/-- A sensor as it comes up. -/
def powerOn : Sensor where
  regs.reg a := if a = PID then 0x77 else if a = VER then 0x21 else 0x00
  regs.running := by decide
  default.reg a := if a = PID then 0x77 else if a = VER then 0x21 else 0x00
  default.running := by decide

/-- After QVGA, the command for VGA leaves the sensor in QVGA: the driver
clears the bits of `COM7` next to the resolution bit. -/
theorem vga_keeps_qvga :
    (deviceInit 0 powerOn).1 = 0 ∧
    ¬ SameResolution
        (exec control (deviceInit 0 powerOn).2 ([] ++ [⟨Resolution.VGA.cmd, some 0⟩]))
        (exec control (deviceInit 0 powerOn).2
          ([⟨.SET_OUTPUT_QVGA, some 0⟩] ++ [⟨Resolution.VGA.cmd, some 0⟩])) := by
  constructor
  · decide +kernel
  · intro h
    exact absurd h.1 (by decide +kernel)

/-! ## Format and resolution together -/

/-- The bits of `COM7` the formats are encoded in. -/
def formatBits : BitVec 8 := ITU656_ON_OFF ||| FMT_MASK ||| OFMT_MASK

/-- The resolution bit of a resolution: a CIF image is cut from the VGA one. -/
def Resolution.select : Resolution → BitVec 8
  | VGA | CIF | QCIF => SLCT_VGA
  | QVGA | QQVGA => SLCT_QVGA

/-- A format or a resolution command, with what is copied from the user. -/
inductive Setting where
  | format (val : Option (BitVec 32))
  | resolution (r : Resolution) (val : Option (BitVec 32))
  deriving DecidableEq, Repr

/-- The call of `ov7725_ioctl` that makes the setting. -/
def Setting.ioctl : Setting → Ioctl
  | format val => ⟨.SET_OUTPUT_FORMAT, val⟩
  | resolution r val => ⟨r.cmd, val⟩

/-- The format a setting asks for, if it is one the driver knows. -/
def Setting.newFormat : Setting → Option OutputFormat
  | format val => val.bind fun v => outputFormat (low v)
  | resolution _ _ => none

def Setting.newResolution : Setting → Option Resolution
  | format _ => none
  | resolution r val => val.map fun _ => r

/-- The sensor with the last format and the last resolution set so far. -/
structure Tracked where
  sensor : Sensor
  fmt : Option OutputFormat
  res : Option Resolution

def Tracked.start (s : Sensor) : Tracked := ⟨s, none, none⟩

def Tracked.step (t : Tracked) (x : Setting) : Tracked where
  sensor := control t.sensor x.ioctl
  fmt := x.newFormat.or t.fmt
  res := x.newResolution.or t.res

/-- `COM7` encodes the last format, in those of its bits that `bits` selects,
and the last resolution. -/
structure Coexist (bits : BitVec 8) (t : Tracked) : Prop where
  format : ∀ f, t.fmt = some f → t.sensor.reg COM7 &&& bits = f.com7 &&& bits
  resolution : ∀ r, t.res = some r → t.sensor.reg COM7 &&& SLCT_MASK = r.select

/-- What the driver relies on when it makes a setting. A format is or-ed in:
no bit of another format may be set. VGA clears all but the resolution bit:
the format must be the one with no bits. VGA and CIF take the resolution bit
as it is. -/
def Compatible (bits : BitVec 8) (t : Tracked) (x : Setting) : Prop :=
  (∀ f, x.newFormat = some f → t.sensor.reg COM7 &&& bits &&& ~~~f.com7 = 0#8) ∧
  ∀ r, x.newResolution = some r →
    (r.keepsSelect = true → t.sensor.reg COM7 &&& SLCT_MASK = SLCT_VGA) ∧
    (r = .VGA → ∀ f, t.fmt = some f → f.com7 &&& bits = 0#8)

theorem com7_and_select (f : OutputFormat) (v : BitVec 8) :
    (v ||| f.com7) &&& SLCT_MASK = v &&& SLCT_MASK := by
  have hf : f.com7 &&& SLCT_MASK = 0#8 := by cases f <;> rfl
  rw [BitVec.and_or_distrib_right, hf, BitVec.or_zero]

/-- The format bits after the routine of `r`: VGA clears them. -/
theorem format_resolution {bits : BitVec 8} (hb : SLCT_MASK &&& bits = 0#8) (r : Resolution)
    (v : BitVec 8) :
    effect r.set COM7 v &&& bits = if r = .VGA then 0#8 else v &&& bits := by
  have hor : (v ||| 0x40) &&& bits = v &&& bits := by
    have h40 : (0x40 : BitVec 8) &&& bits = 0#8 := hb
    rw [BitVec.and_or_distrib_right, h40, BitVec.or_zero]
  have hand : v &&& 0x40 &&& bits = 0#8 := by
    have h40 : (0x40 : BitVec 8) &&& bits = 0#8 := hb
    rw [BitVec.and_assoc, h40, BitVec.and_zero]
  rw [com7_resolution]
  cases r with
  | VGA => exact hand
  | QVGA => exact hor
  | QQVGA => exact hor
  | CIF => rfl
  | QCIF => rfl

/-- **What a setting does to `COM7`**: nothing, if the call fails; else what
the routine of the format or of the resolution does. -/
theorem step_cases (s : Sensor) (x : Setting) :
    (x.newFormat = none ∧ x.newResolution = none ∧ control s x.ioctl = s) ∨
    (∃ f, x.newFormat = some f ∧ x.newResolution = none ∧
      (control s x.ioctl).reg COM7 = s.reg COM7 ||| f.com7) ∨
    (∃ r, x.newFormat = none ∧ x.newResolution = some r ∧
      (control s x.ioctl).reg COM7 = effect r.set COM7 (s.reg COM7)) := by
  cases x with
  | format val =>
      cases val with
      | none => exact .inl ⟨rfl, rfl, rfl⟩
      | some v =>
          cases hf : outputFormat (low v) with
          | none =>
              -- a format the driver does not know changes nothing
              left
              exact ⟨hf, rfl, by simp [control, Setting.ioctl, ioctl, hf, Sensor.runOr]⟩
          | some f =>
              right; left
              have hrun : control s (Setting.format (some v)).ioctl = s.run (setOutputFormat f) := by
                simp [control, Setting.ioctl, ioctl, hf, Sensor.runOr]
              refine ⟨f, hf, rfl, ?_⟩
              rw [hrun, run_reg (harmless_format f), com7_format]
  | resolution r val =>
      cases val with
      | none => exact .inl ⟨rfl, rfl, rfl⟩
      | some v =>
          right; right
          refine ⟨r, rfl, rfl, ?_⟩
          rw [Setting.ioctl, control_resolution, run_reg (harmless_resolution r)]

/-- A format keeps the resolution, and reads back if it finds no bit of another
format. -/
theorem coexist_format_iff {bits : BitVec 8} {t t' : Tracked} {f : OutputFormat}
    (h : Coexist bits t) (hfmt : t'.fmt = some f) (hres : t'.res = t.res)
    (hcom7 : t'.sensor.reg COM7 = t.sensor.reg COM7 ||| f.com7) :
    Coexist bits t' ↔ t.sensor.reg COM7 &&& bits &&& ~~~f.com7 = 0#8 := by
  rw [← or_and_eq_iff, ← hcom7]
  constructor
  · intro h'
    exact h'.format f hfmt
  · intro hread
    constructor
    · intro g hg
      rw [hfmt] at hg
      cases hg
      exact hread
    · intro r hr
      rw [hcom7, com7_and_select]
      exact h.resolution r (hres ▸ hr)

/-- A resolution reads back if its routine sets the resolution bit or finds it
as wanted; it keeps the format unless it is VGA. -/
theorem coexist_resolution_iff {bits : BitVec 8} (hb : SLCT_MASK &&& bits = 0#8) {t t' : Tracked}
    {r : Resolution} (h : Coexist bits t) (hfmt : t'.fmt = t.fmt) (hres : t'.res = some r)
    (hcom7 : t'.sensor.reg COM7 = effect r.set COM7 (t.sensor.reg COM7)) :
    Coexist bits t' ↔
      (r.keepsSelect = true → t.sensor.reg COM7 &&& SLCT_MASK = SLCT_VGA) ∧
      (r = .VGA → ∀ f, t.fmt = some f → f.com7 &&& bits = 0#8) := by
  have hselect : t'.sensor.reg COM7 &&& SLCT_MASK = r.select ↔
      (r.keepsSelect = true → t.sensor.reg COM7 &&& SLCT_MASK = SLCT_VGA) := by
    rw [hcom7, select_resolution]
    -- the routines that keep the bit are those of the resolutions that want it clear
    cases r <;> simp [Resolution.keepsSelect, Resolution.select]
  have hformat : (∀ f, t.fmt = some f → t'.sensor.reg COM7 &&& bits = f.com7 &&& bits) ↔
      (r = .VGA → ∀ f, t.fmt = some f → f.com7 &&& bits = 0#8) := by
    rw [hcom7, format_resolution hb]
    by_cases hr : r = .VGA
    · -- no format bit is left: right only for a format that has none
      simp only [hr, forall_const]
      exact forall_congr' fun f => imp_congr_right fun _ => eq_comm
    · simp only [hr, false_implies, iff_true]
      exact h.format
  rw [← hselect, ← hformat]
  constructor
  · intro h'
    exact ⟨h'.resolution r hres, fun f hf => h'.format f (hfmt ▸ hf)⟩
  · rintro ⟨hr, hf⟩
    constructor
    · intro f hf'
      exact hf f (hfmt ▸ hf')
    · intro q hq
      rw [hres] at hq
      cases hq
      exact hr

/-- One setting keeps the two fields right exactly when it is compatible with
what it finds. -/
theorem coexist_step_iff {bits : BitVec 8} (hb : SLCT_MASK &&& bits = 0#8) (t : Tracked)
    (x : Setting) (h : Coexist bits t) : Coexist bits (t.step x) ↔ Compatible bits t x := by
  rcases step_cases t.sensor x with ⟨hf, hr, hs⟩ | ⟨f, hf, hr, hs⟩ | ⟨r, hf, hr, hs⟩
  · have hsame : t.step x = t := by simp [Tracked.step, hf, hr, hs]
    simp [hsame, h, Compatible, hf, hr]
  · rw [coexist_format_iff h (by simp [Tracked.step, hf]) (by simp [Tracked.step, hr]) hs]
    simp [Compatible, hf, hr]
  · rw [coexist_resolution_iff hb h (by simp [Tracked.step, hf]) (by simp [Tracked.step, hr]) hs]
    simp [Compatible, hf, hr]

theorem select_and_formatBits (bits : BitVec 8) : SLCT_MASK &&& (bits &&& formatBits) = 0#8 := by
  have h : SLCT_MASK &&& formatBits = 0#8 := by decide
  rw [BitVec.and_comm bits, ← BitVec.and_assoc, h, BitVec.zero_and]

/-- **Format and resolution coexist**, exactly: in every run of format and
resolution commands `COM7` encodes the last format and the last resolution in
every state if and only if each command is compatible with what it finds.
`bits` is any choice of the format bits. -/
theorem coexist_iff (bits : BitVec 8) (s : Sensor) (xs : List Setting) :
    Always Tracked.step (Coexist (bits &&& formatBits)) (Tracked.start s) xs
      ↔ Along Tracked.step (Compatible (bits &&& formatBits)) (Tracked.start s) xs := by
  apply always_iff_along
  · intro t x h
    exact coexist_step_iff (select_and_formatBits bits) t x h
  · exact ⟨(fun f hf => nomatch hf), (fun r hr => nomatch hr)⟩

/-- Format GBR422 set after RGB444 leaves the bits of RGB444, and VGA set after
it none: `COM7` then encodes YUV without BT.656. -/
theorem format_lost :
    (deviceInit 0 powerOn).1 = 0 ∧
    ¬ Coexist formatBits
        (exec Tracked.step (Tracked.start (deviceInit 0 powerOn).2)
          [.format (some 4), .format (some 1)]) ∧
    ¬ Coexist formatBits
        (exec Tracked.step (Tracked.start (deviceInit 0 powerOn).2)
          [.format (some 2), .resolution .VGA (some 0)]) := by
  refine ⟨by decide +kernel, ?_, ?_⟩
  · intro h
    exact absurd (h.format .GBR422 (by decide +kernel)) (by decide +kernel)
  · intro h
    exact absurd (h.format .RGB565 (by decide +kernel)) (by decide +kernel)

end ExtDrv.Ov7725
