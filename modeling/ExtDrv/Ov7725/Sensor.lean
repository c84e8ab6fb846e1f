import ExtDrv.Lib.RegFile
import ExtDrv.Lib.Run
import Mathlib.Data.BitVec

/-!
# The camera sensor driver (`ov7725.c`)

The sensor is its register file. A register holds what was last written to it;
a write to `COM7` with the reset bit brings every register back to its default,
and the bit then reads 0. The setup routines are programs of accesses; `ioctl`
and `deviceInit` run them.
-/

namespace ExtDrv.Ov7725

open RegFile

/-! ## Registers -/

def COM2 : BitVec 8 := 0x09
def PID : BitVec 8 := 0x0A
def VER : BitVec 8 := 0x0B
def COM3 : BitVec 8 := 0x0C
def COM5 : BitVec 8 := 0x0E
def CLKRC : BitVec 8 := 0x11
def COM7 : BitVec 8 := 0x12
def HSTART : BitVec 8 := 0x17
def HSIZE : BitVec 8 := 0x18
def VSTART : BitVec 8 := 0x19
def VSIZE : BitVec 8 := 0x1A
def HOUTSIZE : BitVec 8 := 0x29
def EXHCH : BitVec 8 := 0x2A
def VOUTSIZE : BitVec 8 := 0x2C
def HREF : BitVec 8 := 0x32
def DSP_CTRL2 : BitVec 8 := 0x65
def SCAL0 : BitVec 8 := 0xA0
def SCAL1 : BitVec 8 := 0xA1
def SCAL2 : BitVec 8 := 0xA2
def SDE : BitVec 8 := 0xA6

/-- `COM7`: resets all registers to default. -/
def SCCB_RESET : BitVec 8 := 0x80
/-- `COM7`: mask of VGA or QVGA. -/
def SLCT_MASK : BitVec 8 := 0x40
def SLCT_VGA : BitVec 8 := 0x00
def SLCT_QVGA : BitVec 8 := 0x40
def ITU656_ON_OFF : BitVec 8 := 0x20
def FMT_MASK : BitVec 8 := 0x0c
def OFMT_MASK : BitVec 8 := 0x03

/-- A register file that is not being reset. -/
structure Regs where
  reg : BitVec 8 → BitVec 8
  running : reg COM7 &&& SCCB_RESET = 0#8

/-- The sensor: what its registers hold, and their defaults. -/
structure Sensor where
  regs : Regs
  default : Regs

/-- The value of register `a`. -/
def Sensor.reg (s : Sensor) (a : BitVec 8) : BitVec 8 := s.regs.reg a

theorem Sensor.running (s : Sensor) : s.reg COM7 &&& SCCB_RESET = 0#8 := s.regs.running

/-- `ov7725_read`. -/
def ov7725Read (s : Sensor) (reg_addr : BitVec 8) : BitVec 8 := s.reg reg_addr

/-- `ov7725_write`, with what the sensor makes of it. -/
def ov7725Write (s : Sensor) (reg_addr value : BitVec 8) : Sensor :=
  if h : reg_addr = COM7 → value &&& SCCB_RESET = 0#8 then
    { s with
      regs.reg := Function.update s.reg reg_addr value
      regs.running := by
        by_cases ha : reg_addr = COM7
        · subst ha
          simpa using h rfl
        · rw [Function.update_of_ne (fun h' => ha h'.symm)]
          exact s.running }
  -- the reset bit takes every register back and clears itself
  else { s with regs := s.default }

/-- One access of a routine: a write, or `regval = read; write(f regval)`. -/
def Sensor.access (s : Sensor) : Access (BitVec 8) (BitVec 8) → Sensor
  | .write a v => ov7725Write s a v
  | .update a f => ov7725Write s a (f (ov7725Read s a))

/-- The accesses of a routine, in order. -/
def Sensor.run (xs : List (Access (BitVec 8) (BitVec 8))) (s : Sensor) : Sensor :=
  xs.foldl Sensor.access s

/-! ## The setup routines -/

open Access

/-- `set_output_drivecap`: `none` is its error return. -/
def setOutputDrivecap (multi : BitVec 8) : Option (List (Access (BitVec 8) (BitVec 8))) :=
  if multi = 0 then some [write COM2 0x00]
  else if multi = 1 then some [write COM2 0x01]
  else if multi = 2 then some [write COM2 0x02]
  else if multi = 3 then some [write COM2 0x03]
  else none

/-- `enum output_format`, without `FORMAT_MAX`. -/
inductive OutputFormat where
  | YUV
  | GBR422
  | RGB565
  | RGB555
  | RGB444
  | PROBRAW
  | BRAW
  deriving DecidableEq, Repr

/-- The format a byte names. -/
def outputFormat (b : BitVec 8) : Option OutputFormat :=
  match b.toNat with
  | 0 => some .YUV
  | 1 => some .GBR422
  | 2 => some .RGB565
  | 3 => some .RGB555
  | 4 => some .RGB444
  | 5 => some .PROBRAW
  | 6 => some .BRAW
  | _ => none

/-- The bits of `COM7` that `set_output_format` sets for a format. -/
def OutputFormat.com7 : OutputFormat → BitVec 8
  | YUV => 0x20
  | GBR422 => 0x02
  | RGB565 => 0x06
  | RGB555 => 0x0a
  | RGB444 => 0x0e
  | PROBRAW => 0x01
  | BRAW => 0x03

/-- The cases of `set_output_format`. -/
def setOutputFormat (form : OutputFormat) : List (Access (BitVec 8) (BitVec 8)) :=
  -- the bits of an earlier format are not cleared
  match form with
  | .YUV => [write COM3 0x10, write 0x66 0x00, update COM7 (· ||| form.com7)]
  | .GBR422 | .RGB565 | .RGB555 | .RGB444 => [update COM7 (· ||| form.com7)]
  | .PROBRAW | .BRAW => [write 0x67 0x4a, update COM7 (· ||| form.com7)]

/-- `set_vga`. -/
def setVga : List (Access (BitVec 8) (BitVec 8)) :=
  [write HSTART 0x22,
   write HSIZE 0xa4,
   write VSTART 0x07,
   write VSIZE 0xf0,
   write HREF 0x00,
   -- of `COM7` the resolution bit stays and everything else goes
   update COM7 (· &&& 0x40),
   write HOUTSIZE 0xa0,
   write VOUTSIZE 0xf0,
   write EXHCH 0x00,
   write CLKRC 0x00]

/-- `set_qvga`. -/
def setQvga : List (Access (BitVec 8) (BitVec 8)) :=
  [write HSTART 0x3f,
   write HSIZE 0x50,
   write VSTART 0x03,
   write VSIZE 0x78,
   write HREF 0x00,
   update COM7 (· ||| 0x40),
   write HOUTSIZE 0x50,
   write VOUTSIZE 0x78,
   write EXHCH 0x00]

/-- `set_qqvga`: 1/2 down sampling, vertical and horizontal zoom out. -/
def setQqvga : List (Access (BitVec 8) (BitVec 8)) :=
  [write HSTART 0x3f,
   write HSIZE 0x50,
   write VSTART 0x03,
   write VSIZE 0x78,
   write HREF 0x00,
   update COM7 (· ||| 0x40),
   write SCAL0 0x05,
   write SCAL1 0x80,
   write SCAL2 0x80,
   write HOUTSIZE 0x50,
   write VOUTSIZE 0x78,
   write EXHCH 0x00,
   write DSP_CTRL2 0x2f]

/-- `set_cif`: sensor size is VGA, zoom out. -/
def setCif : List (Access (BitVec 8) (BitVec 8)) :=
  [write HSTART 0x22,
   write HSIZE 0xa4,
   write VSTART 0x07,
   write VSIZE 0xf0,
   write HREF 0x00,
   write HOUTSIZE 0x5a,
   write VOUTSIZE 0x90,
   write EXHCH 0x00,
   write DSP_CTRL2 0x2f]

/-- `set_qcif`: the same writes as `set_cif`. -/
def setQcif : List (Access (BitVec 8) (BitVec 8)) :=
  [write HSTART 0x22,
   write HSIZE 0xa4,
   write VSTART 0x07,
   write VSIZE 0xf0,
   write HREF 0x00,
   write HOUTSIZE 0x5a,
   write VOUTSIZE 0x90,
   write EXHCH 0x00,
   write DSP_CTRL2 0x2f]

/-- `set_bright`. -/
def setBright (bri : BitVec 8) : List (Access (BitVec 8) (BitVec 8)) :=
  [write SDE 0x04, write 0x9B bri]

/-- `set_contrast`. -/
def setContrast (con : BitVec 8) : List (Access (BitVec 8) (BitVec 8)) :=
  [write SDE 0x04, write 0x9c con]

/-- `set_saturation`. -/
def setSaturation (sat : BitVec 8) : List (Access (BitVec 8) (BitVec 8)) :=
  [write SDE 0x02, write 0xa7 sat, write 0xa8 sat]

/-- `(hue + 1)/2`, computed in `int`. -/
def reghue (hue : BitVec 8) : BitVec 8 := BitVec.ofNat 8 ((hue.toNat + 1) / 2)

/-- `set_hue`. -/
def setHue (hue : BitVec 8) : List (Access (BitVec 8) (BitVec 8)) :=
  [write SDE 0x01, write 0xa9 (reghue hue), write 0xaa (reghue hue)]

/-- `set_night_autoframerate`, by the number of its `enum nightmode`: `none` is
its error return. -/
def setNightAutoframerate (nm : BitVec 8) : Option (List (Access (BitVec 8) (BitVec 8))) :=
  match nm.toNat with
  | 0 => some [write COM5 0x01]
  | 1 => some [update COM5 (· ||| 0x80)]
  | 2 => some [write COM5 0x85]
  | 3 => some [write COM5 0x95]
  | 4 => some [write COM5 0xa5]
  | 5 => some [write COM5 0xb5]
  | _ => none

/-- `ov7725_reg_init`. -/
def regInit : List (Access (BitVec 8) (BitVec 8)) :=
  [write 0x3d 0x03,
   write HSTART 0x22, write HSIZE 0xa4, write VSTART 0x07, write VSIZE 0xf0, write HREF 0x00,
   write HOUTSIZE 0xa0, write VOUTSIZE 0xf0, write EXHCH 0x00, write CLKRC 0x01,
   write 0x42 0x7f, write 0x4d 0x09, write 0x63 0xe0, write 0x64 0xff, write DSP_CTRL2 0x20,
   write 0x66 0x00, write 0x67 0x48,
   write 0x13 0xf0, write 0x0d 0x41, write 0x0f 0xc5, write 0x14 0x11, write 0x22 0x7f,
   write 0x23 0x03, write 0x24 0x40, write 0x25 0x30, write 0x26 0xa1, write 0x2b 0x00,
   write 0x6b 0xaa, write 0x13 0xff,
   write 0x90 0x05, write 0x91 0x01, write 0x92 0x03, write 0x93 0x00,
   write 0x94 0xb0, write 0x95 0x9d, write 0x96 0x13, write 0x97 0x16, write 0x98 0x7b,
   write 0x99 0x91, write 0x9a 0x1e,
   write 0x9b 0x08, write 0x9c 0x20, write 0x9e 0x81, write SDE 0x04,
   write 0x7e 0x0c, write 0x7f 0x16, write 0x80 0x2a, write 0x81 0x4e, write 0x82 0x61,
   write 0x83 0x6f, write 0x84 0x7b, write 0x85 0x86, write 0x86 0x8e, write 0x87 0x97,
   write 0x88 0xa4, write 0x89 0xaf, write 0x8a 0xc5, write 0x8b 0xd7, write 0x8c 0xe8,
   write 0x8d 0x20,
   write COM5 0x65]

/-! ## The resolutions -/

inductive Resolution where
  | VGA
  | QVGA
  | QQVGA
  | CIF
  | QCIF
  deriving DecidableEq, Repr

/-- The routine that sets a resolution. -/
def Resolution.set : Resolution → List (Access (BitVec 8) (BitVec 8))
  | VGA => setVga
  | QVGA => setQvga
  | QQVGA => setQqvga
  | CIF => setCif
  | QCIF => setQcif

/-- The resolution the module parameter `size` names. -/
def sizeResolution (size : Int) : Option Resolution :=
  if size = 0 then some .VGA
  else if size = 1 then some .QVGA
  else if size = 2 then some .QQVGA
  else if size = 3 then some .CIF
  else if size = 4 then some .QCIF
  else none

/-- `ov7725_device_init` with the parameter `size`: what it returns, and the
sensor it leaves. -/
def deviceInit (size : Int) (s : Sensor) : Int × Sensor :=
  let s := ov7725Write s COM7 0x80
  let s := s.access (update COM7 (· &&& 0x7f))
  -- no other chip is driven
  if ov7725Read s PID ≠ 0x77#8 ∨ ov7725Read s VER ≠ 0x21#8 then (-1, s)
  else
    let s := s.run regInit
    let s := s.run ((setOutputDrivecap 1).getD [])
    let s := s.run (setOutputFormat .YUV)
    match sizeResolution size with
    | some r => (0, s.run r.set)
    | none => (-1, s)

/-! ## The control calls -/

/-- The commands of `ov7725_ioctl`. -/
inductive Cmd where
  | SET_OUTPUT_FORMAT
  | SET_OUTPUT_VGA
  | SET_OUTPUT_QVGA
  | SET_OUTPUT_QQVGA
  | SET_OUTPUT_CIF
  | SET_OUTPUT_QCIF
  | SET_NIGHT_FRAMERATE
  | SET_BRIGHT
  | SET_CONTRAST
  | SET_SATURATION
  | SET_HUE
  | READ_REGISTER
  | WRITE_REGISTER
  | other
  deriving DecidableEq, Repr

/-- A call of `ov7725_ioctl`: `val` is what is copied from the user, `none` a
copy that fails. -/
structure Ioctl where
  cmd : Cmd
  val : Option (BitVec 32)
  deriving DecidableEq, Repr

/-- What a call returns: its result, and the byte copied to the user. -/
structure Reply where
  ret : Int
  out : Option (BitVec 8)
  deriving DecidableEq, Repr

/-- `val & 0xff`. -/
def low (val : BitVec 32) : BitVec 8 := val.setWidth 8

/-- `(val & 0xff00) >> 8`. -/
def high (val : BitVec 32) : BitVec 8 := (val >>> 8).setWidth 8

def Reply.done : Reply := ⟨0, none⟩
def Reply.failed : Reply := ⟨-1, none⟩

/-- A routine run for a call, or its error. -/
def Sensor.runOr (xs : Option (List (Access (BitVec 8) (BitVec 8)))) (s : Sensor) :
    Sensor × Reply :=
  match xs with
  | some xs => (s.run xs, .done)
  | none => (s, .failed)

/-- `ov7725_ioctl`. -/
def ioctl (x : Ioctl) (s : Sensor) : Sensor × Reply :=
  match x.val with
  | none => (s, .failed)
  | some val =>
      match x.cmd with
      | .SET_OUTPUT_FORMAT => s.runOr ((outputFormat (low val)).map setOutputFormat)
      | .SET_OUTPUT_VGA => (s.run setVga, .done)
      | .SET_OUTPUT_QVGA => (s.run setQvga, .done)
      | .SET_OUTPUT_QQVGA => (s.run setQqvga, .done)
      | .SET_OUTPUT_CIF => (s.run setCif, .done)
      | .SET_OUTPUT_QCIF => (s.run setQcif, .done)
      | .SET_NIGHT_FRAMERATE => s.runOr (setNightAutoframerate (low val))
      | .SET_BRIGHT => (s.run (setBright (low val)), .done)
      | .SET_CONTRAST => (s.run (setContrast (low val)), .done)
      | .SET_SATURATION => (s.run (setSaturation (low val)), .done)
      | .SET_HUE => (s.run (setHue (low val)), .done)
      | .READ_REGISTER => (s, ⟨0, some (ov7725Read s (low val))⟩)
      | .WRITE_REGISTER => (ov7725Write s (low val) (high val), .done)
      | .other => (s, .failed)

/-- The command that sets a resolution. -/
def Resolution.cmd : Resolution → Cmd
  | VGA => .SET_OUTPUT_VGA
  | QVGA => .SET_OUTPUT_QVGA
  | QQVGA => .SET_OUTPUT_QQVGA
  | CIF => .SET_OUTPUT_CIF
  | QCIF => .SET_OUTPUT_QCIF

/-- The sensor after a call. -/
def control (s : Sensor) (x : Ioctl) : Sensor := (ioctl x s).1

/-! ## What a routine does to each register -/

/-- The access leaves the reset bit of `COM7` clear. -/
def Harmless (x : Access (BitVec 8) (BitVec 8)) : Prop :=
  x.addr = COM7 → ∀ v, v &&& SCCB_RESET = 0#8 → x.fn v &&& SCCB_RESET = 0#8

theorem ov7725Write_reg {s : Sensor} {a v : BitVec 8}
    (h : a = COM7 → v &&& SCCB_RESET = 0#8) :
    (ov7725Write s a v).reg = Function.update s.reg a v := by
  simp only [ov7725Write, dif_pos h]
  rfl

/-- A harmless access is one of the register file. -/
theorem access_reg {s : Sensor} {x : Access (BitVec 8) (BitVec 8)} (h : Harmless x) :
    (s.access x).reg = RegFile.access s.reg x := by
  cases x with
  | write a v => exact ov7725Write_reg fun ha => h ha _ s.running
  | update a f =>
      -- what is read is the value of a register file that is not being reset
      apply ov7725Write_reg
      intro ha
      subst ha
      exact h rfl _ s.running

theorem run_reg_eq_foldl {xs : List (Access (BitVec 8) (BitVec 8))} (h : ∀ x ∈ xs, Harmless x)
    (s : Sensor) : (s.run xs).reg = xs.foldl RegFile.access s.reg := by
  induction xs generalizing s with
  | nil => rfl
  | cons x xs ih =>
      have hx : (s.access x).reg = RegFile.access s.reg x := access_reg (h x List.mem_cons_self)
      have hxs : ∀ y ∈ xs, Harmless y := fun y hy => h y (List.mem_cons_of_mem _ hy)
      rw [List.foldl_cons, ← hx]
      exact ih hxs (s.access x)

/-- **A routine that does not reset the sensor acts on each register by
itself.** -/
theorem run_reg {xs : List (Access (BitVec 8) (BitVec 8))} (h : ∀ x ∈ xs, Harmless x)
    (s : Sensor) (a : BitVec 8) : (s.run xs).reg a = effect xs a (s.reg a) := by
  rw [run_reg_eq_foldl h, foldl_access]

theorem and_reset_of_or {v m : BitVec 8} (hv : v &&& SCCB_RESET = 0#8)
    (hm : m &&& SCCB_RESET = 0#8) : (v ||| m) &&& SCCB_RESET = 0#8 := by
  rw [BitVec.and_or_distrib_right, hv, hm, BitVec.or_zero]

theorem and_reset_of_and {v m : BitVec 8} (hv : v &&& SCCB_RESET = 0#8) :
    (v &&& m) &&& SCCB_RESET = 0#8 := by
  rw [BitVec.and_assoc, BitVec.and_comm m, ← BitVec.and_assoc, hv, BitVec.zero_and]

theorem harmless_write {a v : BitVec 8} (h : a ≠ COM7) : Harmless (write a v) :=
  fun h' => absurd h' h

theorem harmless_or {a m : BitVec 8} (hm : m &&& SCCB_RESET = 0#8) :
    Harmless (update a (· ||| m)) :=
  fun _ _ hv => and_reset_of_or hv hm

theorem harmless_and (a m : BitVec 8) : Harmless (update a (· &&& m)) :=
  fun _ _ hv => and_reset_of_and hv

theorem harmless_resolution (r : Resolution) : ∀ x ∈ r.set, Harmless x := by
  cases r <;> simp (disch := decide) [Resolution.set, setVga, setQvga, setQqvga, setCif,
    setQcif, harmless_write, harmless_or, harmless_and]

theorem harmless_format (f : OutputFormat) : ∀ x ∈ setOutputFormat f, Harmless x := by
  cases f <;> simp (disch := decide) [setOutputFormat, OutputFormat.com7, harmless_write,
    harmless_or]

end ExtDrv.Ov7725
