import ExtDrv.Lib.RegField

/-!
# The configuration of the SSP (`ssp-GV7601/hi_ssp.c`)

The calls that configure the serial port rewrite fields of `CR0`, `CR1` and
`CPSR` by reading, masking and writing back. What each is documented to set
is said with `setField`; what the masks of the source keep beside that is the
low half of `CR0` and of `CR1`, or the low byte.
-/

namespace ExtDrv.Ssp

open RegField

/-! ## The source -/

structure Regs where
  CR0 : BitVec 32
  CR1 : BitVec 32
  CPSR : BitVec 32
  deriving DecidableEq, Repr

/-- `hi_ssp_writeOnly`: the parameter is overwritten with 0. -/
def hi_ssp_writeOnly (s : Regs) : Regs := { s with CR1 := s.CR1 &&& ~~~(0x1#32 <<< 5) }

def hi_ssp_enable (s : Regs) : Regs :=
  let ret := s.CR1
  let ret := (ret &&& 0xFFFD#32) ||| 0x2#32
  -- little endian, then the wait enable
  let ret := ret ||| (0x1#32 <<< 4)
  let ret := ret ||| (0x1#32 <<< 15)
  hi_ssp_writeOnly { s with CR1 := ret }

def hi_ssp_disable (s : Regs) : Regs := { s with CR1 := s.CR1 &&& ~~~(0x1#32 <<< 1) }

def hi_ssp_set_frameform (framemode spo sph datawidth : BitVec 8) (s : Regs) : Int × Regs :=
  let ret := s.CR0
  if framemode > 3 then (-1, s)
  else
    let ret := (ret &&& 0xFFCF#32) ||| (framemode.setWidth 32 <<< 4)
    if ret &&& 0x30#32 = 0 ∧ spo > 1 then (-1, s)
    else if ret &&& 0x30#32 = 0 ∧ sph > 1 then (-1, s)
    else
      let ret := if ret &&& 0x30#32 = 0 then
          (ret &&& 0xFF3F#32) ||| (sph.setWidth 32 <<< 7) ||| (spo.setWidth 32 <<< 6)
        else ret
      if datawidth > 16 ∨ datawidth < 4 then (-1, s)
      else
        let ret := (ret &&& 0xFFF0#32) ||| (datawidth.setWidth 32 - 1)
        (0, { s with CR0 := ret })

def hi_ssp_set_serialclock (scr cpsdvsr : BitVec 8) (s : Regs) : Int × Regs :=
  let ret := s.CR0
  let ret := (ret &&& 0xFF#32) ||| (scr.setWidth 32 <<< 8)
  let s := { s with CR0 := ret }
  if cpsdvsr &&& 0x1#8 ≠ 0 then (-1, s)
  else (0, { s with CPSR := cpsdvsr.setWidth 32 })

def hi_ssp_alt_mode_set (enable : BitVec 32) (s : Regs) : Int × Regs :=
  let ret := s.CR1
  let ret := if enable ≠ 0 then ret &&& ~~~0x40#32 else (ret &&& 0xFF#32) ||| 0x40#32
  (0, { s with CR1 := ret })

/-- The configuration calls. -/
inductive Call
  | enable
  | disable
  | set_frameform (framemode spo sph datawidth : BitVec 8)
  | set_serialclock (scr cpsdvsr : BitVec 8)
  | alt_mode_set (enable : BitVec 32)
  deriving DecidableEq, Repr

/-- A call; those that return nothing cannot fail. -/
def call (s : Regs) : Call → Int × Regs
  | .enable => (0, hi_ssp_enable s)
  | .disable => (0, hi_ssp_disable s)
  | .set_frameform framemode spo sph datawidth =>
      hi_ssp_set_frameform framemode spo sph datawidth s
  | .set_serialclock scr cpsdvsr => hi_ssp_set_serialclock scr cpsdvsr s
  | .alt_mode_set enable => hi_ssp_alt_mode_set enable s

/-! ## What the calls are documented to set -/

/-- The fields of `CR1` when the port is enabled: enabled (bit 1), little endian
(bit 4), waiting (bit 15), not write-only (bit 5). -/
def enabledFields (CR1 : BitVec 32) : BitVec 32 :=
  setField 5 1 0#32 (setField 15 1 1#32 (setField 4 1 1#32 (setField 1 1 1#32 CR1)))

/-- The fields of `CR0` of a frame form: the form (bits 5 and 4), with the
Motorola form the voltage level (bit 6) and the phase (bit 7) of the clock, and
the data width less one (bits 3 to 0). -/
def frameFields (framemode spo sph datawidth : BitVec 8) (CR0 : BitVec 32) : BitVec 32 :=
  let formed := setField 4 2 (framemode.setWidth 32) CR0
  let clocked := if framemode = 0 then
      setField 6 1 (spo.setWidth 32) (setField 7 1 (sph.setWidth 32) formed)
    else formed
  setField 0 4 (datawidth.setWidth 32 - 1) clocked

/-- The registers with the documented fields set, and nothing else. -/
def fieldUpdate (s : Regs) : Call → Regs
  | .enable => { s with CR1 := enabledFields s.CR1 }
  | .disable => { s with CR1 := setField 1 1 0#32 s.CR1 }
  | .set_frameform framemode spo sph datawidth =>
      { s with CR0 := frameFields framemode spo sph datawidth s.CR0 }
  | .set_serialclock scr cpsdvsr =>
      { s with CR0 := setField 8 8 (scr.setWidth 32) s.CR0, CPSR := cpsdvsr.setWidth 32 }
  | .alt_mode_set enable => { s with CR1 := setField 6 1 (if enable ≠ 0 then 0#32 else 1#32) s.CR1 }

/-- A call that succeeds is a field update, and one that fails does nothing. -/
structure FieldsOrNothing (s : Regs) (c : Call) : Prop where
  succeeds : (call s c).1 = 0 → (call s c).2 = fieldUpdate s c
  fails : (call s c).1 ≠ 0 → (call s c).2 = s

/-- The arguments `hi_ssp_set_frameform` accepts. -/
def FrameArgs (framemode spo sph datawidth : BitVec 8) : Prop :=
  framemode.toNat ≤ 3 ∧ (framemode = 0 → spo.toNat ≤ 1 ∧ sph.toNat ≤ 1) ∧
    4 ≤ datawidth.toNat ∧ datawidth.toNat ≤ 16

/-- **When a call is lawful**: enabling and the frame form need the upper half of
their register to be zero, for it is lost; so does the clock rate with an
even divisor, and an odd one is refused after the rate is written, so `CR0`
must hold that rate already; leaving the alternative mode loses all but the
low byte of `CR1`. -/
def Lawful (s : Regs) : Call → Prop
  | .enable => s.CR1.toNat < 2 ^ 16
  | .disable => True
  | .set_frameform framemode spo sph datawidth =>
      FrameArgs framemode spo sph datawidth → s.CR0.toNat < 2 ^ 16
  | .set_serialclock scr cpsdvsr =>
      if cpsdvsr.toNat % 2 = 0 then s.CR0.toNat < 2 ^ 16 else s.CR0.toNat / 2 ^ 8 = scr.toNat
  | .alt_mode_set enable => enable ≠ 0 ∨ s.CR1.toNat < 2 ^ 8

/-! ## The low half of a register -/

/-- Fields of the low half, set in what the masks keep. -/
theorem setField_low {lo len : ℕ} (h : lo + len ≤ 16) (v reg : BitVec 32) :
    setField lo len v (reg &&& mask 32 16) &&& mask 32 16
      = setField lo len v reg &&& mask 32 16 := by
  rw [setField_and_mask h, BitVec.and_assoc, BitVec.and_self]

theorem fits_of_le {len : ℕ} (hlen : len < 32) {v : BitVec 8} (h : v.toNat < 2 ^ len) :
    v.setWidth 32 &&& mask 32 len = v.setWidth 32 := by
  rw [and_mask_eq_self_iff hlen, BitVec.toNat_setWidth]
  exact (Nat.mod_le _ _).trans_lt h

/-! ## Enabling and disabling -/

theorem enable_CR1 (s : Regs) :
    hi_ssp_enable s = { s with CR1 := enabledFields s.CR1 &&& mask 32 16 } := by
  have hon : s.CR1 &&& 0xFFFD#32 ||| 0x2#32 = setField 1 1 1#32 s.CR1 &&& mask 32 16 :=
    and_or_eq_setField 1 1 16 (v := 1#32) (by decide) (by decide) (by decide) s.CR1
  have hoff (reg : BitVec 32) : reg &&& ~~~(0x1#32 <<< 5) = setField 5 1 0#32 reg :=
    and_not_bit_eq_setField 5 reg
  have hbit (lo : ℕ) (reg : BitVec 32) : reg ||| 0x1#32 <<< lo = setField lo 1 1#32 reg :=
    or_bit_eq_setField lo reg
  unfold hi_ssp_enable hi_ssp_writeOnly enabledFields
  simp only [hon, hoff, hbit]
  rw [setField_and_mask (by decide), setField_and_mask (by decide), setField_and_mask (by decide)]

theorem enabledFields_lt_iff (CR1 : BitVec 32) :
    (enabledFields CR1).toNat < 2 ^ 16 ↔ CR1.toNat < 2 ^ 16 := by
  unfold enabledFields
  rw [setField_lt_iff (by decide) (by decide), setField_lt_iff (by decide) (by decide),
    setField_lt_iff (by decide) (by decide), setField_lt_iff (by decide) (by decide)]

/-! ## The frame form -/

/-- The form is written into `ret`, and tested there for the Motorola one. -/
theorem form_ret {framemode : BitVec 8} (h : framemode.toNat ≤ 3) (CR0 : BitVec 32) :
    CR0 &&& 0xFFCF#32 ||| framemode.setWidth 32 <<< 4
      = setField 4 2 (framemode.setWidth 32) CR0 &&& mask 32 16 :=
  and_or_eq_setField 4 2 16 (by decide) (by decide)
    (fits_of_le (by decide) (Nat.lt_succ_of_le h)) CR0

theorem motorola_iff {framemode : BitVec 8} (h : framemode.toNat ≤ 3) (CR0 : BitVec 32) :
    (CR0 &&& 0xFFCF#32 ||| framemode.setWidth 32 <<< 4) &&& 0x30#32 = 0 ↔ framemode = 0 := by
  have hkeep : 0xFFCF#32 &&& 0x30#32 = 0 := by decide
  have hform : ∀ f : BitVec 8, f.toNat ≤ 3 → (f.setWidth 32 <<< 4 &&& 0x30#32 = 0 ↔ f = 0) := by
    decide
  rw [BitVec.and_or_distrib_right, BitVec.and_assoc, hkeep, ← hform framemode h]
  simp

/-- The clock fields are written together. -/
theorem clock_ret {spo sph : BitVec 8} (hspo : spo.toNat ≤ 1) (hsph : sph.toNat ≤ 1)
    (ret : BitVec 32) :
    ret &&& 0xFF3F#32 ||| sph.setWidth 32 <<< 7 ||| spo.setWidth 32 <<< 6
      = setField 6 1 (spo.setWidth 32) (setField 7 1 (sph.setWidth 32) ret) &&& mask 32 16 := by
  have hphase := and_or_eq_setField 7 1 16 (K := 0xFF7F#32) (by decide) (by decide)
    (fits_of_le (by decide) (Nat.lt_succ_of_le hsph)) ret
  have hlevel := and_or_eq_setField 6 1 16 (K := 0xFFBF#32) (by decide) (by decide)
    (fits_of_le (by decide) (Nat.lt_succ_of_le hspo))
    (ret &&& 0xFF7F#32 ||| sph.setWidth 32 <<< 7)
  -- the phase is outside the field of the level
  have hout : ∀ f : BitVec 8, f.toNat ≤ 1 →
      f.setWidth 32 <<< 7 &&& 0xFFBF#32 = f.setWidth 32 <<< 7 := by decide
  have hkeep : 0xFF7F#32 &&& 0xFFBF#32 = 0xFF3F#32 := by decide
  rw [BitVec.and_or_distrib_right, BitVec.and_assoc, hkeep, hout sph hsph, hphase] at hlevel
  rw [hlevel, setField_low (by decide)]

theorem width_ret {datawidth : BitVec 8} (hlo : 4 ≤ datawidth.toNat)
    (hhi : datawidth.toNat ≤ 16) (ret : BitVec 32) :
    ret &&& 0xFFF0#32 ||| (datawidth.setWidth 32 - 1)
      = setField 0 4 (datawidth.setWidth 32 - 1) ret &&& mask 32 16 := by
  have hfits : (datawidth.setWidth 32 - 1) &&& mask 32 4 = datawidth.setWidth 32 - 1 := by
    rw [and_mask_eq_self_iff (by decide), BitVec.toNat_sub, BitVec.toNat_setWidth]
    simp
    omega
  have hset := and_or_eq_setField 0 4 16 (K := 0xFFF0#32) (by decide) (by decide) hfits ret
  rwa [BitVec.shiftLeft_zero] at hset

theorem not_gt_iff {a b : BitVec 8} : ¬ a > b ↔ a.toNat ≤ b.toNat := by
  rw [gt_iff_lt, BitVec.lt_def, Nat.not_lt]

/-- **The frame form accepted**: the documented fields are set, in the low half
of `CR0`. -/
theorem set_frameform_accepted {framemode spo sph datawidth : BitVec 8}
    (h : FrameArgs framemode spo sph datawidth) (s : Regs) :
    hi_ssp_set_frameform framemode spo sph datawidth s
      = (0, { s with CR0 := frameFields framemode spo sph datawidth s.CR0 &&& mask 32 16 }) := by
  obtain ⟨hmode, hclock, hlo, hhi⟩ := h
  have h1 : ¬ framemode > 3 := not_gt_iff.mpr hmode
  have h2 : ¬ (datawidth > 16 ∨ datawidth < 4) := by
    rw [not_or, not_gt_iff, BitVec.lt_def, Nat.not_lt]
    exact ⟨hhi, hlo⟩
  unfold hi_ssp_set_frameform frameFields
  simp only [if_neg h1, motorola_iff hmode, if_neg h2, width_ret hlo hhi]
  rw [form_ret hmode]
  by_cases hzero : framemode = 0
  · obtain ⟨hspo, hsph⟩ := hclock hzero
    have h3 : ¬ (framemode = 0 ∧ spo > 1) := fun hc => not_gt_iff.mpr hspo hc.2
    have h4 : ¬ (framemode = 0 ∧ sph > 1) := fun hc => not_gt_iff.mpr hsph hc.2
    rw [if_neg h3, if_neg h4, if_pos hzero, if_pos hzero, clock_ret hspo hsph,
      setField_low (by decide), setField_and_mask (by decide), setField_and_mask (by decide),
      setField_low (by decide)]
  · have h3 : ¬ (framemode = 0 ∧ spo > 1) := fun hc => hzero hc.1
    have h4 : ¬ (framemode = 0 ∧ sph > 1) := fun hc => hzero hc.1
    rw [if_neg h3, if_neg h4, if_neg hzero, if_neg hzero, setField_low (by decide)]

/-- **The frame form refused**: nothing has been written yet. -/
theorem set_frameform_refused {framemode spo sph datawidth : BitVec 8}
    (h : ¬ FrameArgs framemode spo sph datawidth) (s : Regs) :
    hi_ssp_set_frameform framemode spo sph datawidth s = (-1, s) := by
  unfold hi_ssp_set_frameform
  by_cases h1 : framemode > 3
  · rw [if_pos h1]
  have hmode : framemode.toNat ≤ 3 := not_gt_iff.mp h1
  simp only [if_neg h1, motorola_iff hmode]
  by_cases h2 : framemode = 0 ∧ spo > 1
  · rw [if_pos h2]
  by_cases h3 : framemode = 0 ∧ sph > 1
  · rw [if_neg h2, if_pos h3]
  rw [if_neg h2, if_neg h3, if_pos]
  -- the width is what is left to be wrong
  by_contra hwidth
  rw [not_or, not_gt_iff, BitVec.lt_def, Nat.not_lt] at hwidth
  refine h ⟨hmode, fun hzero => ⟨?_, ?_⟩, hwidth.2, hwidth.1⟩
  · exact not_gt_iff.mp fun hgt => h2 ⟨hzero, hgt⟩
  · exact not_gt_iff.mp fun hgt => h3 ⟨hzero, hgt⟩

theorem frameFields_lt_iff (framemode spo sph datawidth : BitVec 8) (CR0 : BitVec 32) :
    (frameFields framemode spo sph datawidth CR0).toNat < 2 ^ 16 ↔ CR0.toNat < 2 ^ 16 := by
  unfold frameFields
  rw [setField_lt_iff (by decide) (by decide)]
  split
  · rw [setField_lt_iff (by decide) (by decide), setField_lt_iff (by decide) (by decide),
      setField_lt_iff (by decide) (by decide)]
  · rw [setField_lt_iff (by decide) (by decide)]

/-! ## The clock rate -/

theorem scr_ret (scr : BitVec 8) (CR0 : BitVec 32) :
    CR0 &&& 0xFF#32 ||| scr.setWidth 32 <<< 8
      = setField 8 8 (scr.setWidth 32) CR0 &&& mask 32 16 :=
  and_or_eq_setField 8 8 16 (by decide) (by decide) (fits_of_le (by decide) scr.isLt) CR0

/-- The rate is there already. -/
theorem scr_ret_eq_self_iff (scr : BitVec 8) (CR0 : BitVec 32) :
    CR0 &&& 0xFF#32 ||| scr.setWidth 32 <<< 8 = CR0 ↔ CR0.toNat / 2 ^ 8 = scr.toNat := by
  have hscr := scr.isLt
  have hlow : CR0.toNat % 2 ^ 8 < 2 ^ 8 := Nat.mod_lt _ (by decide)
  have hff : (0xFF#32).toNat = 2 ^ 8 - 1 := by decide
  have hshift : (scr.setWidth 32 <<< 8).toNat = scr.toNat <<< 8 := by
    rw [BitVec.toNat_shiftLeft, BitVec.toNat_setWidth, Nat.shiftLeft_eq, Nat.shiftLeft_eq]
    omega
  rw [← BitVec.toNat_inj, BitVec.toNat_or, BitVec.toNat_and, hff, Nat.and_two_pow_sub_one_eq_mod,
    hshift, Nat.or_comm, ← Nat.shiftLeft_add_eq_or_of_lt hlow, Nat.shiftLeft_eq]
  omega

/-! ## When the calls are lawful -/

/-- Fields of the low half alone are set exactly when there is no upper half. -/
theorem low_eq_iff {r fields : BitVec 32} (h : fields.toNat < 2 ^ 16 ↔ r.toNat < 2 ^ 16) :
    fields &&& mask 32 16 = fields ↔ r.toNat < 2 ^ 16 := by
  rw [and_mask_eq_self_iff (by decide), h]

section Outcome

variable {s s' : Regs} {c : Call}

/-- A call that succeeds has to leave the fields updated. -/
theorem fieldsOrNothing_of_done (h : call s c = (0, s')) :
    FieldsOrNothing s c ↔ s' = fieldUpdate s c := by
  constructor
  · intro hc
    have hset := hc.succeeds (congrArg Prod.fst h)
    rwa [h] at hset
  · intro hset
    constructor
    · intro _
      rw [h, hset]
    · intro hret
      exact absurd (congrArg Prod.fst h) hret

/-- A call that fails has to leave the registers. -/
theorem fieldsOrNothing_of_refused (h : call s c = (-1, s')) :
    FieldsOrNothing s c ↔ s' = s := by
  have hret : (call s c).1 ≠ 0 := by
    rw [h]
    simp
  constructor
  · intro hc
    have hkept := hc.fails hret
    rwa [h] at hkept
  · intro hkept
    constructor
    · intro hzero
      exact absurd hzero hret
    · intro _
      rw [h, hkept]

theorem CR0_eq_iff {v w : BitVec 32} : { s with CR0 := v } = { s with CR0 := w } ↔ v = w := by
  simp

theorem CR1_eq_iff {v w : BitVec 32} : { s with CR1 := v } = { s with CR1 := w } ↔ v = w := by
  simp

end Outcome

theorem enable_iff (s : Regs) : FieldsOrNothing s .enable ↔ Lawful s .enable := by
  rw [fieldsOrNothing_of_done rfl, enable_CR1, fieldUpdate, CR1_eq_iff]
  exact low_eq_iff (enabledFields_lt_iff s.CR1)

theorem disable_lawful (s : Regs) : FieldsOrNothing s .disable := by
  rw [fieldsOrNothing_of_done rfl, fieldUpdate, hi_ssp_disable, CR1_eq_iff]
  exact and_not_bit_eq_setField 1 s.CR1

theorem set_frameform_iff (framemode spo sph datawidth : BitVec 8) (s : Regs) :
    FieldsOrNothing s (.set_frameform framemode spo sph datawidth) ↔
      Lawful s (.set_frameform framemode spo sph datawidth) := by
  by_cases hargs : FrameArgs framemode spo sph datawidth
  · have hcall : call s (.set_frameform framemode spo sph datawidth) = _ :=
      set_frameform_accepted hargs s
    rw [fieldsOrNothing_of_done hcall, fieldUpdate, CR0_eq_iff,
      low_eq_iff (frameFields_lt_iff framemode spo sph datawidth s.CR0)]
    constructor
    · intro h _
      exact h
    · intro h
      exact h hargs
  · have hcall : call s (.set_frameform framemode spo sph datawidth) = _ :=
      set_frameform_refused hargs s
    rw [fieldsOrNothing_of_refused hcall]
    constructor
    · intro _ h
      exact absurd h hargs
    · intro _
      rfl

theorem set_serialclock_iff (scr cpsdvsr : BitVec 8) (s : Regs) :
    FieldsOrNothing s (.set_serialclock scr cpsdvsr) ↔ Lawful s (.set_serialclock scr cpsdvsr) := by
  have hodd : ∀ b : BitVec 8, b &&& 0x1#8 ≠ 0 ↔ ¬ b.toNat % 2 = 0 := by decide
  simp only [Lawful]
  by_cases heven : cpsdvsr.toNat % 2 = 0
  · have hcall : call s (.set_serialclock scr cpsdvsr) = (0, { s with
        CR0 := setField 8 8 (scr.setWidth 32) s.CR0 &&& mask 32 16
        CPSR := cpsdvsr.setWidth 32 }) := by
      simp only [call, hi_ssp_set_serialclock, hodd, heven, not_true_eq_false, if_false, scr_ret]
    have hfield : 8 + 8 ≤ 16 := by decide
    rw [if_pos heven, fieldsOrNothing_of_done hcall,
      ← low_eq_iff (setField_lt_iff hfield (by decide) (scr.setWidth 32) s.CR0)]
    simp [fieldUpdate]
  · have hcall : call s (.set_serialclock scr cpsdvsr)
        = (-1, { s with CR0 := s.CR0 &&& 0xFF#32 ||| scr.setWidth 32 <<< 8 }) := by
      simp only [call, hi_ssp_set_serialclock, hodd, heven, not_false_eq_true, if_true]
    rw [if_neg heven, fieldsOrNothing_of_refused hcall, ← scr_ret_eq_self_iff]
    exact CR0_eq_iff

theorem alt_mode_set_iff (enable : BitVec 32) (s : Regs) :
    FieldsOrNothing s (.alt_mode_set enable) ↔ Lawful s (.alt_mode_set enable) := by
  have hbit : 0x40#32 = 1#32 <<< 6 := by decide
  have hbyte : 0xFF#32 = mask 32 8 := by decide
  by_cases hon : enable = 0
  · have hcall : call s (.alt_mode_set enable)
        = (0, { s with CR1 := setField 6 1 1#32 s.CR1 &&& mask 32 8 }) := by
      rw [← setField_and_mask (by decide), ← hbyte, ← or_bit_eq_setField, ← hbit]
      simp [call, hi_ssp_alt_mode_set, hon]
    have hlow : setField 6 1 1#32 s.CR1 &&& mask 32 8 = setField 6 1 1#32 s.CR1 ↔
        s.CR1.toNat < 2 ^ 8 := by
      rw [and_mask_eq_self_iff (by decide), setField_lt_iff (by decide) (by decide)]
    rw [fieldsOrNothing_of_done hcall]
    simp only [Lawful, fieldUpdate, hon, ne_eq, not_true_eq_false, false_or, if_false]
    rw [CR1_eq_iff]
    exact hlow
  · have hcall : call s (.alt_mode_set enable)
        = (0, { s with CR1 := setField 6 1 0#32 s.CR1 }) := by
      simp only [call, hi_ssp_alt_mode_set, if_pos hon, hbit]
      rw [and_not_bit_eq_setField]
    rw [fieldsOrNothing_of_done hcall, fieldUpdate, if_pos hon]
    exact iff_of_true rfl (.inl hon)

/-- **Every call**: it updates its fields or does nothing exactly when it is
lawful. -/
theorem fieldsOrNothing_iff (s : Regs) (c : Call) : FieldsOrNothing s c ↔ Lawful s c := by
  cases c with
  | enable => exact enable_iff s
  | disable => exact iff_of_true (disable_lawful s) trivial
  | set_frameform framemode spo sph datawidth =>
    exact set_frameform_iff framemode spo sph datawidth s
  | set_serialclock scr cpsdvsr => exact set_serialclock_iff scr cpsdvsr s
  | alt_mode_set enable => exact alt_mode_set_iff enable s

/-- An odd divisor is refused after the rate has been written. -/
theorem fieldsOrNothing_broken : ¬ ∀ (s : Regs) (c : Call), FieldsOrNothing s c := by
  intro h
  exact absurd ((h ⟨0, 0, 0⟩ (.set_serialclock 1 3)).fails (by decide)) (by decide)

end ExtDrv.Ssp
