import Mathlib.Data.BitVec

/-!
# Image adjustment of the video decoders (`tw2865.c`)

Up to four decoders on the I2C bus, each with four channels. The registers of a
channel lie in a page of sixteen, and an `IMAGE_ADJUST` request writes or reads
some of them. The chip number of a request is compared with the number of chips;
the channel number goes into the address as it is.
-/

namespace ExtDrv.Tw2865

/-! ## The chips -/

/-- The registers of the devices on the bus. -/
abbrev Regs := BitVec 8 → BitVec 8 → BitVec 8

/-- The module parameter `chips`, which `tw2865_module_init` checks. -/
abbrev Chips := { chips : Nat // 1 ≤ chips ∧ chips ≤ 4 }

/-- `TW2865_I2C_ADDR`. -/
def i2cAddr (chip_id : BitVec 8) : BitVec 8 :=
  [0x50#8, 0x54#8, 0x52#8, 0x56#8].getD chip_id.toNat 0

/-- `tw2865_byte_write`: nothing is written to another device. -/
def byteWrite (chip_addr addr data : BitVec 8) (s : Regs) : Regs :=
  if chip_addr = 0x50 ∨ chip_addr = 0x54 ∨ chip_addr = 0x52 ∨ chip_addr = 0x56 then
    Function.update s chip_addr (Function.update (s chip_addr) addr data)
  else s

/-! ## The requests -/

/-- `tw2865_image_adjust`. -/
structure ImageAdjust where
  chip : BitVec 8
  chn : BitVec 8
  hue : BitVec 8
  contrast : BitVec 8
  brightness : BitVec 8
  saturation : BitVec 8
  item_sel : BitVec 32
  deriving DecidableEq, Repr

def TW2865_SET_HUE : BitVec 32 := 0x01
def TW2865_SET_CONTRAST : BitVec 32 := 0x02
def TW2865_SET_BRIGHT : BitVec 32 := 0x04
def TW2865_SET_SATURATION : BitVec 32 := 0x08

/-- `TW2865_SET_IMAGE_ADJUST`; `argp` is `none` where the request cannot be copied. -/
def setImageAdjust (chips : Chips) (argp : Option ImageAdjust) (s : Regs) : Int × Regs :=
  match argp with
  | none => (-1, s)
  | some cfg =>
    if chips.val ≤ cfg.chip.toNat then (-1, s)
    else
      let i2c_addr := i2cAddr cfg.chip
      let s := if cfg.item_sel &&& TW2865_SET_HUE ≠ 0 then
        byteWrite i2c_addr (0x06 + cfg.chn * 0x10) cfg.hue s else s
      let s := if cfg.item_sel &&& TW2865_SET_CONTRAST ≠ 0 then
        byteWrite i2c_addr (0x02 + cfg.chn * 0x10) cfg.contrast s else s
      let s := if cfg.item_sel &&& TW2865_SET_BRIGHT ≠ 0 then
        byteWrite i2c_addr (0x01 + cfg.chn * 0x10) cfg.brightness s else s
      let s := if cfg.item_sel &&& TW2865_SET_SATURATION ≠ 0 then
        byteWrite i2c_addr (0x05 + cfg.chn * 0x10) cfg.saturation
          (byteWrite i2c_addr (0x04 + cfg.chn * 0x10) cfg.saturation s) else s
      (0, s)

/-- `TW2865_GET_IMAGE_ADJUST`: the return value, and what is copied out. -/
def getImageAdjust (chips : Chips) (argp : Option ImageAdjust) (writable : Bool) (s : Regs) :
    Int × Option ImageAdjust :=
  match argp with
  | none => (-1, none)
  | some cfg =>
    if chips.val ≤ cfg.chip.toNat then (-1, none)
    else
      let i2c_addr := i2cAddr cfg.chip
      let cfg := if cfg.item_sel &&& TW2865_SET_HUE ≠ 0 then
        { cfg with hue := s i2c_addr (0x06 + cfg.chn * 0x10) } else cfg
      let cfg := if cfg.item_sel &&& TW2865_SET_CONTRAST ≠ 0 then
        { cfg with contrast := s i2c_addr (0x02 + cfg.chn * 0x10) } else cfg
      let cfg := if cfg.item_sel &&& TW2865_SET_BRIGHT ≠ 0 then
        { cfg with brightness := s i2c_addr (0x01 + cfg.chn * 0x10) } else cfg
      let cfg := if cfg.item_sel &&& TW2865_SET_SATURATION ≠ 0 then
        { cfg with saturation := s i2c_addr (0x04 + cfg.chn * 0x10) } else cfg
      if writable then (0, some cfg) else (-1, none)

/-! ## What a request is for -/

inductive Item where
  | HUE
  | CONTRAST
  | BRIGHT
  | SATURATION
  deriving DecidableEq, Repr

namespace Item

def mask : Item → BitVec 32
  | HUE => TW2865_SET_HUE
  | CONTRAST => TW2865_SET_CONTRAST
  | BRIGHT => TW2865_SET_BRIGHT
  | SATURATION => TW2865_SET_SATURATION

/-- The register of an item that is read, in the page of a channel. -/
def reg : Item → BitVec 8
  | HUE => 0x06
  | CONTRAST => 0x02
  | BRIGHT => 0x01
  | SATURATION => 0x04

def value (cfg : ImageAdjust) : Item → BitVec 8
  | HUE => cfg.hue
  | CONTRAST => cfg.contrast
  | BRIGHT => cfg.brightness
  | SATURATION => cfg.saturation

end Item

namespace ImageAdjust

def Selects (cfg : ImageAdjust) (item : Item) : Prop := cfg.item_sel &&& item.mask ≠ 0

instance (cfg : ImageAdjust) (item : Item) : Decidable (cfg.Selects item) :=
  inferInstanceAs (Decidable (_ ≠ _))

/-- The chip is one of those there are, and the channel one of its four. -/
def InRange (chips : Chips) (cfg : ImageAdjust) : Prop :=
  cfg.chip.toNat < chips.val ∧ cfg.chn.toNat < 4

instance (chips : Chips) (cfg : ImageAdjust) : Decidable (cfg.InRange chips) :=
  inferInstanceAs (Decidable (_ ∧ _))

/-- The registers of the channel for brightness, contrast, sharpness, saturation
and hue. -/
def Own (cfg : ImageAdjust) (d r : BitVec 8) : Prop :=
  d = i2cAddr cfg.chip ∧
    0x10 * cfg.chn.toNat + 1 ≤ r.toNat ∧ r.toNat ≤ 0x10 * cfg.chn.toNat + 6

end ImageAdjust

/-- **What is asked of a request**: a number out of range is rejected; where the
request succeeds, only registers of the channel change, and they are read back
as they were set. -/
structure Adjusts (chips : Chips) (cfg : ImageAdjust) (s : Regs) : Prop where
  rejected : ¬ cfg.InRange chips → setImageAdjust chips (some cfg) s = (-1, s) ∧
    ∀ writable, getImageAdjust chips (some cfg) writable s = (-1, none)
  frame : (setImageAdjust chips (some cfg) s).1 = 0 →
    ∀ d r, ¬ cfg.Own d r → (setImageAdjust chips (some cfg) s).2 d r = s d r
  readBack : (setImageAdjust chips (some cfg) s).1 = 0 →
    ∀ g : ImageAdjust, g.chip = cfg.chip → g.chn = cfg.chn →
      ∃ shown, getImageAdjust chips (some g) true (setImageAdjust chips (some cfg) s).2
          = (0, some shown) ∧
        ∀ item, cfg.Selects item → g.Selects item → item.value shown = item.value cfg

/-! ## Registers behind a request -/

theorem i2cAddr_device : ∀ chip : BitVec 8, chip.toNat < 4 → i2cAddr chip = 0x50 ∨
    i2cAddr chip = 0x54 ∨ i2cAddr chip = 0x52 ∨ i2cAddr chip = 0x56 := by
  decide

section Chip

variable {chips : Chips} {cfg : ImageAdjust} {s : Regs}

theorem byteWrite_apply {chip : BitVec 8} (h : chip.toNat < 4) (addr data : BitVec 8) (s : Regs)
    (d r : BitVec 8) : byteWrite (i2cAddr chip) addr data s d r =
      if d = i2cAddr chip ∧ r = addr then data else s d r := by
  rw [byteWrite, if_pos (i2cAddr_device chip h)]
  by_cases hd : d = i2cAddr chip
  · subst hd
    by_cases hr : r = addr
    · simp [hr]
    · simp [hr]
  · simp [hd]

/-- A step of the routine. -/
theorem selected_apply {chip : BitVec 8} (h : chip.toNat < 4) (c : Prop) [Decidable c]
    (addr data : BitVec 8) (s : Regs) (d r : BitVec 8) :
    (if c then byteWrite (i2cAddr chip) addr data s else s) d r =
      if c ∧ d = i2cAddr chip ∧ r = addr then data else s d r := by
  by_cases hc : c
  · rw [if_pos hc, byteWrite_apply h]
    simp only [hc, true_and]
  · rw [if_neg hc, if_neg (fun h => hc h.1)]

/-- The step that writes two registers. -/
theorem selected_both {chip : BitVec 8} (h : chip.toNat < 4) (c : Prop) [Decidable c]
    (addr addr' data : BitVec 8) (s : Regs) (d r : BitVec 8) :
    (if c then byteWrite (i2cAddr chip) addr' data (byteWrite (i2cAddr chip) addr data s)
      else s) d r =
      if c ∧ d = i2cAddr chip ∧ (r = addr ∨ r = addr') then data else s d r := by
  by_cases hc : c
  · rw [if_pos hc, byteWrite_apply h, byteWrite_apply h]
    by_cases hd : d = i2cAddr chip
    · by_cases hr : r = addr <;> by_cases hr' : r = addr' <;> simp [hc, hd, hr, hr']
    · simp [hd]
  · rw [if_neg hc, if_neg (fun h => hc h.1)]

/-- What a request leaves in every register. -/
theorem set_apply (h : cfg.chip.toNat < chips.val) (d r : BitVec 8) :
    (setImageAdjust chips (some cfg) s).2 d r =
      if cfg.Selects .SATURATION ∧ d = i2cAddr cfg.chip ∧
          (r = 0x04 + cfg.chn * 0x10 ∨ r = 0x05 + cfg.chn * 0x10) then cfg.saturation
      else if cfg.Selects .BRIGHT ∧ d = i2cAddr cfg.chip ∧ r = 0x01 + cfg.chn * 0x10 then
        cfg.brightness
      else if cfg.Selects .CONTRAST ∧ d = i2cAddr cfg.chip ∧ r = 0x02 + cfg.chn * 0x10 then
        cfg.contrast
      else if cfg.Selects .HUE ∧ d = i2cAddr cfg.chip ∧ r = 0x06 + cfg.chn * 0x10 then cfg.hue
      else s d r := by
  have h4 := Nat.lt_of_lt_of_le h chips.property.2
  simp only [setImageAdjust, if_neg (Nat.not_le.mpr h), selected_both h4, selected_apply h4]
  rfl

theorem set_rejected (h : chips.val ≤ cfg.chip.toNat) :
    setImageAdjust chips (some cfg) s = (-1, s) := by
  simp only [setImageAdjust, if_pos h]

theorem get_rejected (h : chips.val ≤ cfg.chip.toNat) (writable : Bool) :
    getImageAdjust chips (some cfg) writable s = (-1, none) := by
  simp only [getImageAdjust, if_pos h]

theorem set_succeeds (h : cfg.chip.toNat < chips.val) :
    (setImageAdjust chips (some cfg) s).1 = 0 := by
  simp only [setImageAdjust, if_neg (Nat.not_le.mpr h)]

/-- The register of an item holds its value if the item was selected. -/
theorem set_reg (h : cfg.chip.toNat < chips.val) (item : Item) :
    (setImageAdjust chips (some cfg) s).2 (i2cAddr cfg.chip) (item.reg + cfg.chn * 0x10) =
      if cfg.Selects item then item.value cfg
      else s (i2cAddr cfg.chip) (item.reg + cfg.chn * 0x10) := by
  rw [set_apply h]
  cases item <;> simp [Item.reg, Item.value]

/-- Any register outside the page of the channel stays, and so does any in front of
or behind the ones that are written. -/
theorem set_other (h : cfg.chip.toNat < chips.val) {d r : BitVec 8}
    (hne : d = i2cAddr cfg.chip → ∀ k : BitVec 8, 1 ≤ k.toNat → k.toNat ≤ 6 →
      r ≠ k + cfg.chn * 0x10) :
    (setImageAdjust chips (some cfg) s).2 d r = s d r := by
  rw [set_apply h]
  rw [if_neg, if_neg, if_neg, if_neg]
  · rintro ⟨-, hd, hr⟩
    exact hne hd _ (by decide) (by decide) hr
  · rintro ⟨-, hd, hr⟩
    exact hne hd _ (by decide) (by decide) hr
  · rintro ⟨-, hd, hr⟩
    exact hne hd _ (by decide) (by decide) hr
  · rintro ⟨-, hd, hr | hr⟩
    · exact hne hd _ (by decide) (by decide) hr
    · exact hne hd _ (by decide) (by decide) hr

/-- What a request reads: the items it selects from their registers, the others from
itself. -/
theorem get_succeeds (h : cfg.chip.toNat < chips.val) :
    ∃ shown, getImageAdjust chips (some cfg) true s = (0, some shown) ∧ ∀ item : Item,
      item.value shown = if cfg.Selects item then
        s (i2cAddr cfg.chip) (item.reg + cfg.chn * 0x10) else item.value cfg := by
  simp only [getImageAdjust, if_neg (Nat.not_le.mpr h), if_true]
  refine ⟨_, rfl, fun item => ?_⟩
  by_cases hhue : cfg.item_sel &&& TW2865_SET_HUE = 0#32 <;>
    by_cases hcontrast : cfg.item_sel &&& TW2865_SET_CONTRAST = 0#32 <;>
    by_cases hbright : cfg.item_sel &&& TW2865_SET_BRIGHT = 0#32 <;>
    by_cases hsat : cfg.item_sel &&& TW2865_SET_SATURATION = 0#32 <;>
    cases item <;>
    simp [Item.value, Item.reg, Item.mask, ImageAdjust.Selects, hhue, hcontrast, hbright, hsat]

end Chip

/-! ## Which requests do what is asked -/

/-- Where a register of a page lies. -/
theorem page_toNat {k chn : BitVec 8} (hk : k.toNat ≤ 6) (hchn : chn.toNat < 4) :
    (k + chn * 0x10).toNat = 0x10 * chn.toNat + k.toNat := by
  bv_omega

/-- **Every request** for a chip that is not there, or a channel that is, does what is
asked, and no other. -/
theorem adjusts_iff (chips : Chips) (cfg : ImageAdjust) (s : Regs) :
    Adjusts chips cfg s ↔ chips.val ≤ cfg.chip.toNat ∨ cfg.chn.toNat < 4 := by
  constructor
  · intro h
    by_contra hnot
    obtain ⟨hchip, hchn⟩ := not_or.mp hnot
    have hrejected := (h.rejected (fun hin => hchn hin.2)).1
    have hsucceeds := set_succeeds (s := s) (Nat.not_le.mp hchip)
    rw [hrejected] at hsucceeds
    exact absurd hsucceeds (by simp)
  · intro h
    by_cases hchip : chips.val ≤ cfg.chip.toNat
    · have hret : ¬ (setImageAdjust chips (some cfg) s).1 = 0 := by
        rw [set_rejected hchip]
        simp
      exact ⟨fun _ => ⟨set_rejected hchip, get_rejected hchip⟩, fun hzero => absurd hzero hret,
        fun hzero => absurd hzero hret⟩
    · have hchn := h.resolve_left hchip
      rw [Nat.not_le] at hchip
      constructor
      case rejected => exact fun hout => absurd ⟨hchip, hchn⟩ hout
      case frame =>
        intro _ d r hown
        apply set_other hchip
        rintro hd k hlow hhigh rfl
        refine hown ⟨hd, ?_⟩
        rw [page_toNat hhigh hchn]
        omega
      case readBack =>
        intro _ g hgchip hgchn
        obtain ⟨shown, hget, hshown⟩ := get_succeeds
          (s := (setImageAdjust chips (some cfg) s).2) (hgchip ▸ hchip : g.chip.toNat < chips.val)
        refine ⟨shown, hget, fun item hsel hgsel => ?_⟩
        rw [hshown, if_pos hgsel, hgchip, hgchn, set_reg hchip, if_pos hsel]

/-- Channel 14 of a chip has its registers where those of the audio are. -/
theorem adjusts_broken :
    ¬ ∀ (chips : Chips) (cfg : ImageAdjust) (s : Regs), Adjusts chips cfg s := by
  intro h
  have hrejected := (h ⟨4, by decide⟩ ⟨0, 14, 0, 0, 0, 0, TW2865_SET_BRIGHT⟩
    fun _ _ => 0xff).rejected (by decide)
  exact absurd (congrArg Prod.fst hrejected.1) (by decide)

end ExtDrv.Tw2865
