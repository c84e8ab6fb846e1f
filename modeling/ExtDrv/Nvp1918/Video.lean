import Mathlib.Data.BitVec

/-!
# Picture control of the video decoders (`nvp1918_ver0.6.0/video.c`)

Two chips of eight channels. A control of a channel is a register of bank 0:
one of four next to each other for the channels 0 to 3 of a chip, and one of
another four for 4 to 7. The four routines are copies of one another and differ
in the registers, the value, and in how the channel number is turned into
one of the second chip, where two of the copies go wrong.
-/

namespace ExtDrv.Nvp1918

/-! ## The chips -/

/-- A decoder: the bank selected, and the registers of every bank. -/
@[ext]
structure Chip where
  bank : BitVec 8
  regs : BitVec 8 → BitVec 8 → BitVec 8

/-- The chips by their addresses on the bus. -/
abbrev Bus := BitVec 8 → Chip

/-- A call of `gpio_i2c_write`. -/
structure Write where
  devaddress : BitVec 8
  address : BitVec 8
  value : BitVec 8
  deriving DecidableEq, Repr

/-- Register 0xFF of every bank selects the bank. -/
def Chip.write (c : Chip) (address value : BitVec 8) : Chip :=
  if address = 0xFF then { c with bank := value }
  else
    { c with
      regs := Function.update c.regs c.bank (Function.update (c.regs c.bank) address value) }

/-- `gpio_i2c_write`. -/
def Bus.write (s : Bus) (w : Write) : Bus :=
  Function.update s w.devaddress ((s w.devaddress).write w.address w.value)

/-- The writes of a routine, in order. -/
def Bus.run (s : Bus) (ws : List Write) : Bus := ws.foldl Bus.write s

/-! ## The source -/

def SET_ALL_CH : BitVec 32 := 0xff

/-- `vdec_slave_addr[0]` and `vdec_slave_addr[1]`. -/
def slaveAddr (i : Fin 2) : BitVec 8 := if i = 0 then 0x60 else 0x62

/-- `v_format`, which indexes the tables. -/
inductive Format where
  | NTSC
  | PAL
  deriving DecidableEq, Repr

def contrastTbl : Format → BitVec 32
  | .NTSC => 0x76
  | .PAL => 0x6b

def brightnessTbl : Format → BitVec 32
  | .NTSC => 0xf8
  | .PAL => 0x08

def hueTbl : Format → BitVec 32
  | .NTSC => 0x00
  | .PAL => 0x00

def saturationTbl : Format → BitVec 32
  | .NTSC => 0x80
  | .PAL => 0x80

/-- `(ch/4)?(hi+(ch%4)):(lo+(ch%4))`, as the address that is passed on. -/
def channelAddr (lo hi ch : BitVec 32) : BitVec 8 :=
  (if ch / 4 ≠ 0 then hi + ch % 4 else lo + ch % 4).setWidth 8

/-- The chips the driver counts, of the two there can be. -/
abbrev ChipCount := Fin 3

/-- The four routines: the registers of the control are those from `lo` and from
`hi` on, `second` is what is made of the number of a channel that is not of the
first chip, and `data` is the value written. -/
def videoSet (lo hi : BitVec 32) (second : BitVec 32 → BitVec 32) (data : BitVec 8)
    (vdec_cnt : ChipCount) (ch : BitVec 32) : List Write :=
  if ch ≠ SET_ALL_CH then
    if ch < 8 then [⟨slaveAddr 0, 0xFF, 0x00⟩, ⟨slaveAddr 0, channelAddr lo hi ch, data⟩]
    else
      let ch := second ch
      [⟨slaveAddr 1, 0xFF, 0x00⟩, ⟨slaveAddr 1, channelAddr lo hi ch, data⟩]
  else
    ([0, 1].take vdec_cnt).flatMap fun i =>
      ⟨slaveAddr i, 0xFF, 0x00⟩ :: (List.range 8).map fun num =>
        -- `num/4%2` is `num/4` for the numbers there are
        ⟨slaveAddr i, channelAddr lo hi (BitVec.ofNat 32 num), data⟩

/-- What contrast and brightness write for a value. -/
def centered (center value : BitVec 32) : BitVec 8 :=
  (if value ≥ 100 then center + value - 100 else center + (0xff - (98 - value))).setWidth 8

def vdec_video_set_contrast (vdec_cnt : ChipCount) (ch value : BitVec 32) (v_format : Format) :
    List Write :=
  videoSet 0x10 0x90 (fun ch => ch - 8) (centered (contrastTbl v_format) value) vdec_cnt ch

def vdec_video_set_brightness (vdec_cnt : ChipCount) (ch value : BitVec 32) (v_format : Format) :
    List Write :=
  -- the source has `ch=-8`
  videoSet 0x0c 0x8c (fun _ => -8) (centered (brightnessTbl v_format) value) vdec_cnt ch

def vdec_video_set_saturation (vdec_cnt : ChipCount) (ch value : BitVec 32) (v_format : Format) :
    List Write :=
  -- the number is left as it is
  videoSet 0x3c 0xbc (fun ch => ch) ((saturationTbl v_format + value - 100).setWidth 8) vdec_cnt ch

def vdec_video_set_hue (vdec_cnt : ChipCount) (ch value : BitVec 32) (v_format : Format) :
    List Write :=
  videoSet 0x40 0xc0 (fun ch => ch - 8) ((hueTbl v_format + value - 100).setWidth 8) vdec_cnt ch

/-! ## The controls -/

inductive Control where
  | contrast
  | brightness
  | saturation
  | hue
  deriving DecidableEq, Repr

namespace Control

/-- The routine of a control. -/
def set : Control → ChipCount → BitVec 32 → BitVec 32 → Format → List Write
  | contrast => vdec_video_set_contrast
  | brightness => vdec_video_set_brightness
  | saturation => vdec_video_set_saturation
  | hue => vdec_video_set_hue

/-- The value the routine writes for `value`. -/
def data (value : BitVec 32) (v_format : Format) : Control → BitVec 8
  | contrast => centered (contrastTbl v_format) value
  | brightness => centered (brightnessTbl v_format) value
  | saturation => (saturationTbl v_format + value - 100).setWidth 8
  | hue => (hueTbl v_format + value - 100).setWidth 8

/-- The register of the first channel of a chip, and of the fifth. -/
def base : Control → BitVec 8 × BitVec 8
  | contrast => (0x10, 0x90)
  | brightness => (0x0c, 0x8c)
  | saturation => (0x3c, 0xbc)
  | hue => (0x40, 0xc0)

/-- The register of channel `k` of a chip. -/
def channelReg (c : Control) (k : Fin 8) : BitVec 8 :=
  if k.val < 4 then c.base.1 + BitVec.ofNat 8 k else c.base.2 + BitVec.ofNat 8 (k - 4)

end Control

/-- The chip of a channel. -/
def chipOf (ch : Fin 16) : Fin 2 := ⟨ch / 8, by omega⟩

/-- The number of a channel on its chip. -/
def onChip (ch : Fin 16) : Fin 8 := ⟨ch % 8, by omega⟩

/-- The routine for one channel writes the register of the channel in bank 0 of
its chip, and nothing else. -/
def WritesOwn (c : Control) (vdec_cnt : ChipCount) (ch : Fin 16) (value : BitVec 32)
    (v_format : Format) : Prop :=
  c.set vdec_cnt (BitVec.ofNat 32 ch) value v_format =
    [⟨slaveAddr (chipOf ch), 0xFF, 0x00⟩,
      ⟨slaveAddr (chipOf ch), c.channelReg (onChip ch), c.data value v_format⟩]

/-- The routine for all channels leaves what the routine for one channel leaves
that is applied to every channel in turn. -/
def AllAsEach (c : Control) (vdec_cnt : ChipCount) (value : BitVec 32) (v_format : Format)
    (s : Bus) : Prop :=
  s.run (c.set vdec_cnt SET_ALL_CH value v_format) =
    s.run ((List.finRange 16).flatMap fun ch : Fin 16 =>
      c.set vdec_cnt (BitVec.ofNat 32 ch) value v_format)

/-- The channels whose own register is written: all for contrast and hue. Of the
second chip brightness reaches only the fifth channel, and saturation the last
four. -/
def Control.Reaches : Control → Fin 16 → Prop
  | .contrast, _ => True
  | .brightness, ch => ch.val < 8 ∨ ch.val = 12
  | .saturation, ch => ch.val < 8 ∨ 12 ≤ ch.val
  | .hue, _ => True

instance (c : Control) (ch : Fin 16) : Decidable (c.Reaches ch) :=
  match c with
  | .contrast => inferInstanceAs (Decidable True)
  | .brightness => inferInstanceAs (Decidable (_ ∨ _))
  | .saturation => inferInstanceAs (Decidable (_ ∨ _))
  | .hue => inferInstanceAs (Decidable True)

/-- On a chip the driver counts, the channels that are not reached hold the value
already; on one it does not count, bank 0 is selected and the channels that are
reached hold it. -/
structure Settled (c : Control) (vdec_cnt : ChipCount) (v : BitVec 8) (s : Bus) : Prop where
  counted : ∀ ch, (chipOf ch).val < vdec_cnt → ¬ c.Reaches ch →
    (s (slaveAddr (chipOf ch))).regs 0 (c.channelReg (onChip ch)) = v
  bank : ∀ i : Fin 2, ¬ i.val < vdec_cnt → (s (slaveAddr i)).bank = 0
  uncounted : ∀ ch, ¬ (chipOf ch).val < vdec_cnt → c.Reaches ch →
    (s (slaveAddr (chipOf ch))).regs 0 (c.channelReg (onChip ch)) = v

/-! ## Registers of bank 0 -/

/-- The chip with bank 0 selected and the registers `rs` of it set to `v`. -/
def Chip.setRegs (c : Chip) (rs : List (BitVec 8)) (v : BitVec 8) : Chip where
  bank := 0
  regs b a := if b = 0 ∧ rs.contains a = true then v else c.regs b a

theorem Chip.setRegs_regs (c : Chip) (rs : List (BitVec 8)) (v b a : BitVec 8) :
    (c.setRegs rs v).regs b a = if b = 0 ∧ a ∈ rs then v else c.regs b a := by
  simp only [setRegs, List.contains_iff_mem]

theorem Chip.setRegs_nil {c : Chip} (h : c.bank = 0) (v : BitVec 8) : c.setRegs [] v = c := by
  apply Chip.ext
  · exact h.symm
  · simp [setRegs]

theorem Chip.setRegs_setRegs (c : Chip) (rs rs' : List (BitVec 8)) (v : BitVec 8) :
    (c.setRegs rs v).setRegs rs' v = c.setRegs (rs ++ rs') v := by
  apply Chip.ext
  · rfl
  · funext b a
    simp only [setRegs_regs, List.mem_append]
    by_cases hb : b = 0
    · by_cases h1 : a ∈ rs <;> by_cases h2 : a ∈ rs' <;> simp [hb, h1, h2]
    · simp only [hb, false_and, if_false]

/-- A write to a register of bank 0. -/
theorem Chip.write_of_bank {c : Chip} (h : c.bank = 0) {r : BitVec 8} (hr : r ≠ 0xFF)
    (v : BitVec 8) : c.write r v = c.setRegs [r] v := by
  apply Chip.ext
  · rw [Chip.write, if_neg hr]
    exact h
  · funext b a
    simp only [Chip.write, if_neg hr, setRegs_regs, h, List.mem_singleton]
    by_cases hb : b = 0
    · subst hb
      by_cases ha : a = r
      · simp [ha]
      · simp [ha]
    · rw [Function.update_of_ne hb, if_neg (fun h => hb h.1)]

theorem Bus.run_append (s : Bus) (ws ws' : List Write) :
    s.run (ws ++ ws') = (s.run ws).run ws' :=
  List.foldl_append

theorem Bus.run_cons (s : Bus) (w : Write) (ws : List Write) :
    s.run (w :: ws) = (s.write w).run ws := rfl

/-- Registers of bank 0 written one after another. -/
theorem Bus.run_writes {s : Bus} {d : BitVec 8} (h : (s d).bank = 0) {rs : List (BitVec 8)}
    (hrs : (0xFF : BitVec 8) ∉ rs) (v : BitVec 8) :
    s.run (rs.map fun r => ⟨d, r, v⟩) = Function.update s d ((s d).setRegs rs v) := by
  induction rs generalizing s with
  | nil => rw [Chip.setRegs_nil h, Function.update_eq_self]; rfl
  | cons r rs ih =>
    rw [List.mem_cons, not_or] at hrs
    have hwrite : s.write ⟨d, r, v⟩ = Function.update s d ((s d).setRegs [r] v) := by
      rw [Bus.write, Chip.write_of_bank h (Ne.symm hrs.1)]
    rw [List.map_cons, run_cons, hwrite, ih (by simp [Chip.setRegs]) hrs.2,
      Function.update_idem, Function.update_self, Chip.setRegs_setRegs]
    rfl

/-- **Bank 0 selected, then registers of it written.** -/
theorem Bus.run_select (s : Bus) (d : BitVec 8) {rs : List (BitVec 8)}
    (hrs : (0xFF : BitVec 8) ∉ rs) (v : BitVec 8) :
    s.run (⟨d, 0xFF, 0x00⟩ :: rs.map fun r => ⟨d, r, v⟩) =
      Function.update s d ((s d).setRegs rs v) := by
  have hsel : s.write ⟨d, 0xFF, 0x00⟩ = Function.update s d { s d with bank := 0 } := rfl
  rw [run_cons, hsel, run_writes (by simp) hrs, Function.update_idem, Function.update_self]
  rfl

/-- Bank 0 selected anew for every register. -/
theorem Bus.run_each (s : Bus) (d r : BitVec 8) {rs : List (BitVec 8)}
    (hrs : (0xFF : BitVec 8) ∉ r :: rs) (v : BitVec 8) :
    s.run ((r :: rs).flatMap fun r => [⟨d, 0xFF, 0x00⟩, ⟨d, r, v⟩]) =
      Function.update s d ((s d).setRegs (r :: rs) v) := by
  induction rs generalizing s r with
  | nil => exact s.run_select d hrs v
  | cons q rs ih =>
    have hr : (0xFF : BitVec 8) ∉ [r] := fun h => hrs (by simp_all)
    have hq : (0xFF : BitVec 8) ∉ q :: rs := fun h => hrs (List.mem_cons_of_mem r h)
    rw [List.flatMap_cons, run_append, ih _ q hq]
    have hone := s.run_select d hr v
    rw [List.map_cons, List.map_nil] at hone
    rw [hone, Function.update_idem, Function.update_self, Chip.setRegs_setRegs]
    rfl

/-! ## The programs of the routines -/

namespace Control

def lo : Control → BitVec 32
  | contrast => 0x10
  | brightness => 0x0c
  | saturation => 0x3c
  | hue => 0x40

def hi : Control → BitVec 32
  | contrast => 0x90
  | brightness => 0x8c
  | saturation => 0xbc
  | hue => 0xc0

/-- What is made of the number of a channel that is not of the first chip. -/
def second : Control → BitVec 32 → BitVec 32
  | contrast => fun ch => ch - 8
  | brightness => fun _ => -8
  | saturation => fun ch => ch
  | hue => fun ch => ch - 8

/-- The register a routine sends the value of one channel to. -/
def sentTo (c : Control) (ch : Fin 16) : BitVec 8 :=
  channelAddr c.lo c.hi (if ch.val < 8 then BitVec.ofNat 32 ch else c.second (BitVec.ofNat 32 ch))

theorem set_eq (c : Control) (vdec_cnt : ChipCount) (ch value : BitVec 32) (v_format : Format) :
    c.set vdec_cnt ch value v_format =
      videoSet c.lo c.hi c.second (c.data value v_format) vdec_cnt ch := by
  cases c <;> rfl

theorem set_single (c : Control) (vdec_cnt : ChipCount) (ch : Fin 16) (value : BitVec 32)
    (v_format : Format) : c.set vdec_cnt (BitVec.ofNat 32 ch) value v_format =
      [⟨slaveAddr (chipOf ch), 0xFF, 0x00⟩,
        ⟨slaveAddr (chipOf ch), c.sentTo ch, c.data value v_format⟩] := by
  have hone : ∀ ch : Fin 16, BitVec.ofNat 32 ch ≠ SET_ALL_CH := by decide
  have hfirst : ∀ ch : Fin 16, BitVec.ofNat 32 ch < 8 ↔ ch.val < 8 := by decide
  have hchip : ∀ ch : Fin 16, chipOf ch = if ch.val < 8 then 0 else 1 := by decide
  rw [set_eq, videoSet, if_pos (hone ch), hchip, sentTo]
  by_cases h : ch.val < 8
  · rw [if_pos ((hfirst ch).mpr h), if_pos h, if_pos h]
  · rw [if_neg (mt (hfirst ch).mp h), if_neg h, if_neg h]

theorem sentTo_eq_iff (c : Control) : ∀ ch,
    c.sentTo ch = c.channelReg (onChip ch) ↔ c.Reaches ch := by
  cases c <;> decide

/-- All the registers of a control on a chip. -/
def allRegs (c : Control) : List (BitVec 8) := (List.finRange 8).map c.channelReg

theorem set_all (c : Control) (vdec_cnt : ChipCount) (value : BitVec 32) (v_format : Format) :
    c.set vdec_cnt SET_ALL_CH value v_format =
      ([0, 1].take vdec_cnt).flatMap fun i =>
        ⟨slaveAddr i, 0xFF, 0x00⟩ :: c.allRegs.map fun r =>
          ⟨slaveAddr i, r, c.data value v_format⟩ := by
  rw [set_eq, videoSet, if_neg (by decide)]
  cases c <;> rfl

/-- The registers the routine sends to on a chip when it is applied to every
channel. -/
def sentRegs (c : Control) (i : Fin 2) : List (BitVec 8) :=
  ((List.finRange 16).filter fun ch => chipOf ch = i).map c.sentTo

theorem set_each (c : Control) (vdec_cnt : ChipCount) (value : BitVec 32) (v_format : Format) :
    ((List.finRange 16).flatMap fun ch : Fin 16 =>
        c.set vdec_cnt (BitVec.ofNat 32 ch) value v_format) =
      [0, 1].flatMap fun i => (c.sentRegs i).flatMap fun r =>
        [⟨slaveAddr i, 0xFF, 0x00⟩, ⟨slaveAddr i, r, c.data value v_format⟩] := by
  have hset : (fun ch : Fin 16 => c.set vdec_cnt (BitVec.ofNat 32 ch) value v_format) =
      fun ch => [⟨slaveAddr (chipOf ch), 0xFF, 0x00⟩,
        ⟨slaveAddr (chipOf ch), c.sentTo ch, c.data value v_format⟩] :=
    funext fun ch => c.set_single vdec_cnt ch value v_format
  rw [hset]
  rfl

/-! ## What they leave -/

theorem mem_allRegs (c : Control) (i : Fin 2) (r : BitVec 8) :
    r ∈ c.allRegs ↔ ∃ ch, chipOf ch = i ∧ c.channelReg (onChip ch) = r := by
  have hchannel : ∀ (i : Fin 2) (k : Fin 8), ∃ ch, chipOf ch = i ∧ onChip ch = k := by decide
  rw [allRegs, List.mem_map]
  constructor
  · rintro ⟨k, -, hk⟩
    obtain ⟨ch, hi, rfl⟩ := hchannel i k
    exact ⟨ch, hi, hk⟩
  · rintro ⟨ch, -, hr⟩
    exact ⟨onChip ch, List.mem_finRange _, hr⟩

/-- What is sent for a channel that is not reached goes to another channel of its
chip that is. -/
theorem sentTo_reached (c : Control) : ∀ ch, ∃ ch',
    chipOf ch' = chipOf ch ∧ c.Reaches ch' ∧ c.channelReg (onChip ch') = c.sentTo ch := by
  cases c <;> decide

theorem mem_sentRegs (c : Control) (i : Fin 2) (r : BitVec 8) :
    r ∈ c.sentRegs i ↔ ∃ ch, chipOf ch = i ∧ c.Reaches ch ∧ c.channelReg (onChip ch) = r := by
  rw [sentRegs, List.mem_map]
  constructor
  · rintro ⟨ch, hmem, rfl⟩
    obtain ⟨ch', hchip, hreach, hr⟩ := c.sentTo_reached ch
    exact ⟨ch', hchip.trans (by simpa using hmem), hreach, hr⟩
  · rintro ⟨ch, hi, hreach, hr⟩
    exact ⟨ch, by simpa using hi, ((c.sentTo_eq_iff ch).mpr hreach).trans hr⟩

theorem channelReg_injective (c : Control) : ∀ j k, c.channelReg j = c.channelReg k → j = k := by
  cases c <;> decide

theorem not_mem_allRegs (c : Control) : (0xFF : BitVec 8) ∉ c.allRegs := by
  cases c <;> decide

theorem not_mem_sentRegs (c : Control) : ∀ i, (0xFF : BitVec 8) ∉ c.sentRegs i := by
  cases c <;> decide

theorem sentRegs_ne_nil (c : Control) : ∀ i, c.sentRegs i ≠ [] := by
  cases c <;> decide

end Control

theorem slaveAddr_injective : ∀ i j, slaveAddr i = slaveAddr j → i = j := by decide

/-- A program for some chips, of which each acts on one. -/
theorem run_chips {f : Fin 2 → List Write} {g : Fin 2 → Chip → Chip}
    (hf : ∀ i (s : Bus), s.run (f i) = Function.update s (slaveAddr i) (g i (s (slaveAddr i))))
    {is : List (Fin 2)} (hnodup : is.Nodup) (s : Bus) (i : Fin 2) :
    (s.run (is.flatMap f)) (slaveAddr i) =
      if i ∈ is then g i (s (slaveAddr i)) else s (slaveAddr i) := by
  induction is generalizing s with
  | nil => rfl
  | cons j is ih =>
    rw [List.nodup_cons] at hnodup
    rw [List.flatMap_cons, Bus.run_append, hf, ih hnodup.2]
    by_cases hij : i = j
    · subst hij
      rw [if_neg hnodup.1, if_pos List.mem_cons_self, Function.update_self]
    · have hmem : i ∈ j :: is ↔ i ∈ is := by simp [hij]
      rw [Function.update_of_ne (fun h => hij (slaveAddr_injective i j h)), if_congr hmem rfl rfl]

/-- Nothing else is on the bus for it. -/
theorem run_chips_other {f : Fin 2 → List Write} {g : Fin 2 → Chip → Chip}
    (hf : ∀ i (s : Bus), s.run (f i) = Function.update s (slaveAddr i) (g i (s (slaveAddr i))))
    {d : BitVec 8} (hd : ∀ i, d ≠ slaveAddr i) (is : List (Fin 2)) (s : Bus) :
    (s.run (is.flatMap f)) d = s d := by
  induction is generalizing s with
  | nil => rfl
  | cons j is ih =>
    rw [List.flatMap_cons, Bus.run_append, hf, ih, Function.update_of_ne (hd j)]

namespace Control

variable (c : Control) (vdec_cnt : ChipCount) (value : BitVec 32) (v_format : Format) (s : Bus)

theorem run_allRegs (i : Fin 2) (s : Bus) :
    s.run (⟨slaveAddr i, 0xFF, 0x00⟩ :: c.allRegs.map fun r =>
        ⟨slaveAddr i, r, c.data value v_format⟩) =
      Function.update s (slaveAddr i)
        ((s (slaveAddr i)).setRegs c.allRegs (c.data value v_format)) :=
  s.run_select (slaveAddr i) c.not_mem_allRegs (c.data value v_format)

theorem run_sentRegs (i : Fin 2) (s : Bus) :
    s.run ((c.sentRegs i).flatMap fun r =>
        [⟨slaveAddr i, 0xFF, 0x00⟩, ⟨slaveAddr i, r, c.data value v_format⟩]) =
      Function.update s (slaveAddr i)
        ((s (slaveAddr i)).setRegs (c.sentRegs i) (c.data value v_format)) := by
  obtain ⟨r, rs, hrs⟩ := List.exists_cons_of_ne_nil (c.sentRegs_ne_nil i)
  have hff := c.not_mem_sentRegs i
  rw [hrs] at hff ⊢
  exact s.run_each (slaveAddr i) r hff (c.data value v_format)

/-- The routine for all channels sets all registers on the chips that are counted. -/
theorem run_all (i : Fin 2) :
    (s.run (c.set vdec_cnt SET_ALL_CH value v_format)) (slaveAddr i) =
      if i.val < vdec_cnt then (s (slaveAddr i)).setRegs c.allRegs (c.data value v_format)
      else s (slaveAddr i) := by
  have hnodup : ∀ n : ChipCount, (([0, 1] : List (Fin 2)).take n).Nodup := by decide
  have hmem : ∀ (n : ChipCount) (i : Fin 2),
      i ∈ ([0, 1] : List (Fin 2)).take n ↔ i.val < n := by decide
  rw [set_all, run_chips (g := fun _ chip => chip.setRegs c.allRegs (c.data value v_format))
    (c.run_allRegs value v_format) (hnodup vdec_cnt), if_congr (hmem vdec_cnt i) rfl rfl]

/-- Applied to every channel, the routine for one sets what it reaches on both
chips. -/
theorem run_each (i : Fin 2) :
    (s.run ((List.finRange 16).flatMap fun ch : Fin 16 =>
        c.set vdec_cnt (BitVec.ofNat 32 ch) value v_format)) (slaveAddr i) =
      (s (slaveAddr i)).setRegs (c.sentRegs i) (c.data value v_format) := by
  have hmem : ∀ i : Fin 2, i ∈ ([0, 1] : List (Fin 2)) := by decide
  rw [set_each, run_chips (g := fun i chip => chip.setRegs (c.sentRegs i) (c.data value v_format))
    (c.run_sentRegs value v_format) (by decide), if_pos (hmem i)]

/-- The two leave the same exactly when they leave the same on each chip. -/
theorem allAsEach_iff : AllAsEach c vdec_cnt value v_format s ↔ ∀ i : Fin 2,
    (if i.val < vdec_cnt then (s (slaveAddr i)).setRegs c.allRegs (c.data value v_format)
      else s (slaveAddr i)) =
      (s (slaveAddr i)).setRegs (c.sentRegs i) (c.data value v_format) := by
  constructor
  · intro h i
    rw [← c.run_all vdec_cnt value v_format s i, ← c.run_each vdec_cnt value v_format s i]
    exact congrFun h (slaveAddr i)
  · intro h
    funext d
    by_cases hd : ∃ i, d = slaveAddr i
    · obtain ⟨i, rfl⟩ := hd
      rw [c.run_all, c.run_each, h i]
    · have hd' : ∀ i, d ≠ slaveAddr i := fun i hi => hd ⟨i, hi⟩
      rw [set_all, set_each,
        run_chips_other (g := fun _ chip => chip.setRegs c.allRegs (c.data value v_format))
          (c.run_allRegs value v_format) hd',
        run_chips_other (g := fun i chip => chip.setRegs (c.sentRegs i) (c.data value v_format))
          (c.run_sentRegs value v_format) hd']

end Control

/-! ## When the registers agree -/

/-- A chip counted: what is not reached must hold the value. -/
theorem Chip.setRegs_eq_iff {c : Chip} {rs rs' : List (BitVec 8)} (hsub : ∀ r ∈ rs', r ∈ rs)
    (v : BitVec 8) : c.setRegs rs v = c.setRegs rs' v ↔ ∀ r ∈ rs, r ∉ rs' → c.regs 0 r = v := by
  constructor
  · intro h r hr hr'
    have hreg := congrFun (congrFun (congrArg Chip.regs h) 0) r
    simp only [setRegs_regs, true_and, if_pos hr, if_neg hr'] at hreg
    exact hreg.symm
  · intro h
    apply Chip.ext
    · rfl
    · funext b a
      simp only [setRegs_regs]
      by_cases hb : b = 0
      · subst hb
        by_cases ha' : a ∈ rs'
        · simp [ha', hsub a ha']
        · by_cases ha : a ∈ rs
          · have hreg := h a ha ha'
            simp only [true_and, if_pos ha, if_neg ha']
            exact hreg.symm
          · simp [ha, ha']
      · simp only [hb, false_and, if_false]

/-- A chip not counted: bank 0 is selected, and what is reached holds the value. -/
theorem Chip.eq_setRegs_iff {c : Chip} {rs : List (BitVec 8)} (v : BitVec 8) :
    c = c.setRegs rs v ↔ c.bank = 0 ∧ ∀ r ∈ rs, c.regs 0 r = v := by
  constructor
  · intro h
    refine ⟨congrArg Chip.bank h, fun r hr => ?_⟩
    have hreg := congrFun (congrFun (congrArg Chip.regs h) 0) r
    simpa only [setRegs_regs, true_and, if_pos hr] using hreg
  · rintro ⟨hbank, h⟩
    apply Chip.ext
    · exact hbank
    · funext b a
      simp only [setRegs_regs]
      split
      · rename_i hba
        rw [hba.1, h a hba.2]
      · rfl

theorem chipOf_onChip : ∀ ch ch', chipOf ch = chipOf ch' → onChip ch = onChip ch' → ch = ch' := by
  decide

namespace Control

/-- A channel's register is among those sent to its chip when the channel is
reached. -/
theorem channelReg_sent_iff (c : Control) (ch : Fin 16) :
    c.channelReg (onChip ch) ∈ c.sentRegs (chipOf ch) ↔ c.Reaches ch := by
  rw [mem_sentRegs]
  constructor
  · rintro ⟨ch', hchip, hreach, hr⟩
    rwa [chipOf_onChip ch' ch hchip (c.channelReg_injective _ _ hr)] at hreach
  · intro h
    exact ⟨ch, rfl, h, rfl⟩

theorem sentRegs_subset (c : Control) (i : Fin 2) : ∀ r ∈ c.sentRegs i, r ∈ c.allRegs := by
  intro r hr
  obtain ⟨ch, hchip, -, h⟩ := (c.mem_sentRegs i r).mp hr
  exact (c.mem_allRegs i r).mpr ⟨ch, hchip, h⟩

variable (c : Control) (vdec_cnt : ChipCount) (value : BitVec 32) (v_format : Format) (s : Bus)

/-- Setting all channels is setting each of them when the chips are settled. -/
theorem settled_iff : AllAsEach c vdec_cnt value v_format s ↔
    Settled c vdec_cnt (c.data value v_format) s := by
  rw [allAsEach_iff]
  constructor
  · intro h
    have hcounted : ∀ i : Fin 2, i.val < vdec_cnt → ∀ r ∈ c.allRegs, r ∉ c.sentRegs i →
        (s (slaveAddr i)).regs 0 r = c.data value v_format := by
      intro i hi
      have heq := h i
      rw [if_pos hi] at heq
      exact (Chip.setRegs_eq_iff (c.sentRegs_subset i) _).mp heq
    have huncounted : ∀ i : Fin 2, ¬ i.val < vdec_cnt → (s (slaveAddr i)).bank = 0 ∧
        ∀ r ∈ c.sentRegs i, (s (slaveAddr i)).regs 0 r = c.data value v_format := by
      intro i hi
      have heq := h i
      rw [if_neg hi] at heq
      exact (Chip.eq_setRegs_iff _).mp heq
    constructor
    · intro ch hch hreach
      apply hcounted _ hch
      · exact (c.mem_allRegs _ _).mpr ⟨ch, rfl, rfl⟩
      · rwa [channelReg_sent_iff]
    · intro i hi
      exact (huncounted i hi).1
    · intro ch hch hreach
      exact (huncounted _ hch).2 _ ((c.channelReg_sent_iff ch).mpr hreach)
  · intro h i
    split
    · rename_i hi
      apply (Chip.setRegs_eq_iff (c.sentRegs_subset i) _).mpr
      intro r hr hnot
      obtain ⟨ch, rfl, rfl⟩ := (c.mem_allRegs i r).mp hr
      exact h.counted ch hi (fun hreach => hnot ((c.channelReg_sent_iff ch).mpr hreach))
    · rename_i hi
      apply (Chip.eq_setRegs_iff _).mpr
      refine ⟨h.bank i hi, fun r hr => ?_⟩
      obtain ⟨ch, rfl, hreach, rfl⟩ := (c.mem_sentRegs i r).mp hr
      exact h.uncounted ch hi hreach

/-- The routine for one channel writes its register when the channel is reached. -/
theorem writesOwn_iff (ch : Fin 16) : WritesOwn c vdec_cnt ch value v_format ↔ c.Reaches ch := by
  rw [WritesOwn, set_single, ← c.sentTo_eq_iff ch]
  simp

/-- **Picture control.** A channel's own register is what the routine writes, for
every count of chips and every value, exactly when the channel is reached; and
setting all channels is setting each of them exactly when the chips are
settled. -/
theorem control_iff :
    (∀ ch : Fin 16, WritesOwn c vdec_cnt ch value v_format ↔ c.Reaches ch) ∧
      (AllAsEach c vdec_cnt value v_format s ↔
        Settled c vdec_cnt (c.data value v_format) s) := by
  constructor
  · intro ch
    exact c.writesOwn_iff vdec_cnt value v_format ch
  · exact c.settled_iff vdec_cnt value v_format s

/-- The brightness of the first channel of the second chip goes to the fifth. -/
theorem control_broken : ¬ ∀ (c : Control) (vdec_cnt : ChipCount) (value : BitVec 32)
    (v_format : Format) (s : Bus), (∀ ch : Fin 16, WritesOwn c vdec_cnt ch value v_format) ∧
      AllAsEach c vdec_cnt value v_format s := by
  intro h
  have hown := (h .brightness 2 100 .NTSC (fun _ => ⟨0, fun _ _ => 0⟩)).1 8
  revert hown
  simp only [WritesOwn]
  decide

end Control

/-- With both chips counted, all channels of contrast and hue are set as each is. -/
theorem allAsEach_of_reaches {c : Control} (hc : ∀ ch, c.Reaches ch) (value : BitVec 32)
    (v_format : Format) (s : Bus) : AllAsEach c 2 value v_format s := by
  rw [Control.settled_iff]
  constructor
  · intro ch _ hreach
    exact absurd (hc ch) hreach
  · intro i hi
    exact absurd i.isLt hi
  · intro ch hch
    exact absurd (chipOf ch).isLt hch

end ExtDrv.Nvp1918
