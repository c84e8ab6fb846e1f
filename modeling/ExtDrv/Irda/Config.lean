import ExtDrv.Irda.Ring
import ExtDrv.Lib.RegField
import ExtDrv.Lib.Run

/-!
# The configuration words of the infrared receiver

`hiir_config` packs the device parameters into six registers. `decodeParam`
takes them apart again by the places the fields have there: `decodes_always_iff`
says when the two agree after every ioctl. A format and a frequency are
checked before they are stored; a code length is not.
-/

namespace ExtDrv.Irda

open RegField

/-! ## The fields -/

/-- The halves of a window register. -/
def windowMin (reg : BitVec 32) : BitVec 16 := (reg >>> 16).setWidth 16
def windowMax (reg : BitVec 32) : BitVec 16 := reg.setWidth 16

/-- The parameters as the receiver finds them in its registers: in `IR_CONFIG`
the frequency divider from bit 0, the code length from bit 8 and the code type
from bit 14 on, the first two less one. -/
def decodeParam (r : IrRegs) : HiirDevParam where
  leads_min := windowMin r.CNT_LEADS
  leads_max := windowMax r.CNT_LEADS
  leade_min := windowMin r.CNT_LEADE
  leade_max := windowMax r.CNT_LEADE
  cnt0_b_min := windowMin r.CNT0_B
  cnt0_b_max := windowMax r.CNT0_B
  cnt1_b_min := windowMin r.CNT1_B
  cnt1_b_max := windowMax r.CNT1_B
  sleade_min := windowMin r.CNT_SLEADE
  sleade_max := windowMax r.CNT_SLEADE
  code_len := (getField 8 6 r.IR_CONFIG).setWidth 16 + 1
  codetype := (getField 14 2 r.IR_CONFIG).setWidth 16
  frequence := (getField 0 8 r.IR_CONFIG).setWidth 16 + 1

/-- The registers hold the parameters that are stored. -/
def Decodes (s : Hiir) : Prop := decodeParam s.regs = s.hiir_dev.dev_parm

instance (s : Hiir) : Decidable (Decodes s) := inferInstanceAs (Decidable (_ = _))

theorem windowMin_pair (lo hi : BitVec 16) :
    windowMin ((lo.setWidth 32 <<< 16) ||| hi.setWidth 32) = lo := by
  apply BitVec.eq_of_getLsbD_eq
  intro i hi'
  have h1 : 16 + i < 32 := by omega
  have h2 : ¬ 16 + i < 16 := by omega
  simp [windowMin, h1, hi']

theorem windowMax_pair (lo hi : BitVec 16) :
    windowMax ((lo.setWidth 32 <<< 16) ||| hi.setWidth 32) = hi := by
  apply BitVec.eq_of_getLsbD_eq
  intro i hi'
  simp [windowMax, hi']

/-- A field of a register, as a number. -/
theorem toNat_getField (lo len : Nat) (h : len < 32) (reg : BitVec 32) :
    (getField lo len reg).toNat = reg.toNat / 2 ^ lo % 2 ^ len := by
  have hmask : (mask 32 len).toNat = 2 ^ len - 1 := by
    have hlt : 2 ^ len < 2 ^ 32 := Nat.pow_lt_pow_right (by decide) h
    rw [mask, BitVec.toNat_ofNat, Nat.mod_eq_of_lt (by omega)]
  rw [getField, BitVec.toNat_and, BitVec.toNat_ushiftRight, Nat.shiftRight_eq_div_pow, hmask,
    Nat.and_two_pow_sub_one_eq_mod]

/-- The word `hiir_config` writes to `IR_CONFIG`. -/
def configWord (p : HiirDevParam) : BitVec 32 :=
  (p.codetype.setWidth 32 <<< 14) ||| ((p.code_len.setWidth 32 - 1) <<< 8)
    ||| (p.frequence.setWidth 32 - 1)

/-- What the ioctls make sure of. -/
structure Checked (p : HiirDevParam) : Prop where
  codetype_le : p.codetype.toNat ≤ 3
  frequence_pos : 0 < p.frequence.toNat
  frequence_le : p.frequence.toNat ≤ 128

/-- What they do not: the code length has six bits, and counts from one. -/
def LenFits (code_len : BitVec 16) : Prop := 0 < code_len.toNat ∧ code_len.toNat ≤ 64

instance (code_len : BitVec 16) : Decidable (LenFits code_len) :=
  inferInstanceAs (Decidable (_ ∧ _))

/-- Fields that fit lie side by side. -/
theorem toNat_configWord {p : HiirDevParam} (h : Checked p) (hlen : LenFits p.code_len) :
    (configWord p).toNat
      = p.codetype.toNat * 2 ^ 14 + (p.code_len.toNat - 1) * 2 ^ 8 + (p.frequence.toNat - 1) := by
  obtain ⟨htype, hpos, hfreq⟩ := h
  obtain ⟨hlpos, hlle⟩ := hlen
  have htype' : (p.codetype.setWidth 32 <<< 14).toNat = p.codetype.toNat * 2 ^ 14 := by
    simp [Nat.shiftLeft_eq]
    omega
  have hlen' : ((p.code_len.setWidth 32 - 1) <<< 8).toNat = (p.code_len.toNat - 1) * 2 ^ 8 := by
    simp [Nat.shiftLeft_eq, BitVec.toNat_sub]
    omega
  have hfreq' : (p.frequence.setWidth 32 - 1).toNat = p.frequence.toNat - 1 := by
    simp [BitVec.toNat_sub]
    omega
  rw [configWord, BitVec.toNat_or, BitVec.toNat_or, htype', hlen', hfreq']
  -- an or of disjoint parts is a sum, from the top down
  have hupper : p.codetype.toNat * 2 ^ 14 ||| (p.code_len.toNat - 1) * 2 ^ 8
      = (p.codetype.toNat * 2 ^ 6 + (p.code_len.toNat - 1)) * 2 ^ 8 := by
    have hor := Nat.shiftLeft_add_eq_or_of_lt (show (p.code_len.toNat - 1) * 2 ^ 8 < 2 ^ 14 by omega)
      p.codetype.toNat
    rw [Nat.shiftLeft_eq] at hor
    rw [← hor]
    omega
  have hor := Nat.shiftLeft_add_eq_or_of_lt (show p.frequence.toNat - 1 < 2 ^ 8 by omega)
    (p.codetype.toNat * 2 ^ 6 + (p.code_len.toNat - 1))
  rw [Nat.shiftLeft_eq] at hor
  rw [hupper, ← hor]
  omega

/-! ## The words after an ioctl -/

/-- The registers are as `hiir_config` would write them. -/
def Programmed (s : Hiir) : Prop := hiirConfig s = s

theorem hiirConfig_programmed (s : Hiir) : Programmed (hiirConfig s) := rfl

theorem Programmed.config {s : Hiir} (h : Programmed s) :
    s.regs.IR_CONFIG = configWord s.hiir_dev.dev_parm :=
  (congrArg (fun s => s.regs.IR_CONFIG) h).symm

theorem Programmed.windows {s : Hiir} (h : Programmed s) :
    { decodeParam s.regs with
      code_len := s.hiir_dev.dev_parm.code_len
      codetype := s.hiir_dev.dev_parm.codetype
      frequence := s.hiir_dev.dev_parm.frequence } = s.hiir_dev.dev_parm := by
  rw [show s.regs = (hiirConfig s).regs by rw [show hiirConfig s = s from h]]
  simp only [decodeParam, hiirConfig, windowMin_pair, windowMax_pair]

/-- **The words decode exactly when the code length fits its field.** -/
theorem decodes_iff {s : Hiir} (h : Programmed s) (hchecked : Checked s.hiir_dev.dev_parm) :
    Decodes s ↔ LenFits s.hiir_dev.dev_parm.code_len := by
  have hfield : (decodeParam s.regs).code_len.toNat
      = s.regs.IR_CONFIG.toNat / 2 ^ 8 % 2 ^ 6 + 1 := by
    have hget := toNat_getField 8 6 (by decide) s.regs.IR_CONFIG
    rw [decodeParam, BitVec.toNat_add, BitVec.toNat_setWidth, hget]
    simp
    omega
  constructor
  · intro hdecodes
    -- what is read from six bits counts up to 64
    rw [LenFits, ← show decodeParam s.regs = _ from hdecodes, hfield]
    omega
  · intro hlen
    have hword := toNat_configWord hchecked hlen
    rw [← h.config] at hword
    obtain ⟨htype, hpos, hfreq⟩ := hchecked
    obtain ⟨hlpos, hlle⟩ := hlen
    have hcode : (decodeParam s.regs).code_len = s.hiir_dev.dev_parm.code_len := by
      apply BitVec.eq_of_toNat_eq
      rw [hfield, hword]
      omega
    have htypeField : (decodeParam s.regs).codetype = s.hiir_dev.dev_parm.codetype := by
      apply BitVec.eq_of_toNat_eq
      have hget := toNat_getField 14 2 (by decide) s.regs.IR_CONFIG
      rw [decodeParam, BitVec.toNat_setWidth, hget, hword]
      omega
    have hfreqField : (decodeParam s.regs).frequence = s.hiir_dev.dev_parm.frequence := by
      apply BitVec.eq_of_toNat_eq
      have hget := toNat_getField 0 8 (by decide) s.regs.IR_CONFIG
      rw [decodeParam, BitVec.toNat_add, BitVec.toNat_setWidth, hget, hword]
      simp
      omega
    have hall := h.windows
    rw [← hcode, ← htypeField, ← hfreqField] at hall
    exact hall

/-- An ioctl on the open device. -/
structure IoctlCall where
  cmd : IrIoc
  arg : BitVec 32
  user : Option (BitVec 32 × BitVec 32)

/-- `hiir_ioctl`, what it leaves: a refused call leaves everything. -/
def ioctlStep (s : Hiir) (c : IoctlCall) : Hiir := (hiirIoctl c.cmd c.arg c.user s).2

/-- A code length given is one of six bits. -/
def IoctlCall.LenFits (c : IoctlCall) : Prop :=
  c.cmd = .SET_CODELEN → Irda.LenFits (c.arg.setWidth 16)

/-- The parameters an ioctl leaves are checked, and its words are written. -/
theorem ioctlStep_keeps {s : Hiir} (h : Programmed s) (hchecked : Checked s.hiir_dev.dev_parm)
    (c : IoctlCall) :
    Programmed (ioctlStep s c) ∧ Checked (ioctlStep s c).hiir_dev.dev_parm := by
  obtain ⟨cmd, arg, user⟩ := c
  have hplain : ∀ t : Hiir, t.hiir_dev.dev_parm = s.hiir_dev.dev_parm →
      Programmed (hiirConfig t) ∧ Checked (hiirConfig t).hiir_dev.dev_parm := by
    intro t ht
    exact ⟨hiirConfig_programmed t, by rwa [hiirConfig_hiir_dev, ht]⟩
  have hwindow : ∀ set : BitVec 16 → BitVec 16 → HiirDevParam,
      (∀ lo hi, Checked (set lo hi)) →
      Programmed (setWindow user s set).2 ∧ Checked (setWindow user s set).2.hiir_dev.dev_parm := by
    intro set hset
    cases user with
    | none => exact ⟨h, hchecked⟩
    | some pair => exact ⟨hiirConfig_programmed _, hset _ _⟩
  have hsame : ∀ p : HiirDevParam, p.codetype = s.hiir_dev.dev_parm.codetype →
      p.frequence = s.hiir_dev.dev_parm.frequence → Checked p := by
    intro p htype hfreq
    exact ⟨htype ▸ hchecked.codetype_le, hfreq ▸ hchecked.frequence_pos,
      hfreq ▸ hchecked.frequence_le⟩
  cases cmd with
  | SET_BUF | SET_REPKEY_TIMEOUTVAL =>
    simp only [ioctlStep, hiirIoctl]
    split
    · exact hplain _ rfl
    · exact hplain _ rfl
  | SET_ENABLE_KEYUP | SET_ENABLE_REPKEY | GET_CONFIG | ENDBG | DISDBG => exact hplain _ rfl
  | SET_FORMAT =>
    simp only [ioctlStep, hiirIoctl]
    split
    · exact ⟨h, hchecked⟩
    · rename_i hle
      refine ⟨hiirConfig_programmed _, ?_, hchecked.frequence_pos, hchecked.frequence_le⟩
      simp [Hiir.setParm, Hiir.setDev]
      omega
  | SET_CODELEN => exact ⟨hiirConfig_programmed _, hsame _ rfl rfl⟩
  | SET_FREQ =>
    simp only [ioctlStep, hiirIoctl]
    split
    · exact ⟨h, hchecked⟩
    · rename_i hle
      refine ⟨hiirConfig_programmed _, hchecked.codetype_le, ?_, ?_⟩
      all_goals
        simp [Hiir.setParm, Hiir.setDev]
        omega
  | SET_LEADS | SET_LEADE | SET_SLEADE | SET_CNT0_B | SET_CNT1_B =>
    exact hwindow _ fun _ _ => hsame _ rfl rfl
  | other => exact ⟨h, hchecked⟩

/-- The code length is what the last `SET_CODELEN` gave. -/
theorem ioctlStep_code_len (s : Hiir) (c : IoctlCall) :
    (ioctlStep s c).hiir_dev.dev_parm.code_len =
      if c.cmd = .SET_CODELEN then c.arg.setWidth 16 else s.hiir_dev.dev_parm.code_len := by
  obtain ⟨cmd, arg, user⟩ := c
  cases cmd with
  | SET_BUF | SET_REPKEY_TIMEOUTVAL | SET_FORMAT | SET_FREQ =>
    simp only [ioctlStep, hiirIoctl]
    split <;> rfl
  | SET_LEADS | SET_LEADE | SET_SLEADE | SET_CNT0_B | SET_CNT1_B => cases user <;> rfl
  | SET_ENABLE_KEYUP | SET_ENABLE_REPKEY | GET_CONFIG | ENDBG | DISDBG | SET_CODELEN | other => rfl

theorem staticDevParam0_fits :
    Checked staticDevParam0 ∧ LenFits staticDevParam0.code_len :=
  ⟨⟨by decide, by decide, by decide⟩, by decide⟩

/-- **The words decode to the parameters**, exactly: from the open on they do
after every ioctl if and only if every code length given fits. -/
theorem decodes_always_iff {s₀ s : Hiir} (h : hiirOpen s₀ = (0, s)) (calls : List IoctlCall) :
    Run.Always ioctlStep Decodes s calls ↔ ∀ c ∈ calls, c.LenFits := by
  have hs : Programmed s ∧ Checked s.hiir_dev.dev_parm ∧
      LenFits s.hiir_dev.dev_parm.code_len := by
    rw [hiirOpen] at h
    split_ifs at h
    · simp [EBUSY] at h
    · rw [← (Prod.mk.inj h).2]
      exact ⟨hiirConfig_programmed _, staticDevParam0_fits⟩
  obtain ⟨hprog, hchecked, hlen⟩ := hs
  rw [← @Run.along_iff_forall _ _ ioctlStep _ s]
  apply Run.always_iff_along_of_inv (I := Decodes)
    (J := fun s => Programmed s ∧ Checked s.hiir_dev.dev_parm)
  · intro s c hj _ _
    exact ioctlStep_keeps hj.1 hj.2 c
  · intro s c hj hi
    have hkeeps := ioctlStep_keeps hj.1 hj.2 c
    have hbefore := (decodes_iff hj.1 hj.2).mp hi
    rw [decodes_iff hkeeps.1 hkeeps.2, ioctlStep_code_len, IoctlCall.LenFits]
    by_cases hcmd : c.cmd = .SET_CODELEN
    · simp [hcmd]
    · simp [hcmd, hbefore]
  · exact ⟨hprog, hchecked⟩
  · exact (decodes_iff hprog hchecked).mpr hlen

theorem decodes_always_short : Run.Always ioctlStep Decodes (hiirOpen hiirInit).2
    [⟨.SET_FORMAT, 3, none⟩, ⟨.SET_FREQ, 128, none⟩, ⟨.SET_CODELEN, 64, none⟩,
      ⟨.SET_LEADS, 0, some (0xFFFF, 0xFFFF)⟩] :=
  (@decodes_always_iff hiirInit _ rfl _).mpr (by
    simp only [List.forall_mem_cons, List.not_mem_nil, false_implies, implies_true, and_true,
      IoctlCall.LenFits]
    decide)

/-- A code length of 65 is accepted, and reads as one bit of code type 1. -/
theorem decodes_always_broken : ¬ ∀ (s₀ s : Hiir) (calls : List IoctlCall),
    hiirOpen s₀ = (0, s) → Run.Always ioctlStep Decodes s calls := by
  intro h
  have hrun := h hiirInit _ [⟨.SET_CODELEN, 65, none⟩] rfl
  exact absurd hrun.2.head (by decide)

end ExtDrv.Irda
