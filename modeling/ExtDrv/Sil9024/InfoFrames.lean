import ExtDrv.Lib.Run
import ExtDrv.Sil9024.Edid
import Mathlib.Data.BitVec

/-!
# The InfoFrames of the HDMI transmitter (`sil9024.c`)

The AVI and the audio InfoFrame as they are laid into the registers of the
transmitter. The three bytes of the AVI header are supplied by the transmitter
and only counted in the checksum. A read outside a table is undefined and gives
`none`. `infoFrames_ok`: both frames add up to zero, and the AVI frame is the
same when it is set again.
-/

namespace ExtDrv.Sil9024

/-! ## The video modes -/

/-- `AspectRatio` of a video mode. -/
inductive ModeRatio where
  | R_4
  | R_4or16
  | R_16
  deriving DecidableEq, Repr

/-- `VModeInfoType`, what the AVI InfoFrame needs of it. -/
structure VModeInfo where
  AspectRatio : ModeRatio
  PixRep : BitVec 8
  deriving DecidableEq, Repr

/-- `VModesTable`. -/
def VModesTable : List VModeInfo :=
  [
    ⟨.R_4, 0⟩, ⟨.R_4or16, 0⟩, ⟨.R_16, 0⟩, ⟨.R_16, 0⟩, ⟨.R_4or16, 1⟩, ⟨.R_4or16, 1⟩, ⟨.R_4or16, 1⟩,
    ⟨.R_4or16, 0⟩, ⟨.R_4or16, 1⟩, ⟨.R_4or16, 1⟩, ⟨.R_4or16, 0⟩, ⟨.R_16, 0⟩, ⟨.R_4or16, 0⟩,
    ⟨.R_16, 0⟩, ⟨.R_16, 0⟩, ⟨.R_4, 1⟩, ⟨.R_4or16, 1⟩, ⟨.R_4or16, 1⟩, ⟨.R_4or16, 1⟩, ⟨.R_4or16, 1⟩,
    ⟨.R_4or16, 1⟩, ⟨.R_4or16, 1⟩, ⟨.R_4or16, 1⟩, ⟨.R_4or16, 0⟩, ⟨.R_16, 0⟩, ⟨.R_16, 0⟩,
    ⟨.R_16, 0⟩, ⟨.R_16, 0⟩, ⟨.R_4or16, 0⟩, ⟨.R_4or16, 0⟩, ⟨.R_16, 0⟩, ⟨.R_16, 0⟩, ⟨.R_16, 0⟩,
    ⟨.R_4or16, 0⟩, ⟨.R_4or16, 1⟩, ⟨.R_16, 0⟩, ⟨.R_16, 0⟩, ⟨.R_4or16, 0⟩, ⟨.R_4or16, 1⟩,
    ⟨.R_4or16, 0⟩, ⟨.R_4or16, 1⟩, ⟨.R_4or16, 0⟩, ⟨.R_4or16, 1⟩, ⟨.R_16, 0⟩, ⟨.R_16, 0⟩,
    ⟨.R_16, 0⟩, ⟨.R_16, 0⟩, ⟨.R_4or16, 0⟩, ⟨.R_16, 0⟩, ⟨.R_16, 0⟩, ⟨.R_16, 0⟩, ⟨.R_16, 0⟩,
    ⟨.R_16, 0⟩, ⟨.R_16, 0⟩, ⟨.R_16, 0⟩, ⟨.R_16, 0⟩, ⟨.R_16, 0⟩, ⟨.R_16, 0⟩, ⟨.R_16, 0⟩,
    ⟨.R_16, 0⟩, ⟨.R_16, 0⟩, ⟨.R_16, 0⟩, ⟨.R_16, 0⟩, ⟨.R_16, 0⟩, ⟨.R_16, 0⟩, ⟨.R_16, 0⟩,
    ⟨.R_16, 0⟩, ⟨.R_16, 0⟩, ⟨.R_4, 0⟩, ⟨.R_4, 0⟩, ⟨.R_4, 0⟩, ⟨.R_4, 0⟩, ⟨.R_4, 0⟩, ⟨.R_4, 0⟩,
    ⟨.R_4, 0⟩, ⟨.R_4, 0⟩, ⟨.R_4, 0⟩, ⟨.R_4, 0⟩, ⟨.R_4, 0⟩, ⟨.R_4, 0⟩, ⟨.R_4, 0⟩, ⟨.R_4, 0⟩,
    ⟨.R_4, 0⟩, ⟨.R_16, 0⟩, ⟨.R_16, 0⟩, ⟨.R_16, 0⟩, ⟨.R_16, 0⟩, ⟨.R_4, 0⟩, ⟨.R_4, 0⟩, ⟨.R_4, 0⟩,
    ⟨.R_4, 0⟩, ⟨.R_4, 0⟩, ⟨.R_16, 0⟩, ⟨.R_4, 0⟩, ⟨.R_4, 0⟩, ⟨.R_4, 0⟩, ⟨.R_4, 0⟩, ⟨.R_4, 0⟩,
    ⟨.R_4, 0⟩, ⟨.R_4, 0⟩, ⟨.R_4, 0⟩, ⟨.R_4, 0⟩, ⟨.R_4, 0⟩, ⟨.R_4, 0⟩, ⟨.R_4, 0⟩, ⟨.R_16, 0⟩,
    ⟨.R_16, 0⟩, ⟨.R_16, 0⟩, ⟨.R_16, 0⟩, ⟨.R_4, 0⟩, ⟨.R_4, 0⟩, ⟨.R_16, 0⟩, ⟨.R_4or16, 0⟩]

/-- `AspectRatioTable`, of the first VIC on. -/
def AspectRatioTable : List ModeRatio :=
  [
    .R_4, .R_4, .R_16, .R_16, .R_16, .R_4, .R_16, .R_4, .R_16, .R_4, .R_16, .R_4, .R_16, .R_4,
    .R_16, .R_16, .R_4, .R_16, .R_16, .R_16, .R_4, .R_16, .R_4, .R_16, .R_4, .R_16, .R_4, .R_16,
    .R_4, .R_16, .R_16, .R_16, .R_16, .R_16, .R_4, .R_16, .R_4, .R_16, .R_16, .R_16, .R_16, .R_4,
    .R_16, .R_4, .R_16, .R_16, .R_16, .R_4, .R_16, .R_4, .R_16, .R_4, .R_16, .R_4, .R_16, .R_4,
    .R_16, .R_4, .R_16]

/-- `VIC2Index`. -/
def VIC2Index : List Nat :=
  [
    0, 0, 1, 1, 2, 3, 4, 4, 5, 5, 7, 7, 8, 8, 10, 10, 11, 12, 12, 13, 14, 15, 15, 16, 16, 19, 19,
    20, 20, 23, 23, 24, 25, 26, 27, 28, 28, 29, 29, 30, 31, 32, 33, 33, 34, 34, 35, 36, 37, 37,
    38, 38, 39, 39, 40, 40, 41, 41, 42, 42]

def DEFAULT_VIDEO_MODE : Nat := 0
def HDMI_VIC_BASE : Nat := 43
def VIC_3D_BASE : Nat := 47
def PC_BASE : Nat := 64
def PC_SIZE : Nat := 48

def VMD_HDMIFORMAT_CEA_VIC : BitVec 8 := 0x00
def VMD_HDMIFORMAT_HDMI_VIC : BitVec 8 := 0x01
def VMD_HDMIFORMAT_3D : BitVec 8 := 0x02
def VMD_HDMIFORMAT_PC : BitVec 8 := 0x03
def VMD_ASPECT_RATIO_4x3 : BitVec 8 := 0x01
def VMD_ASPECT_RATIO_16x9 : BitVec 8 := 0x02
def YCBCR422_16BITS : BitVec 8 := 2
def XVYCC444 : BitVec 8 := 4
def COLORIMETRY_601 : BitVec 8 := 0
def COLORIMETRY_709 : BitVec 8 := 1

/-- `SIHDMITX_CONFIG`, what the InfoFrames depend on. -/
structure SiHdmiTx where
  HDMIVideoFormat : BitVec 8
  VIC : BitVec 8
  AspectRatio : BitVec 8
  ColorSpace : BitVec 8
  Colorimetry : BitVec 8
  ThreeDStructure : BitVec 8
  AudioChannels : BitVec 8
  deriving DecidableEq, Repr

/-- The 3D modes: those that are supported, by VIC and structure. -/
def index3D (VIC ThreeDStructure : Nat) : Nat :=
  match VIC, ThreeDStructure with
  | 2, 8 | 3, 8 => VIC_3D_BASE + 0
  | 4, 0 => VIC_3D_BASE + 1
  | 5, 0 => VIC_3D_BASE + 2
  | 5, 1 => VIC_3D_BASE + 3
  | 16, 0 => VIC_3D_BASE + 4
  | 16, 2 => VIC_3D_BASE + 5
  | 16, 3 => VIC_3D_BASE + 6
  | 16, 8 => VIC_3D_BASE + 7
  | 19, 0 => VIC_3D_BASE + 8
  | 19, 4 => VIC_3D_BASE + 9
  | 19, 5 => VIC_3D_BASE + 10
  | 20, 0 => VIC_3D_BASE + 11
  | 20, 1 => VIC_3D_BASE + 12
  | 31, 0 => VIC_3D_BASE + 13
  | 31, 2 => VIC_3D_BASE + 14
  | 31, 3 => VIC_3D_BASE + 15
  | 32, 0 => VIC_3D_BASE + 16
  | _, _ => DEFAULT_VIDEO_MODE

/-- `ConvertVIC_To_VM_Index`. -/
def convertVicToVmIndex (s : SiHdmiTx) : Option Nat :=
  if s.HDMIVideoFormat = VMD_HDMIFORMAT_CEA_VIC then VIC2Index[s.VIC.toNat]?
  else if s.HDMIVideoFormat = VMD_HDMIFORMAT_HDMI_VIC then
    some (if s.VIC.toNat < 1 ∨ s.VIC.toNat > 4 then DEFAULT_VIDEO_MODE
      else HDMI_VIC_BASE - 1 + s.VIC.toNat)
  else if s.HDMIVideoFormat = VMD_HDMIFORMAT_3D then
    some (index3D s.VIC.toNat s.ThreeDStructure.toNat)
  else if s.HDMIVideoFormat = VMD_HDMIFORMAT_PC then
    some (if s.VIC.toNat < PC_SIZE then s.VIC.toNat + PC_BASE else DEFAULT_VIDEO_MODE)
  else some DEFAULT_VIDEO_MODE

/-! ## The AVI InfoFrame -/

def BITS_OUT_FORMAT : BitVec 8 := 0x60
def BITS_6_5_4 : BitVec 8 := 0x70
def BITS_7_6 : BitVec 8 := 0xC0
def BIT_4 : BitVec 8 := 0x10
/-- `_16_To_9` and `_4_To_3`. -/
def SIXTEEN_TO_9 : BitVec 8 := 0x20
def FOUR_TO_3 : BitVec 8 := 0x10
def SAME_AS_AR : BitVec 8 := 0x08
def SIZE_AVI_INFOFRAME : Nat := 14

/-- The byte that makes `data`, counted on from `sum`, add up to zero. -/
def checksum (sum : BitVec 8) (data : List (BitVec 8)) : BitVec 8 :=
  BitVec.ofNat 8 (0x100 - (data.foldl (· + ·) sum).toNat)

/-- `B_Data[1]`: the output format, active format information, overscanned. -/
def aviByte1 (g : GlobalEdid) : BitVec 8 :=
  let TmpVal : BitVec 8 := if g.YCbCr_4_4_4 then 2 else if g.YCbCr_4_2_2 then 1 else 0
  (TmpVal <<< 5 &&& BITS_OUT_FORMAT) ||| 0x11

/-- `B_Data[2]` and `B_Data[3]`, as the colorimetry sets them. -/
def colorimetryBytes (s : SiHdmiTx) : BitVec 8 × BitVec 8 :=
  if s.ColorSpace = XVYCC444 then
    (0xC0, if s.Colorimetry = COLORIMETRY_601 then 0 &&& ~~~BITS_6_5_4
      else if s.Colorimetry = COLORIMETRY_709 then (0 &&& ~~~BITS_6_5_4) ||| BIT_4
      else 0)
  else if s.Colorimetry = COLORIMETRY_709 then (0x80, 0)
  else if s.Colorimetry = COLORIMETRY_601 then (0x40, 0)
  else (0 &&& ~~~BITS_7_6, 0 &&& ~~~BITS_6_5_4)

/-- `AspectRatioTable[VIC - 1]`. -/
def tableRatio (VIC : BitVec 8) : Option ModeRatio :=
  if VIC = 0 then none else AspectRatioTable[VIC.toNat - 1]?

/-- The table entry is for either ratio and the VIC is the one for 4:3: the next
VIC is for 16:9. -/
def bumpsVic (mode : VModeInfo) (s : SiHdmiTx) : Option Bool :=
  if s.AspectRatio = VMD_ASPECT_RATIO_16x9 ∧ mode.AspectRatio = .R_4or16 then
    (tableRatio s.VIC).map (· = .R_4)
  else some false

/-- The bytes behind the checksum, for the video mode `mode` and the VIC `VIC`. -/
def aviData (g : GlobalEdid) (mode : VModeInfo) (VIC : BitVec 8) (s : SiHdmiTx) :
    List (BitVec 8) :=
  let ratio := if s.AspectRatio = VMD_ASPECT_RATIO_16x9 then SIXTEEN_TO_9 else FOUR_TO_3
  [aviByte1 g, (colorimetryBytes s).1 ||| ratio ||| SAME_AS_AR, (colorimetryBytes s).2, VIC,
    mode.PixRep, 0, 0, 0, 0, 0, 0, 0, 0]

/-- The header of the AVI InfoFrame: type, version and length. -/
def aviHeader : List (BitVec 8) := [0x82, 0x02, 0x0D]

/-- `SetAVI_InfoFrames`: the block written at `TPI_AVI_BYTE_0`, and the state it
leaves. -/
def setAviInfoFrames (g : GlobalEdid) (s : SiHdmiTx) : Option (List (BitVec 8) × SiHdmiTx) := do
  let VModeTblIndex ← convertVicToVmIndex s
  let mode ← VModesTable[VModeTblIndex]?
  let bumped ← bumpsVic mode s
  let s := if bumped then { s with VIC := s.VIC + 1 } else s
  let data := aviData g mode s.VIC s
  pure (checksum (0x82 + 0x02 + 0x0D) data :: data, s)

/-! ## The audio InfoFrame -/

def TYPE_AUDIO_INFOFRAMES : BitVec 8 := 0x84
def AUDIO_INFOFRAMES_VERSION : BitVec 8 := 0x01
def AUDIO_INFOFRAMES_LENGTH : BitVec 8 := 0x0A
def SIZE_AUDIO_INFOFRAME : Nat := 15
def REFER_TO_STREAM_HDR : BitVec 8 := 0x00

/-- `SetAudioInfoFrames`: the block written at `MISC_INFO_FRAMES_TYPE`, its header
first. -/
def setAudioInfoFrames (ChannelCount CodingType SS Fs SpeakerConfig : BitVec 8) :
    List (BitVec 8) :=
  let data := [ChannelCount ||| CodingType <<< 4, ((Fs &&& 0x07) <<< 2) ||| (SS &&& 0x03), 0,
    SpeakerConfig, 0, 0, 0, 0, 0, 0, 0]
  [TYPE_AUDIO_INFOFRAMES, AUDIO_INFOFRAMES_VERSION, AUDIO_INFOFRAMES_LENGTH,
    checksum (TYPE_AUDIO_INFOFRAMES + AUDIO_INFOFRAMES_VERSION + AUDIO_INFOFRAMES_LENGTH) data]
    ++ data

/-- The audio InfoFrame `siHdmiTx_AudioSet` sets. -/
def audioSetFrame (s : SiHdmiTx) : List (BitVec 8) :=
  setAudioInfoFrames (s.AudioChannels &&& 0x07) REFER_TO_STREAM_HDR REFER_TO_STREAM_HDR
    REFER_TO_STREAM_HDR 0x00

/-! ## The checksums -/

theorem foldl_add (data : List (BitVec 8)) (sum : BitVec 8) :
    data.foldl (· + ·) sum = sum + data.sum := by
  induction data generalizing sum with
  | nil => simp
  | cons b data ih => rw [List.foldl_cons, ih, List.sum_cons, BitVec.add_assoc]

theorem ofNat_sub_toNat (b : BitVec 8) : BitVec.ofNat 8 (0x100 - b.toNat) = -b := by
  apply BitVec.eq_of_toNat_eq
  simp

/-- **The rule of the checksum**: with a header that adds up to `sum`, the frame
adds up to zero. -/
theorem sum_frame (header data : List (BitVec 8)) :
    (header ++ checksum header.sum data :: data).sum = 0 := by
  rw [checksum, foldl_add, ofNat_sub_toNat, List.sum_append, List.sum_cons]
  generalize header.sum = a
  generalize data.sum = b
  rw [← BitVec.add_assoc, BitVec.add_comm a, BitVec.add_assoc]
  exact neg_add_cancel _

/-! ## The AVI InfoFrame set again -/

/-- The mode at the index is for either ratio. -/
def ForEither (index : Nat) : Prop :=
  VModesTable[index]?.map VModeInfo.AspectRatio = some .R_4or16

instance (index : Nat) : Decidable (ForEither index) := inferInstanceAs (Decidable (_ = _))

/-- In the table of the CEA-861-D modes, the VIC of a mode for either ratio has a
ratio of its own; if it is 4:3, the VIC behind it stands for the same mode, and
for 16:9. -/
theorem cea_either : ∀ v : Fin 60, ∀ index ∈ VIC2Index[v.val]?, ForEither index →
    (tableRatio (BitVec.ofNat 8 v.val)).isSome ∧
      (tableRatio (BitVec.ofNat 8 v.val) = some .R_4 → VIC2Index[v.val + 1]? = some index ∧
        tableRatio (BitVec.ofNat 8 (v.val + 1)) = some .R_16) := by
  decide +kernel

theorem hdmiVic_not_either : ∀ v : Fin 5, 1 ≤ v.val →
    ¬ ForEither (HDMI_VIC_BASE - 1 + v.val) := by
  decide

theorem pc_not_either : ∀ v : Fin PC_SIZE, ¬ ForEither (v.val + PC_BASE) := by
  decide +kernel

theorem default_not_either : ¬ ForEither DEFAULT_VIDEO_MODE := by
  decide

/-- Of the 3D modes only 480p is for either ratio. -/
theorem index3D_either {v k : Nat} (h : ForEither (index3D v k)) : (v = 2 ∨ v = 3) ∧ k = 8 := by
  revert h
  unfold index3D
  split <;> intro h
  all_goals first
    | exact absurd h (by decide)
    | exact ⟨.inl rfl, rfl⟩
    | exact ⟨.inr rfl, rfl⟩

/-- Which states select a mode for either ratio. -/
theorem either_cases {s : SiHdmiTx} {index : Nat} (hindex : convertVicToVmIndex s = some index)
    (h : ForEither index) :
    s.HDMIVideoFormat = VMD_HDMIFORMAT_CEA_VIC ∧ VIC2Index[s.VIC.toNat]? = some index ∨
      s.HDMIVideoFormat = VMD_HDMIFORMAT_3D ∧ (s.VIC = 2 ∨ s.VIC = 3) ∧
        s.ThreeDStructure.toNat = 8 := by
  rw [convertVicToVmIndex] at hindex
  split_ifs at hindex with hcea hhdmi hout h3D hpc hin
  · exact .inl ⟨hcea, hindex⟩
  · cases hindex
    exact absurd h default_not_either
  · cases hindex
    exact absurd h (hdmiVic_not_either ⟨s.VIC.toNat, by omega⟩ (by dsimp only; omega))
  · cases hindex
    obtain ⟨hv, hk⟩ := index3D_either h
    exact .inr ⟨h3D, hv.imp (BitVec.eq_of_toNat_eq ·) (BitVec.eq_of_toNat_eq ·), hk⟩
  · cases hindex
    exact absurd h (pc_not_either ⟨s.VIC.toNat, hin⟩)
  · cases hindex
    exact absurd h default_not_either
  · cases hindex
    exact absurd h default_not_either

theorem VIC_lt {s : SiHdmiTx} {index : Nat} (h : VIC2Index[s.VIC.toNat]? = some index) :
    s.VIC.toNat < 60 :=
  (List.getElem?_eq_some_iff.mp h).1

/-- The ratio is looked up inside its table. -/
theorem tableRatio_isSome {s : SiHdmiTx} {index : Nat}
    (hindex : convertVicToVmIndex s = some index) (h : ForEither index) :
    (tableRatio s.VIC).isSome := by
  rcases either_cases hindex h with ⟨-, htable⟩ | ⟨-, hvic, -⟩
  · have hratio := (cea_either ⟨s.VIC.toNat, VIC_lt htable⟩ index htable h).1
    simpa using hratio
  · rcases hvic with hvic | hvic
    · rw [hvic]
      decide
    · rw [hvic]
      decide

/-- **The next VIC is for the same mode**, and is not moved again. -/
theorem bumps_next {s : SiHdmiTx} {index : Nat} (hindex : convertVicToVmIndex s = some index)
    (h : ForEither index) (hfour : tableRatio s.VIC = some .R_4) :
    convertVicToVmIndex { s with VIC := s.VIC + 1 } = some index ∧
      tableRatio (s.VIC + 1) = some .R_16 := by
  rcases either_cases hindex h with ⟨hcea, htable⟩ | ⟨h3D, hvic, hstruct⟩
  · have hlt := VIC_lt htable
    have hvic : BitVec.ofNat 8 s.VIC.toNat = s.VIC := by simp
    have hsucc : (s.VIC + 1).toNat = s.VIC.toNat + 1 := by
      have hone : (1 : BitVec 8).toNat = 1 := rfl
      rw [BitVec.toNat_add, hone]
      omega
    have hnext := (cea_either ⟨s.VIC.toNat, hlt⟩ index htable h).2 (by rwa [hvic])
    rw [convertVicToVmIndex, if_pos hcea, hsucc]
    rw [BitVec.ofNat_add, hvic] at hnext
    exact hnext
  · rcases hvic with hvic | hvic
    · have hcea : VMD_HDMIFORMAT_3D ≠ VMD_HDMIFORMAT_CEA_VIC := by decide
      have hhdmi : VMD_HDMIFORMAT_3D ≠ VMD_HDMIFORMAT_HDMI_VIC := by decide
      simp only [convertVicToVmIndex, h3D, hvic, hstruct, if_neg hcea, if_neg hhdmi,
        if_true] at hindex ⊢
      exact ⟨hindex, by decide⟩
    · rw [hvic] at hfour
      exact absurd hfour (by decide)

theorem setAviInfoFrames_eq_some {g : GlobalEdid} {s s' : SiHdmiTx} {frame : List (BitVec 8)} :
    setAviInfoFrames g s = some (frame, s') ↔
      ∃ index mode bumped, convertVicToVmIndex s = some index ∧ VModesTable[index]? = some mode ∧
        bumpsVic mode s = some bumped ∧ s' = (if bumped then { s with VIC := s.VIC + 1 } else s) ∧
        frame = checksum (0x82 + 0x02 + 0x0D) (aviData g mode s'.VIC s') ::
          aviData g mode s'.VIC s' := by
  simp only [setAviInfoFrames, bind, Option.bind_eq_some_iff, pure, Option.some.injEq,
    Prod.mk.injEq]
  constructor
  · rintro ⟨index, hindex, mode, hmode, bumped, hbumped, rfl, rfl⟩
    exact ⟨index, mode, bumped, hindex, hmode, hbumped, rfl, rfl⟩
  · rintro ⟨index, mode, bumped, hindex, hmode, hbumped, rfl, rfl⟩
    exact ⟨index, hindex, mode, hmode, bumped, hbumped, rfl, rfl⟩

theorem bumpsVic_of_eq {mode : VModeInfo} {s : SiHdmiTx} (h : bumpsVic mode s = some true) :
    mode.AspectRatio = .R_4or16 ∧ tableRatio s.VIC = some .R_4 := by
  rw [bumpsVic] at h
  by_cases hboth : s.AspectRatio = VMD_ASPECT_RATIO_16x9 ∧ mode.AspectRatio = .R_4or16
  · rw [if_pos hboth, Option.map_eq_some_iff] at h
    obtain ⟨ratio, htable, hratio⟩ := h
    rw [of_decide_eq_true hratio] at htable
    exact ⟨hboth.2, htable⟩
  · rw [if_neg hboth] at h
    cases h

/-- **Set again, the frame is the same**, and the state does not move any more. -/
theorem setAviInfoFrames_again {g : GlobalEdid} {s s' : SiHdmiTx} {frame : List (BitVec 8)}
    (h : setAviInfoFrames g s = some (frame, s')) :
    setAviInfoFrames g s' = some (frame, s') := by
  obtain ⟨index, mode, bumped, hindex, hmode, hbumped, hs, hframe⟩ :=
    setAviInfoFrames_eq_some.mp h
  cases bumped with
  | false =>
    rw [if_neg Bool.false_ne_true] at hs
    rw [hs]
    rwa [hs] at h
  | true =>
    rw [if_pos rfl] at hs
    obtain ⟨heither, hfour⟩ := bumpsVic_of_eq hbumped
    have hforEither : ForEither index := by
      rw [ForEither, hmode, Option.map_some, heither]
    obtain ⟨hnext, hsixteen⟩ := bumps_next hindex hforEither hfour
    have hrest : bumpsVic mode s' = some false := by
      rw [bumpsVic, hs]
      dsimp only
      rw [hsixteen]
      split <;> rfl
    exact setAviInfoFrames_eq_some.mpr
      ⟨index, mode, false, hs ▸ hnext, hmode, hrest, rfl, hframe⟩

/-! ## States of the driver -/

/-- The VIC is one of the table that is read with it. -/
def InTable (s : SiHdmiTx) : Prop :=
  s.HDMIVideoFormat = VMD_HDMIFORMAT_CEA_VIC → s.VIC.toNat < VIC2Index.length

theorem VIC2Index_lt : ∀ index ∈ VIC2Index, index < VModesTable.length := by
  decide +kernel

theorem index3D_lt (v k : Nat) : index3D v k < VModesTable.length := by
  unfold index3D
  split <;> decide

theorem convertVicToVmIndex_lt {s : SiHdmiTx} {index : Nat}
    (h : convertVicToVmIndex s = some index) : index < VModesTable.length := by
  have hlen : VModesTable.length = 113 := rfl
  rw [convertVicToVmIndex] at h
  split_ifs at h with _ _ hout _ _ hin
  · exact VIC2Index_lt _ (List.mem_of_getElem? h)
  · cases h
    decide
  · cases h
    simp only [HDMI_VIC_BASE, hlen]
    omega
  · cases h
    exact index3D_lt _ _
  · cases h
    simp only [PC_SIZE, PC_BASE, hlen] at hin ⊢
    omega
  · cases h
    decide
  · cases h
    decide

/-- A frame is set in every state whose VIC is in the table. -/
theorem setAviInfoFrames_isSome_iff (g : GlobalEdid) (s : SiHdmiTx) :
    (setAviInfoFrames g s).isSome ↔ InTable s := by
  constructor
  · intro h hcea
    obtain ⟨⟨frame, s'⟩, heq⟩ := Option.isSome_iff_exists.mp h
    obtain ⟨index, _, _, hindex, -⟩ := setAviInfoFrames_eq_some.mp heq
    rw [convertVicToVmIndex, if_pos hcea] at hindex
    exact (List.getElem?_eq_some_iff.mp hindex).1
  · intro h
    obtain ⟨index, hindex⟩ : ∃ index, convertVicToVmIndex s = some index := by
      rw [convertVicToVmIndex]
      split_ifs with hcea
      · exact ⟨_, List.getElem?_eq_getElem (h hcea)⟩
      all_goals exact ⟨_, rfl⟩
    obtain ⟨mode, hmode⟩ : ∃ mode, VModesTable[index]? = some mode :=
      ⟨_, List.getElem?_eq_getElem (convertVicToVmIndex_lt hindex)⟩
    obtain ⟨bumped, hbumped⟩ : ∃ bumped, bumpsVic mode s = some bumped := by
      rw [bumpsVic]
      split_ifs with hboth
      · have hforEither : ForEither index := by
          rw [ForEither, hmode, Option.map_some, hboth.2]
        obtain ⟨ratio, hratio⟩ := Option.isSome_iff_exists.mp (tableRatio_isSome hindex hforEither)
        exact ⟨_, by rw [hratio, Option.map_some]⟩
      · exact ⟨_, rfl⟩
    rw [Option.isSome_iff_exists]
    exact ⟨_, setAviInfoFrames_eq_some.mpr ⟨_, _, _, hindex, hmode, hbumped, rfl, rfl⟩⟩

/-- `siHdmiTx_VideoSel`: the VIC, the aspect ratio and the colorimetry of a norm. -/
def siHdmiTxVideoSel (vmode : Nat) (s : SiHdmiTx) : SiHdmiTx :=
  let s := { s with HDMIVideoFormat := VMD_HDMIFORMAT_CEA_VIC, ColorSpace := YCBCR422_16BITS }
  let sd (VIC : BitVec 8) : SiHdmiTx :=
    { s with
      VIC := VIC
      AspectRatio := VMD_ASPECT_RATIO_4x3
      Colorimetry := COLORIMETRY_601 }
  let hd (VIC : BitVec 8) : SiHdmiTx :=
    { s with
      VIC := VIC
      AspectRatio := VMD_ASPECT_RATIO_16x9
      Colorimetry := COLORIMETRY_709 }
  match vmode with
  | 1 => sd 6
  | 2 => sd 21
  | 3 => sd 2
  | 4 => sd 17
  | 5 => hd 4
  | 6 => hd 19
  | 7 => hd 5
  | 8 => hd 20
  | 9 => hd 16
  | 10 => hd 31
  | 11 => hd 33
  | 12 => hd 34
  | _ => s

/-- The calls that change the video mode. -/
inductive ModeCall where
  | videoSel (vmode : Nat)
  | setAvi (g : GlobalEdid)

/-- A call; an AVI InfoFrame that reads outside the tables leaves the state. -/
def modeStep (s : SiHdmiTx) : ModeCall → SiHdmiTx
  | .videoSel vmode => siHdmiTxVideoSel vmode s
  | .setAvi g => ((setAviInfoFrames g s).map Prod.snd).getD s

theorem videoSel_VIC (vmode : Nat) {s : SiHdmiTx} (h : s.VIC.toNat < VIC2Index.length) :
    (siHdmiTxVideoSel vmode s).VIC.toNat < VIC2Index.length := by
  unfold siHdmiTxVideoSel
  split
  all_goals first
    | exact h
    | exact Nat.lt_of_sub_eq_succ rfl

theorem tableRatio_lt {VIC : BitVec 8} {ratio : ModeRatio} (h : tableRatio VIC = some ratio) :
    VIC.toNat < VIC2Index.length := by
  have hlen : AspectRatioTable.length = 59 := rfl
  have hlen' : VIC2Index.length = 60 := rfl
  rw [tableRatio] at h
  split_ifs at h
  have hlt := (List.getElem?_eq_some_iff.mp h).1
  omega

theorem setAvi_VIC {g : GlobalEdid} {s s' : SiHdmiTx} {frame : List (BitVec 8)}
    (h : setAviInfoFrames g s = some (frame, s')) (hs : s.VIC.toNat < VIC2Index.length) :
    s'.VIC.toNat < VIC2Index.length := by
  obtain ⟨index, mode, bumped, hindex, hmode, hbumped, rfl, -⟩ :=
    setAviInfoFrames_eq_some.mp h
  cases bumped with
  | false => exact hs
  | true =>
    obtain ⟨heither, hfour⟩ := bumpsVic_of_eq hbumped
    have hforEither : ForEither index := by
      rw [ForEither, hmode, Option.map_some, heither]
    exact tableRatio_lt (bumps_next hindex hforEither hfour).2

/-- **A frame can be set whenever the driver sets one**: after any calls from a
VIC of the table on, so from the zero of the module's load. -/
theorem modes_inTable {s : SiHdmiTx} (hs : s.VIC.toNat < VIC2Index.length)
    (calls : List ModeCall) :
    Run.Always modeStep (fun s => ∀ g, (setAviInfoFrames g s).isSome) s calls := by
  apply Run.Always.mono (I := fun s : SiHdmiTx => s.VIC.toNat < VIC2Index.length)
  · intro s h g
    rw [setAviInfoFrames_isSome_iff]
    exact fun _ => h
  · refine Run.always_of_step (fun s call h => ?_) calls hs
    cases call with
    | videoSel vmode => exact videoSel_VIC vmode h
    | setAvi g =>
      cases hset : setAviInfoFrames g s with
      | none => simpa [modeStep, hset] using h
      | some r => simpa [modeStep, hset] using @setAvi_VIC g s r.2 r.1 hset h

/-- **The InfoFrames of the transmitter**: in every state, the header and the
bytes of the AVI InfoFrame add up to zero, setting it again sets the same frame,
and a frame is set whenever the VIC is in the table that is read with it; the
audio InfoFrame adds up to zero for any arguments, as far as it is written and
as far as its length says. -/
theorem infoFrames_ok (g : GlobalEdid) (s : SiHdmiTx) :
    (∀ frame s', setAviInfoFrames g s = some (frame, s') →
      frame.length = SIZE_AVI_INFOFRAME ∧ (aviHeader ++ frame).sum = 0 ∧
        setAviInfoFrames g s' = some (frame, s')) ∧
    ((setAviInfoFrames g s).isSome ↔ InTable s) ∧
    ∀ ChannelCount CodingType SS Fs SpeakerConfig,
      let frame := setAudioInfoFrames ChannelCount CodingType SS Fs SpeakerConfig
      frame.length = SIZE_AUDIO_INFOFRAME ∧ frame.sum = 0 ∧
        (frame.take (4 + AUDIO_INFOFRAMES_LENGTH.toNat)).sum = 0 := by
  refine ⟨?_, setAviInfoFrames_isSome_iff g s, ?_⟩
  · intro frame s' h
    obtain ⟨_, mode, _, -, -, -, -, hframe⟩ := setAviInfoFrames_eq_some.mp h
    refine ⟨by rw [hframe]; rfl, ?_, setAviInfoFrames_again h⟩
    rw [hframe]
    exact sum_frame aviHeader _
  · intro ChannelCount CodingType SS Fs SpeakerConfig
    have hsum : (setAudioInfoFrames ChannelCount CodingType SS Fs SpeakerConfig).sum = 0 :=
      sum_frame [TYPE_AUDIO_INFOFRAMES, AUDIO_INFOFRAMES_VERSION, AUDIO_INFOFRAMES_LENGTH] _
    refine ⟨rfl, hsum, ?_⟩
    -- the byte behind the length is zero
    have hlast : setAudioInfoFrames ChannelCount CodingType SS Fs SpeakerConfig =
        (setAudioInfoFrames ChannelCount CodingType SS Fs SpeakerConfig).take
          (4 + AUDIO_INFOFRAMES_LENGTH.toNat) ++ [0] := rfl
    rw [hlast, List.sum_append] at hsum
    simpa using hsum

/-- 480p in its 4:3 VIC, with an aspect ratio of 16:9. -/
def wide480p : SiHdmiTx := ⟨VMD_HDMIFORMAT_CEA_VIC, 2, VMD_ASPECT_RATIO_16x9, YCBCR422_16BITS,
  COLORIMETRY_601, 0, 1⟩

theorem infoFrames_ok_wide480p : ∃ frame s', setAviInfoFrames .zero wide480p = some (frame, s') ∧
    s'.VIC = 3 ∧ (aviHeader ++ frame).sum = 0 ∧ setAviInfoFrames .zero s' = some (frame, s') :=
  have h := (infoFrames_ok .zero wide480p).1 _ _ rfl
  ⟨_, _, rfl, rfl, h.2.1, h.2.2⟩

end ExtDrv.Sil9024
