import ExtDrv.Lib.Loop
import Mathlib.Data.BitVec
import Mathlib.Logic.Function.Basic

/-!
# The EDID parser of the HDMI transmitter (`sil9024.c`)

From the blocks the display supplies to `g_edid`. A read outside the 128 bytes
of a block and a write outside an array of `g_edid` are faults and end the run;
`none` is a loop that has not ended in the turns it was given.
-/

namespace ExtDrv.Sil9024

open Loop

/-! ## Constants and data -/

def EDID_BLOCK_SIZE : Nat := 128
def MAX_V_DESCRIPTORS : Nat := 20
def MAX_A_DESCRIPTORS : Nat := 10
def MAX_SPEAKER_CONFIGURATIONS : Nat := 4
def AUDIO_DESCR_SIZE : Nat := 3
def HDMI_SIGNATURE_LEN : Nat := 3
def CEC_PHYS_ADDR_LEN : Nat := 2
def LONG_DESCR_LEN : Nat := 18

def EDID_TAG_ADDR : Nat := 0x00
def EDID_REV_ADDR : Nat := 0x01
def LONG_DESCR_PTR_IDX : Nat := 0x02
def MISC_SUPPORT_IDX : Nat := 0x03
def EDID_DATA_START : Nat := 0x04
def NUM_OF_EXTEN_ADDR : Nat := 0x7E
def EDID_EXTENSION_TAG : BitVec 8 := 0x02
def EDID_REV_THREE : BitVec 8 := 0x03
def VIDEO_CAPABILITY_D_BLOCK : BitVec 8 := 0x00
def COLORIMETRY_D_BLOCK : BitVec 8 := 0x05

/-- `g_CommData`: the block being parsed. -/
abbrev EdidBlock := Fin EDID_BLOCK_SIZE → BitVec 8

/-- `GLOBAL_EDID`. -/
structure GlobalEdid where
  edidDataValid : Bool
  VideoDescriptor : Fin MAX_V_DESCRIPTORS → BitVec 8
  AudioDescriptor : Fin MAX_A_DESCRIPTORS → Fin AUDIO_DESCR_SIZE → BitVec 8
  SpkrAlloc : Fin MAX_SPEAKER_CONFIGURATIONS → BitVec 8
  UnderScan : Bool
  BasicAudio : Bool
  YCbCr_4_4_4 : Bool
  YCbCr_4_2_2 : Bool
  HDMI_Sink : Bool
  CEC_A_B : BitVec 8
  CEC_C_D : BitVec 8
  ColorimetrySupportFlags : BitVec 8
  MetadataProfile : BitVec 8
  ThreeD_Supported : Bool

/-- `enum EDID_ErrorCodes`. -/
inductive EdidCode where
  | OK
  | INCORRECT_HEADER
  | CHECKSUM_ERROR
  | NO_861_EXTENSIONS
  | SHORT_DESCRIPTORS_OK
  | LONG_DESCRIPTORS_OK
  | EXT_TAG_ERROR
  | REV_ADDR_ERROR
  | V_DESCR_OVERFLOW
  | UNKNOWN_TAG_CODE
  | NO_DETAILED_DESCRIPTORS
  | DDC_BUS_REQ_FAILURE
  | DDC_BUS_RELEASE_FAILURE
  deriving DecidableEq, Repr

/-- An access outside the block or outside an array of `g_edid`. -/
inductive Fault where
  | read (offset : Nat)
  | video (index : Nat)
  | audio (index : Nat) (byte : Nat)
  | speaker (index : Nat)
  deriving DecidableEq, Repr

/-- `Data[i]`. -/
def EdidBlock.read (d : EdidBlock) (i : Nat) : Except Fault (BitVec 8) :=
  if h : i < EDID_BLOCK_SIZE then .ok (d ⟨i, h⟩) else .error (.read i)

/-- A byte of the block, as a number; 0 outside it. -/
def EdidBlock.byte (d : EdidBlock) (i : Nat) : BitVec 8 :=
  if h : i < EDID_BLOCK_SIZE then d ⟨i, h⟩ else 0

/-- The offset of the long descriptors. -/
def EdidBlock.off (d : EdidBlock) : Nat := (d.byte LONG_DESCR_PTR_IDX).toNat

/-- What the loop of `Parse861ShortDescriptors` works on. The indexes are bytes:
a store past the end of an array comes long before `V_DescriptorIndex` or
`A_DescriptorIndex` wraps, and of `DataIndex` only the jump back of the vendor
block can. -/
structure Scan where
  DataIndex : Nat
  V_DescriptorIndex : Nat
  A_DescriptorIndex : Nat
  edid : GlobalEdid

/-- `Data[DataIndex++]`. -/
def Scan.read (d : EdidBlock) (s : Scan) : Except Fault (BitVec 8 × Scan) := do
  let b ← d.read s.DataIndex
  pure (b, { s with DataIndex := s.DataIndex + 1 })

/-- `g_edid.VideoDescriptor[V_DescriptorIndex++] = b`. -/
def Scan.storeVideo (b : BitVec 8) (s : Scan) : Except Fault Scan :=
  if h : s.V_DescriptorIndex < MAX_V_DESCRIPTORS then
    .ok { s with
      V_DescriptorIndex := s.V_DescriptorIndex + 1
      edid.VideoDescriptor :=
        Function.update s.edid.VideoDescriptor ⟨s.V_DescriptorIndex, h⟩ b }
  else .error (.video s.V_DescriptorIndex)

/-- `g_edid.AudioDescriptor[A_DescriptorIndex][j] = b`. -/
def Scan.storeAudio (j : Fin AUDIO_DESCR_SIZE) (b : BitVec 8) (s : Scan) : Except Fault Scan :=
  if h : s.A_DescriptorIndex < MAX_A_DESCRIPTORS then
    .ok { s with
      edid.AudioDescriptor :=
        Function.update s.edid.AudioDescriptor ⟨s.A_DescriptorIndex, h⟩
          (Function.update (s.edid.AudioDescriptor ⟨s.A_DescriptorIndex, h⟩) j b) }
  else .error (.audio s.A_DescriptorIndex j)

/-- `g_edid.SpkrAlloc[i] = b`. -/
def Scan.storeSpeaker (i : Nat) (b : BitVec 8) (s : Scan) : Except Fault Scan :=
  if h : i < MAX_SPEAKER_CONFIGURATIONS then
    .ok { s with edid.SpkrAlloc := Function.update s.edid.SpkrAlloc ⟨i, h⟩ b }
  else .error (.speaker i)

/-! ## The data blocks -/

/-- The data block tags the parser knows. -/
inductive TagCode where
  | AUDIO_D_BLOCK
  | VIDEO_D_BLOCK
  | VENDOR_SPEC_D_BLOCK
  | SPKR_ALLOC_D_BLOCK
  | USE_EXTENDED_TAG
  deriving DecidableEq, Repr

/-- `(header >> 5) & THREE_LSBITS`, as a tag: `none` is the default case. -/
def tagCode (header : BitVec 8) : Option TagCode :=
  match (header >>> 5).toNat with
  | 1 => some .AUDIO_D_BLOCK
  | 2 => some .VIDEO_D_BLOCK
  | 3 => some .VENDOR_SPEC_D_BLOCK
  | 4 => some .SPKR_ALLOC_D_BLOCK
  | 7 => some .USE_EXTENDED_TAG
  | _ => none

/-- `header & FIVE_LSBITS`. -/
def dataBlockLength (header : BitVec 8) : Nat := (header &&& 0x1F).toNat

/-- `n` turns of the loop over short video descriptors. -/
def videoLoop (d : EdidBlock) : Nat → Scan → Except Fault Scan
  | 0, s => .ok s
  | n + 1, s => do
      let (b, s) ← s.read d
      let s ← s.storeVideo b
      videoLoop d n s

/-- `VIDEO_D_BLOCK`: descriptors past `MAX_V_DESCRIPTORS` of the block are
skipped. -/
def videoBlock (d : EdidBlock) (len : Nat) (s : Scan) : Except Fault Scan := do
  let s ← videoLoop d (min len MAX_V_DESCRIPTORS) s
  pure { s with DataIndex := s.DataIndex + (len - min len MAX_V_DESCRIPTORS) }

/-- The loop over the bytes of one short audio descriptor. -/
def audioDescr (d : EdidBlock) : List (Fin AUDIO_DESCR_SIZE) → Scan → Except Fault Scan
  | [], s => .ok s
  | j :: js, s => do
      let (b, s) ← s.read d
      let s ← s.storeAudio j b
      audioDescr d js s

/-- `n` turns of the loop over short audio descriptors. -/
def audioLoop (d : EdidBlock) : Nat → Scan → Except Fault Scan
  | 0, s => .ok s
  | n + 1, s => do
      let s ← audioDescr d (List.finRange AUDIO_DESCR_SIZE) s
      audioLoop d n { s with A_DescriptorIndex := s.A_DescriptorIndex + 1 }

/-- `SPKR_ALLOC_D_BLOCK`. -/
def speakerBlock (d : EdidBlock) (s : Scan) : Except Fault Scan := do
  let (b, s) ← s.read d
  let s ← s.storeSpeaker 0 b
  -- of the three bytes only the first is kept
  pure { s with DataIndex := s.DataIndex + 2 }

/-- `USE_EXTENDED_TAG`. -/
def extendedBlock (d : EdidBlock) (s : Scan) : Except Fault Scan := do
  let (ExtendedTagCode, s) ← s.read d
  if ExtendedTagCode = VIDEO_CAPABILITY_D_BLOCK then
    pure { s with DataIndex := s.DataIndex + 1 }
  else if ExtendedTagCode = COLORIMETRY_D_BLOCK then do
    let (b, s) ← s.read d
    let s := { s with edid.ColorimetrySupportFlags := b &&& 0x03 }
    let (b, s) ← s.read d
    pure { s with edid.MetadataProfile := b &&& 0x07 }
  else pure s

/-- The comparison with the HDMI signature: it stops at the first byte that
differs. -/
def signature (d : EdidBlock) (s : Scan) : Except Fault (Bool × Scan) := do
  let (b, s) ← s.read d
  if b ≠ 0x03#8 then pure (false, s)
  else
    let (b, s) ← s.read d
    if b ≠ 0x0C#8 then pure (false, s)
    else
      let (b, s) ← s.read d
      pure (b = 0x00#8, s)

/-- The `3D_Present` bit of a vendor block of length `len` whose header is at
`base`. -/
def threeD (d : EdidBlock) (base len : Nat) (s : Scan) : Except Fault Bool :=
  if s.DataIndex + 7 > base + len then pure false
  else do
    let b ← d.read (s.DataIndex + 7)
    pure (b >>> 7 ≠ 0#8)

/-- `VENDOR_SPEC_D_BLOCK`. The last assignment is to a byte. -/
def vendorBlock (d : EdidBlock) (len : Nat) (s : Scan) : Except Fault Scan := do
  let VSDB_BaseOffset := s.DataIndex - 1
  let (sink, s) ← signature d s
  let s := { s with edid.HDMI_Sink := sink }
  let (b, s) ← s.read d
  let s := { s with edid.CEC_A_B := b }
  let (b, s) ← s.read d
  let s := { s with edid.CEC_C_D := b }
  let present ← threeD d VSDB_BaseOffset len s
  -- `len` counts from behind the header: the three and two bytes are taken off again
  pure { s with
    DataIndex := (s.DataIndex + len + 256 - HDMI_SIGNATURE_LEN - CEC_PHYS_ADDR_LEN) % 256
    edid.ThreeD_Supported := present }

/-- The `switch` over the tag, `DataIndex` behind the header. -/
def dataBlock (d : EdidBlock) (tag : TagCode) (len : Nat) (s : Scan) : Except Fault Scan :=
  match tag with
  | .VIDEO_D_BLOCK => videoBlock d len s
  | .AUDIO_D_BLOCK => audioLoop d (len / 3) s
  | .SPKR_ALLOC_D_BLOCK => speakerBlock d s
  | .USE_EXTENDED_TAG => extendedBlock d s
  | .VENDOR_SPEC_D_BLOCK => vendorBlock d len s

/-- One turn of the loop of `Parse861ShortDescriptors`. -/
def shortTurn (d : EdidBlock) (s : Scan) : Turn Scan (EdidCode × GlobalEdid) Fault :=
  if s.DataIndex < d.off then
    match s.read d with
    | .error e => .fault e
    | .ok (header, s) =>
        -- the bound is the offset the extension itself announces
        if s.DataIndex + dataBlockLength header > d.off then .ret (.V_DESCR_OVERFLOW, s.edid)
        else
          match tagCode header with
          | none => .ret (.UNKNOWN_TAG_CODE, s.edid)
          | some tag =>
              match dataBlock d tag (dataBlockLength header) s with
              | .error e => .fault e
              | .ok s => .next s
  else .ret (.SHORT_DESCRIPTORS_OK, s.edid)

/-- The flags of byte 3 of the extension. -/
def miscSupport (d : EdidBlock) (g : GlobalEdid) : GlobalEdid :=
  let misc := d.byte MISC_SUPPORT_IDX
  { g with
    UnderScan := misc.getLsbD 7
    BasicAudio := misc.getLsbD 6
    YCbCr_4_4_4 := misc.getLsbD 5
    YCbCr_4_2_2 := misc.getLsbD 4 }

/-- The scan at the first data block. -/
def Scan.start (d : EdidBlock) (g : GlobalEdid) : Scan := ⟨EDID_DATA_START, 0, 0, miscSupport d g⟩

/-- `Parse861ShortDescriptors`, its loop for at most `n` turns. -/
def parse861ShortDescriptors (n : Nat) (d : EdidBlock) (g : GlobalEdid) :
    Option (Except Fault (EdidCode × GlobalEdid)) :=
  if d.byte EDID_TAG_ADDR ≠ EDID_EXTENSION_TAG then some (.ok (.EXT_TAG_ERROR, g))
  else if d.byte EDID_REV_ADDR ≠ EDID_REV_THREE then some (.ok (.REV_ADDR_ERROR, g))
  else iterate (shortTurn d) n (Scan.start d g)

/-- One turn of the loop of `Parse861LongDescriptors`, which with the printing
of the EDID disabled only steps over the descriptors. -/
def longTurn (LongDescriptorsOffset : Nat) : Turn Nat EdidCode Fault :=
  if LongDescriptorsOffset + LONG_DESCR_LEN < EDID_BLOCK_SIZE then
    .next ((LongDescriptorsOffset + LONG_DESCR_LEN) % 256)
  else .ret .LONG_DESCRIPTORS_OK

/-- `Parse861LongDescriptors`, its loop for at most `n` turns. -/
def parse861LongDescriptors (n : Nat) (d : EdidBlock) : Option (Except Fault EdidCode) :=
  if d.off = 0 then some (.ok .NO_DETAILED_DESCRIPTORS) else iterate longTurn n d.off

/-! ## The blocks of an EDID -/

/-- What `Parse861Extensions` does behind the short descriptors of an extension:
it takes the long ones, or returns the error. `.OK` lets its loop go on. -/
def afterShort (n : Nat) (d : EdidBlock) (r : EdidCode × GlobalEdid) :
    Option (Except Fault (EdidCode × GlobalEdid)) :=
  if r.1 ≠ .SHORT_DESCRIPTORS_OK then some (.ok r)
  else
    andThen (parse861LongDescriptors n d) fun code =>
      some (.ok (if code ≠ .LONG_DESCRIPTORS_OK then code else .OK, r.2))

/-- What `Parse861Extensions` does with one extension. -/
def parseExtension (n : Nat) (d : EdidBlock) (g : GlobalEdid) :
    Option (Except Fault (EdidCode × GlobalEdid)) :=
  andThen (parse861ShortDescriptors n d g) (afterShort n d)

/-- `siiReadSegmentBlockEDID` of `gpio_i2c.c`: its transfer is commented out, it
leaves the buffer as it is. -/
def siiReadSegmentBlockEDID (_Segment _Offset : Nat) (Buffer : EdidBlock) : EdidBlock := Buffer

/-- The `do`-loop of `Parse861Extensions` from `Block` on, for at most `k`
turns. `rom` is what the display supplies, block by block. -/
def extensionLoop (n : Nat) (rom : Nat → EdidBlock) (NumOfExtensions : Nat) :
    Nat → Nat → EdidBlock → GlobalEdid → Option (Except Fault (EdidCode × GlobalEdid))
  | 0, _, _, g => some (.ok (.OK, g))
  | k + 1, Block, g_CommData, g =>
      let Block := Block + 1
      let Offset := if 0 < Block % 2 then EDID_BLOCK_SIZE else 0
      let g_CommData :=
        if Block = 1 then rom 1 else siiReadSegmentBlockEDID (Block / 2) Offset g_CommData
      let again (g : GlobalEdid) :=
        if Block < NumOfExtensions then extensionLoop n rom NumOfExtensions k Block g_CommData g
        else some (.ok (.OK, g))
      -- the first of several extensions is the block map
      if 1 < NumOfExtensions ∧ Block = 1 then again g
      else
        andThen (parseExtension n g_CommData g) fun r =>
          if r.1 ≠ .OK then some (.ok r) else again r.2

/-- `Parse861Extensions`, with block 0 in the buffer: `NumOfExtensions` turns
are enough for its loop. -/
def parse861Extensions (n : Nat) (rom : Nat → EdidBlock) (NumOfExtensions : Nat)
    (g : GlobalEdid) : Option (Except Fault (EdidCode × GlobalEdid)) :=
  extensionLoop n rom NumOfExtensions NumOfExtensions 0 (rom 0) { g with HDMI_Sink := false }

/-- `CheckEDID_Header`. -/
def checkEdidHeader (d : EdidBlock) : Bool :=
  d.byte 0 = 0#8 && (List.range 6).all (fun i => d.byte (i + 1) = 0xFF#8) && d.byte 7 = 0#8

/-- `DoEDID_Checksum`. -/
def doEdidChecksum (d : EdidBlock) : Bool :=
  ((List.range EDID_BLOCK_SIZE).foldl (fun sum i => sum + d.byte i) 0#8) = 0#8

/-- `ParseEDID`, with the number of extensions it reads. -/
def parseEdid (d : EdidBlock) : EdidCode × Nat :=
  let numExt := (d.byte NUM_OF_EXTEN_ADDR).toNat
  if ¬ checkEdidHeader d then (.INCORRECT_HEADER, numExt)
  else if ¬ doEdidChecksum d then (.CHECKSUM_ERROR, numExt)
  else if numExt = 0 then (.NO_861_EXTENSIONS, numExt)
  else (.OK, numExt)

/-! ## Reading the EDID -/

def DDC_BUS_REQUEST_REQUESTED : BitVec 8 := 0x04
def DDC_BUS_GRANT_MASK : BitVec 8 := 0x02
def DDC_BUS_GRANT_GRANTED : BitVec 8 := 0x02
def BITS_2_1 : BitVec 8 := 0x06
def T_DDC_ACCESS : Nat := 50

/-- What the transmitter and the display answer while the EDID is read: the
system control register as it reads while the bus is asked for and given back,
and the blocks. -/
structure Display where
  grant : Nat → BitVec 8
  release : Nat → BitVec 8
  rom : Nat → EdidBlock

/-- `GetDDC_Access`: whether the bus is granted, and what it leaves in the
system control register `sysCtrl`. -/
def getDdcAccess (m : Display) (sysCtrl : BitVec 8) : Bool × BitVec 8 :=
  let sysCtrl := sysCtrl ||| DDC_BUS_REQUEST_REQUESTED
  if (List.range T_DDC_ACCESS).any fun i => m.grant i &&& DDC_BUS_GRANT_MASK ≠ 0#8 then
    (true, sysCtrl ||| DDC_BUS_GRANT_GRANTED)
  else (false, sysCtrl)

/-- `ReleaseDDC`. -/
def releaseDdc (m : Display) (SysCtrlRegVal : BitVec 8) : Bool × BitVec 8 :=
  ((List.range T_DDC_ACCESS).any fun i => m.release i &&& BITS_2_1 = 0#8,
    SysCtrlRegVal &&& ~~~BITS_2_1)

/-- The sink properties assumed when there is no EDID to read them from. -/
def GlobalEdid.assume (sink : Bool) (g : GlobalEdid) : GlobalEdid :=
  { g with
    HDMI_Sink := sink
    YCbCr_4_4_4 := false
    YCbCr_4_2_2 := false
    CEC_A_B := 0x00
    CEC_C_D := 0x00 }

/-- The part of `DoEdidRead` that parses. -/
def parseBlocks (n : Nat) (rom : Nat → EdidBlock) (g : GlobalEdid) :
    Option (Except Fault GlobalEdid) :=
  match parseEdid (rom 0) with
  | (.OK, NumOfExtensions) =>
      andThen (parse861Extensions n rom NumOfExtensions g) fun r =>
        some (.ok (if r.1 ≠ .OK then r.2.assume true else r.2))
  | (.NO_861_EXTENSIONS, _) => some (.ok (g.assume false))
  | (_, _) => some (.ok (g.assume true))

/-- What `DoEdidRead` returns and leaves: `code` is its result, `.OK` for 0, and
`granted` whether the display's EDID was read. -/
structure EdidRead where
  code : EdidCode
  granted : Bool
  sysCtrl : BitVec 8
  edid : GlobalEdid

/-- The end of `DoEdidRead`: the bus is given back, and `g` is marked valid. -/
def finishEdid (m : Display) (SysCtrlReg : BitVec 8) (g : GlobalEdid) : EdidRead :=
  match releaseDdc m SysCtrlReg with
  | (false, ctrl) => ⟨.DDC_BUS_RELEASE_FAILURE, true, ctrl, g⟩
  | (true, ctrl) => ⟨.OK, true, ctrl, { g with edidDataValid := true }⟩

/-- `DoEdidRead`, each loop of its parsers for at most `n` turns. -/
def doEdidRead (n : Nat) (m : Display) (sysCtrl : BitVec 8) (g : GlobalEdid) :
    Option (Except Fault EdidRead) :=
  if g.edidDataValid then some (.ok ⟨.OK, false, sysCtrl, g⟩)
  else
    match getDdcAccess m sysCtrl with
    | (false, ctrl) => some (.ok ⟨.DDC_BUS_REQ_FAILURE, false, ctrl, g.assume true⟩)
    | (true, _) =>
        -- the register is given back as it was before the request
        andThen (parseBlocks n m.rom g) fun g => some (.ok (finishEdid m sysCtrl g))

/-! ## A display -/

/-- A block 0 that announces one extension. -/
def oneExtension : EdidBlock := fun i =>
  if 1 ≤ i.val ∧ i.val ≤ 6 then 0xFF else if i.val = 0x7E then 0x01
  else if i.val = 0x7F then 0x05 else 0x00

/-- A display that grants the bus and has the extension `d`. -/
def Display.of (d : EdidBlock) : Display where
  grant _ := DDC_BUS_GRANT_GRANTED
  release _ := 0
  rom i := if i = 0 then oneExtension else d

/-- `g_edid` as the module is loaded. -/
def GlobalEdid.zero : GlobalEdid :=
  ⟨false, fun _ => 0, fun _ _ => 0, fun _ => 0, false, false, false, false, false, 0, 0, 0, 0,
    false⟩

end ExtDrv.Sil9024
