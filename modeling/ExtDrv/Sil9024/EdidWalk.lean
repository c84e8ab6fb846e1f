import ExtDrv.Sil9024.EdidTermination
import Mathlib.Data.Fin.VecNotation
import Mathlib.Tactic.FinCases

/-!
# The data blocks of an extension

An extension as its specification builds it: `DataBlock`s, one behind the
other, up to the long descriptors. `short_walks`: as long as the data blocks
have the forms the parser is written for, it comes to each of them once and in
their order, and leaves in `g_edid` what they say.
-/

namespace ExtDrv.Sil9024

open Loop

variable {d : EdidBlock} {g : GlobalEdid} {s : Scan} {i : Nat} {l : List (BitVec 8)}

/-! ## What an extension consists of -/

/-- A data block: what its header can say, and the bytes it counts. -/
structure DataBlock where
  tag : BitVec 3
  payload : List (BitVec 8)
  short : payload.length < 32

namespace DataBlock

def header (b : DataBlock) : BitVec 8 := b.tag ++ BitVec.ofNat 5 b.payload.length

def bytes (b : DataBlock) : List (BitVec 8) := b.header :: b.payload

/-- The bytes of the data block with its header. -/
def size (b : DataBlock) : Nat := b.payload.length + 1

@[simp] theorem length_bytes (b : DataBlock) : b.bytes.length = b.size := rfl

theorem dataBlockLength_header (b : DataBlock) :
    dataBlockLength b.header = b.payload.length := by
  have hshort := b.short
  have hand : b.header &&& 0x1F = (BitVec.ofNat 5 b.payload.length).zeroExtend 8 := by
    rw [header]
    generalize BitVec.ofNat 5 b.payload.length = n
    generalize b.tag = t
    revert t n
    decide
  rw [dataBlockLength, hand]
  simp
  omega

end DataBlock

/-- The bytes of data blocks, one behind the other. -/
def content (bs : List DataBlock) : List (BitVec 8) := bs.flatMap DataBlock.bytes

@[simp] theorem content_nil : content [] = [] := rfl

@[simp] theorem content_cons (b : DataBlock) (bs : List DataBlock) :
    content (b :: bs) = b.bytes ++ content bs := rfl

/-- The bytes `l` lie in the block from `i` on. -/
def EdidBlock.Holds (d : EdidBlock) : Nat → List (BitVec 8) → Prop
  | _, [] => True
  | i, b :: l => d.byte i = b ∧ d.Holds (i + 1) l

@[simp] theorem holds_nil : d.Holds i [] := trivial

@[simp] theorem holds_cons {b : BitVec 8} : d.Holds i (b :: l) ↔ d.byte i = b ∧ d.Holds (i + 1) l :=
  Iff.rfl

theorem holds_append {l' : List (BitVec 8)} :
    d.Holds i (l ++ l') ↔ d.Holds i l ∧ d.Holds (i + l.length) l' := by
  induction l generalizing i with
  | nil => simp
  | cons b l ih => simp [ih, and_assoc, Nat.add_assoc, Nat.add_comm 1 l.length]

theorem holds_of_getElem? (h : ∀ k b, l[k]? = some b → d.byte (i + k) = b) : d.Holds i l := by
  induction l generalizing i with
  | nil => trivial
  | cons b l ih =>
    constructor
    · exact h 0 b rfl
    · apply ih
      intro k c hk
      rw [Nat.add_assoc, Nat.add_comm 1 k]
      exact h (k + 1) c hk

/-- The data blocks `bs` fill the extension up to the long descriptors, behind
which there is room for the checksum at least. -/
structure Consists (d : EdidBlock) (bs : List DataBlock) : Prop where
  cea : IsCea d
  off : d.off = EDID_DATA_START + (content bs).length
  room : d.off < EDID_BLOCK_SIZE
  holds : d.Holds EDID_DATA_START (content bs)

/-- The extension with the data blocks `bs`. -/
def ofBlocks (bs : List DataBlock) : EdidBlock := fun i =>
  if i.val = EDID_TAG_ADDR then EDID_EXTENSION_TAG
  else if i.val = EDID_REV_ADDR then EDID_REV_THREE
  else if i.val = LONG_DESCR_PTR_IDX then BitVec.ofNat 8 (EDID_DATA_START + (content bs).length)
  else if i.val = MISC_SUPPORT_IDX then 0
  else (content bs).getD (i.val - EDID_DATA_START) 0

/-- Data blocks that leave room for the checksum are those of an extension. -/
theorem consists_ofBlocks {bs : List DataBlock}
    (h : EDID_DATA_START + (content bs).length < EDID_BLOCK_SIZE) :
    Consists (ofBlocks bs) bs := by
  have hoff : (ofBlocks bs).off = EDID_DATA_START + (content bs).length := by
    simp only [EDID_BLOCK_SIZE] at h
    simp [EdidBlock.off, EdidBlock.byte, ofBlocks, LONG_DESCR_PTR_IDX, EDID_BLOCK_SIZE,
      EDID_TAG_ADDR, EDID_REV_ADDR]
    omega
  refine ⟨⟨rfl, rfl⟩, hoff, by rwa [hoff], ?_⟩
  apply holds_of_getElem?
  intro k b hk
  have hlt : k < (content bs).length := (List.getElem?_eq_some_iff.mp hk).1
  have hin : EDID_DATA_START + k < EDID_BLOCK_SIZE := by omega
  -- behind the four bytes of the extension's own header
  have hbehind : EDID_DATA_START + k ≠ EDID_TAG_ADDR ∧ EDID_DATA_START + k ≠ EDID_REV_ADDR ∧
      EDID_DATA_START + k ≠ LONG_DESCR_PTR_IDX ∧ EDID_DATA_START + k ≠ MISC_SUPPORT_IDX := by
    simp only [EDID_DATA_START, EDID_TAG_ADDR, EDID_REV_ADDR, LONG_DESCR_PTR_IDX,
      MISC_SUPPORT_IDX]
    omega
  rw [EdidBlock.byte, dif_pos hin]
  simp [ofBlocks, hbehind, hk]

/-! ## What the data blocks say -/

/-- The three bytes of a short audio descriptor. -/
def shortAudio (a b c : BitVec 8) : Fin AUDIO_DESCR_SIZE → BitVec 8 := ![a, b, c]

/-- As many short audio descriptors as are whole. -/
def audioDescriptorsOf : List (BitVec 8) → List (Fin AUDIO_DESCR_SIZE → BitVec 8)
  | a :: b :: c :: l => shortAudio a b c :: audioDescriptorsOf l
  | _ => []

theorem length_audioDescriptorsOf : ∀ l, (audioDescriptorsOf l).length = l.length / 3
  | [] | [_] | [_, _] => by simp [audioDescriptorsOf]
  | a :: b :: c :: l => by
      have ih := length_audioDescriptorsOf l
      simp only [audioDescriptorsOf, List.length_cons, ih]
      omega

namespace DataBlock

def kind (b : DataBlock) : Option TagCode := tagCode b.header

/-- The short video descriptors of the data block. -/
def videoDescriptors (b : DataBlock) : List (BitVec 8) :=
  if b.kind = some .VIDEO_D_BLOCK then b.payload else []

/-- The short audio descriptors of the data block. -/
def audioDescriptors (b : DataBlock) : List (Fin AUDIO_DESCR_SIZE → BitVec 8) :=
  if b.kind = some .AUDIO_D_BLOCK then audioDescriptorsOf b.payload else []

/-- A vendor block with the identifier of HDMI. -/
def Hdmi (b : DataBlock) : Prop :=
  b.kind = some .VENDOR_SPEC_D_BLOCK ∧ [0x03#8, 0x0C#8, 0x00#8] <+: b.payload

instance (b : DataBlock) : Decidable b.Hdmi := inferInstanceAs (Decidable (_ ∧ _))

/-- The forms of a data block the parser is written for. -/
inductive Proper (b : DataBlock) : Prop where
  | video : b.kind = some .VIDEO_D_BLOCK → Proper b
  /-- Descriptors of three bytes. -/
  | audio : b.kind = some .AUDIO_D_BLOCK → 3 ∣ b.payload.length → Proper b
  | speaker : b.kind = some .SPKR_ALLOC_D_BLOCK → b.payload.length = 3 → Proper b
  | capability {x : BitVec 8} : b.kind = some .USE_EXTENDED_TAG →
      b.payload = [VIDEO_CAPABILITY_D_BLOCK, x] → Proper b
  | colorimetry {x y : BitVec 8} : b.kind = some .USE_EXTENDED_TAG →
      b.payload = [COLORIMETRY_D_BLOCK, x, y] → Proper b
  /-- An extended tag with nothing behind it. -/
  | bare {c : BitVec 8} : b.kind = some .USE_EXTENDED_TAG → c ≠ VIDEO_CAPABILITY_D_BLOCK →
      c ≠ COLORIMETRY_D_BLOCK → b.payload = [c] → Proper b
  /-- The signature, as far as it is compared, and the physical address. -/
  | vendor {x a c : BitVec 8} {l : List (BitVec 8)} : b.kind = some .VENDOR_SPEC_D_BLOCK →
      b.payload = 0x03#8 :: 0x0C#8 :: x :: a :: c :: l → Proper b

end DataBlock

/-- Once the sink is known to be HDMI, every further vendor block says so. -/
def SinkStays : Prop → List DataBlock → Prop
  | _, [] => True
  | sink, b :: bs =>
      (b.kind = some .VENDOR_SPEC_D_BLOCK → sink → b.Hdmi) ∧ SinkStays (sink ∨ b.Hdmi) bs

/-! ## Arrays with a stretch overwritten -/

/-- `f` with the entries from `v` on replaced by `xs`. -/
def overwrite {n : Nat} {α : Type*} (v : Nat) (xs : List α) (f : Fin n → α) : Fin n → α :=
  fun i => if v ≤ i.val then xs[i.val - v]?.getD (f i) else f i

section Overwrite

variable {n v : Nat} {α : Type*} {xs ys : List α} {f : Fin n → α}

@[simp] theorem overwrite_nil : overwrite v [] f = f := by
  ext i
  simp [overwrite]

theorem overwrite_cons {x : α} (h : v < n) :
    overwrite (v + 1) xs (Function.update f ⟨v, h⟩ x) = overwrite v (x :: xs) f := by
  ext i
  rcases Nat.lt_trichotomy i.val v with hi | hi | hi
  · have hne : i ≠ ⟨v, h⟩ := fun he => by simp [he] at hi
    simp [overwrite, Nat.not_le.mpr hi, Nat.not_le.mpr (Nat.lt_succ_of_lt hi), hne]
  · obtain rfl : i = ⟨v, h⟩ := Fin.ext hi
    simp [overwrite]
  · obtain ⟨k, hk⟩ : ∃ k, i.val = v + 1 + k := ⟨i.val - (v + 1), by omega⟩
    have hne : i ≠ ⟨v, h⟩ := fun he => by simp [he] at hi
    have hsub : v + 1 + k - v = k + 1 := by omega
    simp [overwrite, hk, hsub, hne, Nat.le_add_right_of_le]

theorem overwrite_append :
    overwrite (v + xs.length) ys (overwrite v xs f) = overwrite v (xs ++ ys) f := by
  ext i
  by_cases hi : v + xs.length ≤ i.val
  · have hv : v ≤ i.val := by omega
    have hlen : xs.length ≤ i.val - v := by omega
    simp [overwrite, hi, hv, List.getElem?_append_right hlen, List.getElem?_eq_none hlen,
      Nat.sub_sub]
  · by_cases hv : v ≤ i.val
    · have hlen : i.val - v < xs.length := by omega
      simp [overwrite, hi, hv, List.getElem?_append_left hlen]
    · simp [overwrite, hi, hv]

end Overwrite

/-! ## What the loops over a data block leave -/

theorem videoLoop_eq {xs : List (BitVec 8)} (hd : d.Holds s.DataIndex xs)
    (hr : s.DataIndex + xs.length ≤ EDID_BLOCK_SIZE)
    (hv : s.V_DescriptorIndex + xs.length ≤ MAX_V_DESCRIPTORS) :
    videoLoop d xs.length s = .ok { s with
      DataIndex := s.DataIndex + xs.length
      V_DescriptorIndex := s.V_DescriptorIndex + xs.length
      edid.VideoDescriptor := overwrite s.V_DescriptorIndex xs s.edid.VideoDescriptor } := by
  induction xs generalizing s with
  | nil => simp [videoLoop]
  | cons x xs ih =>
    obtain ⟨rfl, hd⟩ := hd
    rw [List.length_cons] at hr hv ⊢
    have hr0 : s.DataIndex < EDID_BLOCK_SIZE := by omega
    have hv0 : s.V_DescriptorIndex < MAX_V_DESCRIPTORS := by omega
    rw [videoLoop, read_of_lt hr0]
    simp only [bind, Except.bind, Scan.storeVideo, hv0, dif_pos]
    rw [ih hd (by dsimp only; omega) (by dsimp only; omega)]
    simp only [overwrite_cons, Nat.add_assoc, Nat.add_comm 1 xs.length]

theorem audioDescr_eq (hr : s.DataIndex + 3 ≤ EDID_BLOCK_SIZE)
    (ha : s.A_DescriptorIndex < MAX_A_DESCRIPTORS) :
    audioDescr d (List.finRange AUDIO_DESCR_SIZE) s = .ok { s with
      DataIndex := s.DataIndex + 3
      edid.AudioDescriptor := Function.update s.edid.AudioDescriptor ⟨s.A_DescriptorIndex, ha⟩
        (shortAudio (d.byte s.DataIndex) (d.byte (s.DataIndex + 1))
          (d.byte (s.DataIndex + 2))) } := by
  have hlist : List.finRange AUDIO_DESCR_SIZE = [(0 : Fin 3), (1 : Fin 3), (2 : Fin 3)] := rfl
  have h0 : s.DataIndex < EDID_BLOCK_SIZE := by omega
  have h1 : s.DataIndex + 1 < EDID_BLOCK_SIZE := by omega
  have h2 : s.DataIndex + 2 < EDID_BLOCK_SIZE := by omega
  -- the three bytes replace the old descriptor whole
  have hall : ∀ (f : Fin AUDIO_DESCR_SIZE → BitVec 8) (a b c : BitVec 8),
      Function.update (Function.update (Function.update f (0 : Fin 3) a) (1 : Fin 3) b)
        (2 : Fin 3) c = shortAudio a b c := by
    intro f a b c
    funext j
    fin_cases j <;> rfl
  rw [hlist]
  simp only [audioDescr, read_of_lt, h0, h1, h2, bind, Except.bind, Scan.storeAudio, ha, dif_pos,
    Function.update_self, Function.update_idem, Nat.add_assoc, Nat.reduceAdd, hall]

theorem audioLoop_eq {l : List (BitVec 8)} (hd : d.Holds s.DataIndex l)
    (hr : s.DataIndex + l.length ≤ EDID_BLOCK_SIZE)
    (ha : s.A_DescriptorIndex + l.length / 3 ≤ MAX_A_DESCRIPTORS) :
    audioLoop d (l.length / 3) s = .ok { s with
      DataIndex := s.DataIndex + 3 * (l.length / 3)
      A_DescriptorIndex := s.A_DescriptorIndex + l.length / 3
      edid.AudioDescriptor :=
        overwrite s.A_DescriptorIndex (audioDescriptorsOf l) s.edid.AudioDescriptor } := by
  induction l using audioDescriptorsOf.induct generalizing s with
  | case1 a b c l ih =>
    obtain ⟨rfl, rfl, rfl, hd⟩ := hd
    have hdiv : (d.byte s.DataIndex :: d.byte (s.DataIndex + 1) :: d.byte (s.DataIndex + 1 + 1) ::
        l).length / 3 = l.length / 3 + 1 := by
      simp only [List.length_cons]
      omega
    rw [hdiv] at ha ⊢
    simp only [List.length_cons] at hr
    have ha0 : s.A_DescriptorIndex < MAX_A_DESCRIPTORS := by omega
    rw [audioLoop, audioDescr_eq (by omega) ha0]
    simp only [bind, Except.bind]
    rw [ih hd (by dsimp only; omega) (by dsimp only; omega)]
    simp only [overwrite_cons, audioDescriptorsOf, Nat.add_assoc, Nat.mul_add, Nat.mul_one,
      Nat.add_comm 1 (l.length / 3), Nat.add_comm 3 (3 * (l.length / 3)), Nat.reduceAdd]
  | case2 l hshort =>
    have hzero : l.length / 3 = 0 := by
      rcases l with _ | ⟨a, _ | ⟨b, _ | ⟨c, l⟩⟩⟩
      · simp
      · simp
      · simp
      · exact absurd rfl (hshort a b c l)
    have hnil : audioDescriptorsOf l = [] :=
      List.length_eq_zero_iff.mp ((length_audioDescriptorsOf l).trans hzero)
    simp [hzero, hnil, audioLoop]

/-! ## Past a data block -/

/-- What the parser keeps of the short video descriptors: of each data block the
first `MAX_V_DESCRIPTORS`. -/
def keptVideos (bs : List DataBlock) : List (BitVec 8) :=
  bs.flatMap fun b => b.videoDescriptors.take MAX_V_DESCRIPTORS

/-- The short audio descriptors of the data blocks. -/
def audioDescriptors (bs : List DataBlock) : List (Fin AUDIO_DESCR_SIZE → BitVec 8) :=
  bs.flatMap DataBlock.audioDescriptors

/-- `t` is what the scan `s` becomes behind the data blocks `bs`. -/
structure Past (bs : List DataBlock) (s t : Scan) : Prop where
  index : t.DataIndex = s.DataIndex + (content bs).length
  videoIndex : t.V_DescriptorIndex = s.V_DescriptorIndex + (keptVideos bs).length
  audioIndex : t.A_DescriptorIndex = s.A_DescriptorIndex + (audioDescriptors bs).length
  video : t.edid.VideoDescriptor =
    overwrite s.V_DescriptorIndex (keptVideos bs) s.edid.VideoDescriptor
  audio : t.edid.AudioDescriptor =
    overwrite s.A_DescriptorIndex (audioDescriptors bs) s.edid.AudioDescriptor
  sink : t.edid.HDMI_Sink = true ↔ s.edid.HDMI_Sink = true ∨ ∃ b ∈ bs, b.Hdmi

theorem Past.nil (s : Scan) : Past [] s s := by
  constructor <;> simp [keptVideos, audioDescriptors]

theorem Past.cons {b : DataBlock} {bs : List DataBlock} {s s' t : Scan} (h : Past [b] s s')
    (h' : Past bs s' t) : Past (b :: bs) s t := by
  have hv : keptVideos (b :: bs) = keptVideos [b] ++ keptVideos bs := by simp [keptVideos]
  have ha : audioDescriptors (b :: bs) = audioDescriptors [b] ++ audioDescriptors bs := by
    simp [audioDescriptors]
  constructor
  · rw [h'.index, h.index]
    simp [Nat.add_assoc]
  · rw [h'.videoIndex, h.videoIndex, hv, List.length_append, Nat.add_assoc]
  · rw [h'.audioIndex, h.audioIndex, ha, List.length_append, Nat.add_assoc]
  · rw [h'.video, h.videoIndex, h.video, overwrite_append, hv]
  · rw [h'.audio, h.audioIndex, h.audio, overwrite_append, ha]
  · rw [h'.sink, h.sink]
    simp [or_assoc]

/-- A data block of which nothing is stored, and that is no vendor's. -/
theorem Past.plain {b : DataBlock} {s s' : Scan} (hkind : b.kind = some .SPKR_ALLOC_D_BLOCK ∨
      b.kind = some .USE_EXTENDED_TAG)
    (hi : s'.DataIndex = s.DataIndex + 1 + b.payload.length)
    (hv : s'.V_DescriptorIndex = s.V_DescriptorIndex)
    (ha : s'.A_DescriptorIndex = s.A_DescriptorIndex)
    (hvideo : s'.edid.VideoDescriptor = s.edid.VideoDescriptor)
    (haudio : s'.edid.AudioDescriptor = s.edid.AudioDescriptor)
    (hsink : s'.edid.HDMI_Sink = s.edid.HDMI_Sink) : Past [b] s s' := by
  have hkept : keptVideos [b] = [] := by
    rcases hkind with h | h <;> simp [keptVideos, DataBlock.videoDescriptors, h]
  have hkeptAudio : audioDescriptors [b] = [] := by
    rcases hkind with h | h <;> simp [audioDescriptors, DataBlock.audioDescriptors, h]
  have hnot : ¬ b.Hdmi := by
    rcases hkind with h | h <;> simp [DataBlock.Hdmi, h]
  constructor
  · simp [hi, DataBlock.size]
    omega
  · simp [hv, hkept]
  · simp [ha, hkeptAudio]
  · simp [hvideo, hkept]
  · simp [haudio, hkeptAudio]
  · simp [hsink, hnot]

/-- The scan behind the header at `s`. -/
def Scan.body (s : Scan) : Scan := { s with DataIndex := s.DataIndex + 1 }

section Block

variable {b : DataBlock}

theorem videoBlock_past (hk : b.kind = some .VIDEO_D_BLOCK)
    (hd : d.Holds s.body.DataIndex b.payload)
    (hr : s.body.DataIndex + b.payload.length ≤ EDID_BLOCK_SIZE)
    (hv : s.V_DescriptorIndex + (keptVideos [b]).length ≤ MAX_V_DESCRIPTORS) :
    ∃ s', videoBlock d b.payload.length s.body = .ok s' ∧ Past [b] s s' := by
  have hkept : keptVideos [b] = b.payload.take MAX_V_DESCRIPTORS := by
    simp [keptVideos, DataBlock.videoDescriptors, hk]
  have hmin : (b.payload.take MAX_V_DESCRIPTORS).length
      = min b.payload.length MAX_V_DESCRIPTORS := by
    rw [List.length_take, Nat.min_comm]
  have htake : d.Holds s.body.DataIndex (b.payload.take MAX_V_DESCRIPTORS) := by
    rw [← List.take_append_drop MAX_V_DESCRIPTORS b.payload, holds_append] at hd
    exact hd.1
  have hrun := videoLoop_eq htake (by omega) (by rw [hkept] at hv; exact hv)
  rw [hmin] at hrun
  refine ⟨_, by rw [videoBlock, hrun]; rfl, ?_⟩
  have hnone : b.audioDescriptors = [] := by simp [DataBlock.audioDescriptors, hk]
  constructor
  · simp [Scan.body, DataBlock.size]
    omega
  · simp [Scan.body, hkept, Nat.min_comm]
  · simp [Scan.body, audioDescriptors, hnone]
  · simp [Scan.body, hkept]
  · simp [Scan.body, audioDescriptors, hnone]
  · simp [Scan.body, DataBlock.Hdmi, hk]

theorem audioBlock_past (hk : b.kind = some .AUDIO_D_BLOCK) (hlen : 3 ∣ b.payload.length)
    (hd : d.Holds s.body.DataIndex b.payload)
    (hr : s.body.DataIndex + b.payload.length ≤ EDID_BLOCK_SIZE)
    (ha : s.A_DescriptorIndex + (audioDescriptors [b]).length ≤ MAX_A_DESCRIPTORS) :
    ∃ s', audioLoop d (b.payload.length / 3) s.body = .ok s' ∧ Past [b] s s' := by
  have hkept : audioDescriptors [b] = audioDescriptorsOf b.payload := by
    simp [audioDescriptors, DataBlock.audioDescriptors, hk]
  have hcount : (audioDescriptorsOf b.payload).length = b.payload.length / 3 :=
    length_audioDescriptorsOf _
  refine ⟨_, audioLoop_eq hd hr (by rw [hkept, hcount] at ha; exact ha), ?_⟩
  have hnone : b.videoDescriptors = [] := by simp [DataBlock.videoDescriptors, hk]
  have hwhole : 3 * (b.payload.length / 3) = b.payload.length := Nat.mul_div_cancel' hlen
  constructor
  · simp [Scan.body, DataBlock.size, hwhole]
    omega
  · simp [Scan.body, keptVideos, hnone]
  · simp [Scan.body, hkept, hcount]
  · simp [Scan.body, keptVideos, hnone]
  · simp [Scan.body, hkept]
  · simp [Scan.body, DataBlock.Hdmi, hk]

theorem speakerBlock_past (hk : b.kind = some .SPKR_ALLOC_D_BLOCK) (hlen : b.payload.length = 3)
    (hr : s.body.DataIndex + b.payload.length ≤ EDID_BLOCK_SIZE) :
    ∃ s', speakerBlock d s.body = .ok s' ∧ Past [b] s s' := by
  have hread : s.body.DataIndex < EDID_BLOCK_SIZE := by omega
  have hspeaker : 0 < MAX_SPEAKER_CONFIGURATIONS := by decide
  simp only [speakerBlock, read_of_lt hread, Scan.storeSpeaker, hspeaker, dif_pos, bind,
    Except.bind, pure, Except.pure]
  refine ⟨_, rfl, Past.plain (.inl hk) ?_ rfl rfl rfl rfl rfl⟩
  simp [Scan.body, hlen, Nat.add_assoc]

/-- The extended tags of which the code knows the length, and one that has no
more than its code. -/
theorem extendedBlock_past (hk : b.kind = some .USE_EXTENDED_TAG) {c : BitVec 8}
    {l : List (BitVec 8)} (hp : b.payload = c :: l)
    (hlen : l.length = if c = VIDEO_CAPABILITY_D_BLOCK then 1
      else if c = COLORIMETRY_D_BLOCK then 2 else 0)
    (hd : d.Holds s.body.DataIndex b.payload)
    (hr : s.body.DataIndex + b.payload.length ≤ EDID_BLOCK_SIZE) :
    ∃ s', extendedBlock d s.body = .ok s' ∧ Past [b] s s' := by
  rw [hp] at hd hr
  obtain ⟨hc, -⟩ := hd
  simp only [List.length_cons] at hr
  have hread : s.body.DataIndex < EDID_BLOCK_SIZE := by omega
  have hlast : b.payload.length = l.length + 1 := by rw [hp, List.length_cons]
  have hplain := fun s' hi => @Past.plain b s s' (.inr hk) hi
  rw [extendedBlock, read_of_lt hread]
  by_cases hcap : c = VIDEO_CAPABILITY_D_BLOCK
  · simp only [bind, Except.bind, hc, hcap, if_true, pure, Except.pure]
    rw [if_pos hcap] at hlen
    refine ⟨_, rfl, hplain _ ?_ rfl rfl rfl rfl rfl⟩
    simp [Scan.body, hlast, hlen, Nat.add_assoc]
  · by_cases hcol : c = COLORIMETRY_D_BLOCK
    · rw [if_neg hcap, if_pos hcol] at hlen
      have h1 : s.body.DataIndex + 1 < EDID_BLOCK_SIZE := by omega
      have h2 : s.body.DataIndex + 1 + 1 < EDID_BLOCK_SIZE := by omega
      rw [hcol] at hcap
      simp only [bind, Except.bind, hc, hcol, hcap, if_false, if_true, read_of_lt, h1, h2, pure,
        Except.pure]
      refine ⟨_, rfl, hplain _ ?_ rfl rfl rfl rfl rfl⟩
      simp [Scan.body, hlast, hlen, Nat.add_assoc]
    · simp only [bind, Except.bind, hc, hcap, hcol, if_false, pure, Except.pure]
      rw [if_neg hcap, if_neg hcol] at hlen
      refine ⟨_, rfl, hplain _ ?_ rfl rfl rfl rfl rfl⟩
      simp [Scan.body, hlast, hlen]

/-- The signature is read whole, so that the five bytes taken off again are those
that were read. -/
theorem vendorBlock_past (hk : b.kind = some .VENDOR_SPEC_D_BLOCK) {x a c : BitVec 8}
    {l : List (BitVec 8)} (hp : b.payload = 0x03#8 :: 0x0C#8 :: x :: a :: c :: l)
    (hd : d.Holds s.body.DataIndex b.payload)
    (hr : s.body.DataIndex + b.payload.length < EDID_BLOCK_SIZE)
    (hstay : s.edid.HDMI_Sink = true → b.Hdmi) :
    ∃ s', vendorBlock d b.payload.length s.body = .ok s' ∧ Past [b] s s' := by
  have hlen : b.payload.length = l.length + 5 := by simp [hp]
  rw [hp] at hd
  obtain ⟨h0, h1, h2, -⟩ := hd
  have hread : ∀ k ≤ 4, s.body.DataIndex + k < EDID_BLOCK_SIZE := by
    intro k hk
    omega
  have r0 := hread 0 (by decide)
  have r1 := hread 1 (by decide)
  have r2 := hread 2 (by decide)
  have r3 := hread 3 (by decide)
  have r4 := hread 4 (by decide)
  -- the 3D bit is looked for inside the data block
  have hthree : ∀ u : Scan, u.DataIndex = s.body.DataIndex + 5 → ∃ present,
      threeD d (s.body.DataIndex - 1) b.payload.length u = .ok present := by
    intro u hu
    rw [threeD]
    by_cases hover : u.DataIndex + 7 > s.body.DataIndex - 1 + b.payload.length
    · exact ⟨false, by rw [if_pos hover]; rfl⟩
    · have hin : u.DataIndex + 7 < EDID_BLOCK_SIZE := by omega
      rw [if_neg hover]
      exact ⟨_, by simp only [EdidBlock.read, hin, dif_pos, bind, Except.bind]; rfl⟩
  simp only [Nat.add_zero] at r0
  simp only [vendorBlock, signature, read_of_lt, r0, r1, r2, r3, r4, h0, h1, h2, bind, Except.bind,
    pure, Except.pure, ne_eq, not_true_eq_false, if_false, Nat.add_assoc, Nat.reduceAdd]
  obtain ⟨present, hpresent⟩ := hthree ⟨s.body.DataIndex + 5, s.body.V_DescriptorIndex,
    s.body.A_DescriptorIndex, _⟩ rfl
  rw [hpresent]
  refine ⟨_, rfl, ?_⟩
  have hv : b.videoDescriptors = [] := by simp [DataBlock.videoDescriptors, hk]
  have ha : b.audioDescriptors = [] := by simp [DataBlock.audioDescriptors, hk]
  have hhdmi : b.Hdmi ↔ x = 0x00#8 := by
    simp only [DataBlock.Hdmi, hk, hp, true_and, List.cons_prefix_cons, List.nil_prefix, and_true]
    exact eq_comm
  constructor
  · simp only [Scan.body, EDID_BLOCK_SIZE, HDMI_SIGNATURE_LEN, CEC_PHYS_ADDR_LEN, content_cons,
      content_nil, List.append_nil, DataBlock.length_bytes, DataBlock.size] at hr ⊢
    omega
  · simp [Scan.body, keptVideos, hv]
  · simp [Scan.body, audioDescriptors, ha]
  · simp [Scan.body, keptVideos, hv]
  · simp [Scan.body, audioDescriptors, ha]
  · simp only [List.mem_singleton, exists_eq_left, decide_eq_true_eq]
    rw [hhdmi]
    exact ⟨.inr, fun h => h.elim (fun h => hhdmi.mp (hstay h)) id⟩

/-- **The rule of a data block**: one of a form the parser is written for leaves
the scan behind it. -/
theorem dataBlock_past (hproper : b.Proper) (hd : d.Holds s.body.DataIndex b.payload)
    (hr : s.body.DataIndex + b.payload.length < EDID_BLOCK_SIZE)
    (hv : s.V_DescriptorIndex + (keptVideos [b]).length ≤ MAX_V_DESCRIPTORS)
    (ha : s.A_DescriptorIndex + (audioDescriptors [b]).length ≤ MAX_A_DESCRIPTORS)
    (hstay : b.kind = some .VENDOR_SPEC_D_BLOCK → s.edid.HDMI_Sink = true → b.Hdmi) :
    ∃ tag s', b.kind = some tag ∧ dataBlock d tag b.payload.length s.body = .ok s' ∧
      Past [b] s s' := by
  cases hproper with
  | video hk =>
    obtain ⟨s', hrun, hpast⟩ := videoBlock_past hk hd hr.le hv
    exact ⟨_, s', hk, hrun, hpast⟩
  | audio hk hlen =>
    obtain ⟨s', hrun, hpast⟩ := audioBlock_past hk hlen hd hr.le ha
    exact ⟨_, s', hk, hrun, hpast⟩
  | speaker hk hlen =>
    obtain ⟨s', hrun, hpast⟩ := speakerBlock_past (d := d) hk hlen hr.le
    exact ⟨_, s', hk, hrun, hpast⟩
  | capability hk hp =>
    obtain ⟨s', hrun, hpast⟩ := extendedBlock_past hk hp (by simp) hd hr.le
    exact ⟨_, s', hk, hrun, hpast⟩
  | colorimetry hk hp =>
    obtain ⟨s', hrun, hpast⟩ := extendedBlock_past hk hp rfl hd hr.le
    exact ⟨_, s', hk, hrun, hpast⟩
  | bare hk hcap hcol hp =>
    obtain ⟨s', hrun, hpast⟩ := extendedBlock_past hk hp (by simp [hcap, hcol]) hd hr.le
    exact ⟨_, s', hk, hrun, hpast⟩
  | vendor hk hp =>
    obtain ⟨s', hrun, hpast⟩ := vendorBlock_past hk hp hd hr (hstay hk)
    exact ⟨_, s', hk, hrun, hpast⟩

/-- The turn at such a data block. -/
theorem shortTurn_past (hproper : b.Proper) (hd : d.Holds s.DataIndex b.bytes)
    (hoff : s.DataIndex + b.size ≤ d.off) (hroom : d.off < EDID_BLOCK_SIZE)
    (hv : s.V_DescriptorIndex + (keptVideos [b]).length ≤ MAX_V_DESCRIPTORS)
    (ha : s.A_DescriptorIndex + (audioDescriptors [b]).length ≤ MAX_A_DESCRIPTORS)
    (hstay : b.kind = some .VENDOR_SPEC_D_BLOCK → s.edid.HDMI_Sink = true → b.Hdmi) :
    ∃ s', shortTurn d s = .next s' ∧ Past [b] s s' := by
  obtain ⟨hheader, hpayload⟩ := hd
  rw [DataBlock.size] at hoff
  have hbefore : s.DataIndex < d.off := by omega
  have hin : s.DataIndex < EDID_BLOCK_SIZE := by omega
  have hbody : s.body.DataIndex = s.DataIndex + 1 := rfl
  have hend : ¬ s.DataIndex + 1 + b.payload.length > d.off := by omega
  obtain ⟨tag, s', hk, hrun, hpast⟩ := dataBlock_past hproper hpayload (by omega) hv ha hstay
  refine ⟨s', ?_, hpast⟩
  have hrun' : dataBlock d tag b.payload.length { s with DataIndex := s.DataIndex + 1 }
      = .ok s' := hrun
  have hk' : tagCode b.header = some tag := hk
  rw [shortTurn, if_pos hbefore, read_of_lt hin]
  simp only [hheader, b.dataBlockLength_header, hend, if_false, hk', hrun']

end Block

/-! ## From one data block to the next -/

/-- Where the data blocks `bs` have their headers, from `i` on. -/
def starts : Nat → List DataBlock → List Nat
  | _, [] => []
  | i, b :: bs => i :: starts (i + b.size) bs

/-- **The walk**: the turns are made at the headers, each once and in order. -/
theorem walk {bs : List DataBlock} (hproper : ∀ b ∈ bs, b.Proper)
    (hd : d.Holds s.DataIndex (content bs)) (hoff : s.DataIndex + (content bs).length ≤ d.off)
    (hroom : d.off < EDID_BLOCK_SIZE)
    (hv : s.V_DescriptorIndex + (keptVideos bs).length ≤ MAX_V_DESCRIPTORS)
    (ha : s.A_DescriptorIndex + (audioDescriptors bs).length ≤ MAX_A_DESCRIPTORS)
    (hstay : SinkStays (s.edid.HDMI_Sink = true) bs) :
    ∃ ts t, Passes (shortTurn d) s ts t ∧ ts.map Scan.DataIndex = starts s.DataIndex bs ∧
      Past bs s t := by
  induction bs generalizing s with
  | nil => exact ⟨[], s, .done s, rfl, .nil s⟩
  | cons b bs ih =>
    rw [content_cons, holds_append] at hd
    obtain ⟨hbytes, hrest⟩ := hd
    obtain ⟨hkeep, hstay⟩ := hstay
    have hv' : keptVideos (b :: bs) = keptVideos [b] ++ keptVideos bs := by simp [keptVideos]
    have ha' : audioDescriptors (b :: bs) = audioDescriptors [b] ++ audioDescriptors bs := by
      simp [audioDescriptors]
    rw [hv', List.length_append] at hv
    rw [ha', List.length_append] at ha
    rw [content_cons, List.length_append, DataBlock.length_bytes] at hoff
    obtain ⟨s', hturn, hpast⟩ := shortTurn_past (hproper b List.mem_cons_self) hbytes (by omega)
      hroom (by omega) (by omega) hkeep
    have hindex : s'.DataIndex = s.DataIndex + b.size := by simpa using hpast.index
    have hsink : (s.edid.HDMI_Sink = true ∨ b.Hdmi) = (s'.edid.HDMI_Sink = true) := by
      rw [hpast.sink]
      simp
    rw [hsink] at hstay
    obtain ⟨ts, t, hpass, hts, hpast'⟩ := ih (fun c hc => hproper c (List.mem_cons_of_mem _ hc))
      (by rw [hindex]; exact hrest) (by omega) (by rw [hpast.videoIndex]; omega)
      (by rw [hpast.audioIndex]; omega) hstay
    refine ⟨s :: ts, t, .more hturn hpass, ?_, hpast.cons hpast'⟩
    rw [List.map_cons, hts, hindex]
    rfl

/-- The parser has gone through the data blocks `bs`, of which `vs` are the short
video descriptors, and returned `code` with `g'` in place of `g`. -/
structure Walked (d : EdidBlock) (bs : List DataBlock) (vs : List (BitVec 8)) (code : EdidCode)
    (g g' : GlobalEdid) : Prop where
  /-- Every header is read once, in order, and no other place is. -/
  seen : ∃ ts t, Passes (shortTurn d) (Scan.start d g) ts t ∧ shortTurn d t = .ret (code, g') ∧
    ts.map Scan.DataIndex = starts EDID_DATA_START bs ∧
    t.DataIndex = EDID_DATA_START + (content bs).length
  returns : Ends (fun n => parse861ShortDescriptors n d g) (code, g')
  sink : g'.HDMI_Sink = true ↔ g.HDMI_Sink = true ∨ ∃ b ∈ bs, b.Hdmi
  videos : vs.length ≤ MAX_V_DESCRIPTORS ∧ g'.VideoDescriptor = overwrite 0 vs g.VideoDescriptor
  audios : (audioDescriptors bs).length ≤ MAX_A_DESCRIPTORS ∧
    g'.AudioDescriptor = overwrite 0 (audioDescriptors bs) g.AudioDescriptor

/-- The turn behind the data blocks that were taken: there are no more of them, or
the next has no known tag. -/
theorem shortTurn_last {rest : List DataBlock} (hd : d.Holds s.DataIndex (content rest))
    (hoff : d.off = s.DataIndex + (content rest).length) (hroom : d.off < EDID_BLOCK_SIZE)
    (hrest : ∀ b ∈ rest.head?, b.kind = none) :
    shortTurn d s =
      .ret (if rest = [] then .SHORT_DESCRIPTORS_OK else .UNKNOWN_TAG_CODE, s.edid) := by
  cases rest with
  | nil =>
    have hend : ¬ s.DataIndex < d.off := by simp [hoff]
    rw [shortTurn, if_neg hend, if_pos rfl]
  | cons b rest =>
    have hkind : tagCode b.header = none := hrest b rfl
    obtain ⟨⟨hheader, -⟩, -⟩ := holds_append.mp hd
    rw [content_cons, List.length_append, DataBlock.length_bytes, DataBlock.size] at hoff
    have hbefore : s.DataIndex < d.off := by omega
    have hin : s.DataIndex < EDID_BLOCK_SIZE := by omega
    have hend : ¬ s.DataIndex + 1 + b.payload.length > d.off := by omega
    rw [shortTurn, if_pos hbefore, read_of_lt hin]
    simp only [hheader, b.dataBlockLength_header, hend, if_false, hkind, List.cons_ne_nil]

/-- **The data blocks of an extension are walked through**: of an extension filled
by data blocks, those in front of the first with an unknown tag are each seen
once and in order, if they have the forms the parser is written for, the arrays
hold their descriptors and a sink once known to be HDMI is not denied again; the
sink is HDMI exactly if one of them says so, and the descriptors stored are
theirs, of a video block the first twenty. At the unknown tag the parser gives
up. -/
theorem short_walks {bs rest : List DataBlock} (hd : Consists d (bs ++ rest))
    (hproper : ∀ b ∈ bs, b.Proper) (hrest : ∀ b ∈ rest.head?, b.kind = none)
    (hv : (keptVideos bs).length ≤ MAX_V_DESCRIPTORS)
    (ha : (audioDescriptors bs).length ≤ MAX_A_DESCRIPTORS)
    (hstay : SinkStays (g.HDMI_Sink = true) bs) :
    ∃ g', Walked d bs (keptVideos bs)
      (if rest = [] then .SHORT_DESCRIPTORS_OK else .UNKNOWN_TAG_CODE) g g' := by
  have hcontent : content (bs ++ rest) = content bs ++ content rest := by simp [content]
  have hoff := hd.off
  have hholds := hd.holds
  rw [hcontent, List.length_append] at hoff
  rw [hcontent, holds_append] at hholds
  obtain ⟨ts, t, hpass, hts, hpast⟩ := walk (s := Scan.start d g) hproper hholds.1
    (by rw [hoff]; simp [Scan.start]) hd.room (by simpa [Scan.start] using hv)
    (by simpa [Scan.start] using ha) hstay
  have hindex : t.DataIndex = EDID_DATA_START + (content bs).length := hpast.index
  have hturn := shortTurn_last (s := t) (by rw [hindex]; exact hholds.2)
    (by rw [hindex, hoff, Nat.add_assoc]) hd.room hrest
  refine ⟨t.edid, ⟨ts, t, hpass, hturn, hts, hindex⟩, ?_, hpast.sink, ⟨hv, hpast.video⟩,
    ⟨ha, hpast.audio⟩⟩
  simp only [parse861ShortDescriptors_of_isCea hd.cea]
  exact iterate_ends_iff.mpr ⟨t, hpass.meets, hturn⟩

/-- An extension with a video, an audio, a speaker allocation, a colorimetry and a
vendor block, and one with a reserved tag behind them. -/
def mixedBlocks : List DataBlock :=
  [⟨2, [0x90, 0x04, 0x03], by decide⟩, ⟨1, [0x09, 0x07, 0x07], by decide⟩,
    ⟨4, [0x01, 0x00, 0x00], by decide⟩, ⟨7, [0x05, 0x03, 0x01], by decide⟩,
    ⟨3, [0x03, 0x0C, 0x00, 0x10, 0x00], by decide⟩]

def reservedBlock : DataBlock := ⟨5, [], by decide⟩

theorem mixedBlocks_proper : ∀ b ∈ mixedBlocks, b.Proper := by
  simp only [mixedBlocks, List.forall_mem_cons, List.not_mem_nil, false_implies, implies_true,
    and_true]
  exact ⟨.video (by decide), .audio (by decide) (by decide), .speaker (by decide) rfl,
    .colorimetry (by decide) rfl, .vendor (by decide) rfl⟩

theorem short_walks_mixed : ∃ g', Walked (ofBlocks (mixedBlocks ++ [reservedBlock])) mixedBlocks
    (keptVideos mixedBlocks) .UNKNOWN_TAG_CODE .zero g' :=
  @short_walks _ _ mixedBlocks [reservedBlock] (consists_ofBlocks (by decide)) mixedBlocks_proper
    (by decide) (by decide) (by decide) (by simp only [SinkStays, mixedBlocks]; decide)

/-- All data blocks are seen and all their descriptors stored. -/
def AllSeen (d : EdidBlock) (bs : List DataBlock) (g : GlobalEdid) : Prop :=
  ∃ g', Walked d bs (bs.flatMap DataBlock.videoDescriptors) .SHORT_DESCRIPTORS_OK g g'

def longVideoBlock : DataBlock := ⟨2, List.replicate 25 0x04, by decide⟩

def speakerOfOne : DataBlock := ⟨4, [0x01], by decide⟩

/-- A reserved tag ends the parse, of twenty-five video descriptors five are
skipped, and speaker allocation is three bytes to the parser whatever its
header says. -/
theorem all_seen_broken :
    (Consists (ofBlocks [reservedBlock]) [reservedBlock] ∧
      ¬ AllSeen (ofBlocks [reservedBlock]) [reservedBlock] .zero) ∧
    (Consists (ofBlocks [longVideoBlock]) [longVideoBlock] ∧
      ¬ AllSeen (ofBlocks [longVideoBlock]) [longVideoBlock] .zero) ∧
    (Consists (ofBlocks [speakerOfOne]) [speakerOfOne] ∧
      ¬ AllSeen (ofBlocks [speakerOfOne]) [speakerOfOne] .zero) := by
  have hreserved : Consists (ofBlocks [reservedBlock]) [reservedBlock] :=
    consists_ofBlocks (by decide)
  have hspeaker : Consists (ofBlocks [speakerOfOne]) [speakerOfOne] :=
    consists_ofBlocks (by decide)
  refine ⟨⟨hreserved, ?_⟩, ⟨consists_ofBlocks (by decide), ?_⟩, hspeaker, ?_⟩
  · rintro ⟨g', h⟩
    have hturn := shortTurn_last (s := Scan.start (ofBlocks [reservedBlock]) .zero)
      hreserved.holds hreserved.off hreserved.room (by decide)
    rw [if_neg (List.cons_ne_nil _ _)] at hturn
    have hreturns := h.returns
    simp only [parse861ShortDescriptors_of_isCea hreserved.cea] at hreturns
    have hcode : EdidCode.SHORT_DESCRIPTORS_OK = .UNKNOWN_TAG_CODE :=
      congrArg Prod.fst ((ends_of_ret hturn).mp hreturns)
    exact absurd hcode (by decide)
  · rintro ⟨g', h⟩
    exact absurd h.videos.1 (by decide)
  · rintro ⟨g', h⟩
    obtain ⟨ts, t, hpass, -, hts, hindex⟩ := h.seen
    cases hpass with
    | done => cases hts
    | more hturn hrest =>
      cases hrest with
      | more _ _ => exact absurd (congrArg List.length hts) (by simp [starts])
      | done =>
        obtain ⟨tag, htaken, hplace⟩ := taken_of_next hturn
        obtain rfl : TagCode.SPKR_ALLOC_D_BLOCK = tag :=
          Option.some.inj (Eq.trans (by decide) htaken.known)
        have hthree : t.DataIndex = 8 := congrArg Place.DataIndex hplace
        rw [hindex] at hthree
        exact absurd hthree (by decide)

end ExtDrv.Sil9024
