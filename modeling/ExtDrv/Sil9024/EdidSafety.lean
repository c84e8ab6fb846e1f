import ExtDrv.Sil9024.Edid

/-!
# Memory safety of the EDID parser

The places the parser stops at depend on nothing but the bytes of the block:
`Lies` follows the data blocks of an extension as its headers chain them, and
`Fits` is what the data block at a place has to satisfy for its accesses to
stay inside the block and inside `g_edid`. `edid_safe_iff`: reading an EDID is
safe exactly when every data block that is reached fits.
-/

namespace ExtDrv.Sil9024

open Loop

/-! ## Places -/

/-- Where a scan stands: its offset, and how many descriptors are stored. -/
structure Place where
  DataIndex : Nat
  videos : Nat
  audios : Nat
  deriving DecidableEq, Repr

def Scan.place (s : Scan) : Place := ⟨s.DataIndex, s.V_DescriptorIndex, s.A_DescriptorIndex⟩

/-- Where a step lands, if it makes no bad access. -/
def landing : Except Fault Scan → Option Place
  | .ok s => some s.place
  | .error _ => none

@[simp] theorem landing_ok (s : Scan) : landing (.ok s) = some s.place := rfl
@[simp] theorem landing_error (e : Fault) : landing (.error e) = none := rfl

/-- The bytes a comparison with the HDMI signature consumes from `i` on. -/
def signatureLen (d : EdidBlock) (i : Nat) : Nat :=
  if d.byte i ≠ 0x03#8 then 1 else if d.byte (i + 1) ≠ 0x0C#8 then 2 else 3

/-- The accesses for a data block of `len` bytes, whose bytes start at `p`, stay
inside the block and the arrays. -/
def BodyFits (d : EdidBlock) (len : Nat) (p : Place) : TagCode → Prop
  | .VIDEO_D_BLOCK =>
      len = 0 ∨ p.DataIndex + min len MAX_V_DESCRIPTORS ≤ EDID_BLOCK_SIZE ∧
        p.videos + min len MAX_V_DESCRIPTORS ≤ MAX_V_DESCRIPTORS
  | .AUDIO_D_BLOCK =>
      len / 3 = 0 ∨ p.DataIndex + 3 * (len / 3) ≤ EDID_BLOCK_SIZE ∧
        p.audios + len / 3 ≤ MAX_A_DESCRIPTORS
  | .SPKR_ALLOC_D_BLOCK => p.DataIndex < EDID_BLOCK_SIZE
  | .USE_EXTENDED_TAG =>
      p.DataIndex < EDID_BLOCK_SIZE ∧
        (d.byte p.DataIndex = COLORIMETRY_D_BLOCK → p.DataIndex + 3 ≤ EDID_BLOCK_SIZE)
  | .VENDOR_SPEC_D_BLOCK =>
      p.DataIndex + signatureLen d p.DataIndex + 2 ≤ EDID_BLOCK_SIZE ∧
        (p.DataIndex + signatureLen d p.DataIndex + 9 ≤ p.DataIndex - 1 + len →
          p.DataIndex + signatureLen d p.DataIndex + 9 < EDID_BLOCK_SIZE)

instance BodyFits.decidable (d : EdidBlock) (len : Nat) (p : Place) :
    ∀ tag, Decidable (BodyFits d len p tag)
  | .VIDEO_D_BLOCK => inferInstanceAs (Decidable (_ ∨ _ ∧ _))
  | .AUDIO_D_BLOCK => inferInstanceAs (Decidable (_ ∨ _ ∧ _))
  | .SPKR_ALLOC_D_BLOCK => inferInstanceAs (Decidable (_ < _))
  | .USE_EXTENDED_TAG => inferInstanceAs (Decidable (_ ∧ (_ → _)))
  | .VENDOR_SPEC_D_BLOCK => inferInstanceAs (Decidable (_ ∧ (_ → _)))

/-- The place behind a data block. A vendor block is left by its length from
where the comparison and the physical address have led. -/
def bodyNext (d : EdidBlock) (len : Nat) (p : Place) : TagCode → Place
  | .VIDEO_D_BLOCK =>
      { p with
        DataIndex := p.DataIndex + len
        videos := p.videos + min len MAX_V_DESCRIPTORS }
  | .AUDIO_D_BLOCK =>
      { p with
        DataIndex := p.DataIndex + 3 * (len / 3)
        audios := p.audios + len / 3 }
  | .SPKR_ALLOC_D_BLOCK => { p with DataIndex := p.DataIndex + 3 }
  | .USE_EXTENDED_TAG =>
      { p with
        DataIndex := p.DataIndex +
          if d.byte p.DataIndex = VIDEO_CAPABILITY_D_BLOCK then 2
          else if d.byte p.DataIndex = COLORIMETRY_D_BLOCK then 3
          else 1 }
  | .VENDOR_SPEC_D_BLOCK =>
      { p with
        DataIndex := (p.DataIndex + signatureLen d p.DataIndex + 2 + len + 256 - 5) % 256 }

/-! ## Where the loops over a data block land -/

theorem read_of_lt {d : EdidBlock} {s : Scan} (h : s.DataIndex < EDID_BLOCK_SIZE) :
    s.read d = .ok (d.byte s.DataIndex, { s with DataIndex := s.DataIndex + 1 }) := by
  simp [Scan.read, EdidBlock.read, EdidBlock.byte, h, bind, Except.bind, pure, Except.pure]

theorem read_of_not_lt {d : EdidBlock} {s : Scan} (h : ¬ s.DataIndex < EDID_BLOCK_SIZE) :
    s.read d = .error (.read s.DataIndex) := by
  simp [Scan.read, EdidBlock.read, h, bind, Except.bind]

/-- **The rule of a read**: the next byte is taken, if it is one of the block. -/
theorem landing_read (d : EdidBlock) (s : Scan) (k : BitVec 8 × Scan → Except Fault Scan) :
    landing (s.read d >>= k) =
      if s.DataIndex < EDID_BLOCK_SIZE then
        landing (k (d.byte s.DataIndex, { s with DataIndex := s.DataIndex + 1 }))
      else none := by
  by_cases h : s.DataIndex < EDID_BLOCK_SIZE
  · rw [read_of_lt h, if_pos h]
    rfl
  · rw [read_of_not_lt h, if_neg h]
    rfl

/-- **The rule of sequence**, where the second part lands by the place it starts
from alone. -/
theorem landing_bind {x : Except Fault Scan} {k : Scan → Except Fault Scan}
    (f : Place → Option Place) (h : ∀ s, landing (k s) = f s.place) :
    landing (x >>= k) = (landing x).bind f := by
  cases x with
  | error e => rfl
  | ok s => exact h s

theorem videoLoop_landing (d : EdidBlock) (n : Nat) (s : Scan) :
    landing (videoLoop d n s) =
      if n = 0 ∨ s.DataIndex + n ≤ EDID_BLOCK_SIZE ∧
          s.V_DescriptorIndex + n ≤ MAX_V_DESCRIPTORS then
        some ⟨s.DataIndex + n, s.V_DescriptorIndex + n, s.A_DescriptorIndex⟩
      else none := by
  induction n generalizing s with
  | zero => simp [videoLoop, Scan.place]
  | succ n ih =>
      rw [videoLoop, landing_read]
      -- the read goes first: a turn that would leave both faults on the read
      by_cases hv : s.V_DescriptorIndex < MAX_V_DESCRIPTORS
      · simp only [Scan.storeVideo, dif_pos hv, bind, Except.bind, ih, Nat.add_assoc,
          Nat.add_comm 1 n, Nat.add_eq_zero_iff, Nat.one_ne_zero, and_false, false_or]
        split_ifs <;> first | rfl | omega
      · simp only [Scan.storeVideo, dif_neg hv, bind, Except.bind, landing_error,
          Nat.add_eq_zero_iff, Nat.one_ne_zero, and_false, false_or]
        split_ifs <;> first | rfl | omega

/-- The three bytes of a short audio descriptor, or as many as are left of it. -/
theorem audioDescr_landing (d : EdidBlock) (js : List (Fin AUDIO_DESCR_SIZE)) (s : Scan) :
    landing (audioDescr d js s) =
      if js.length = 0 ∨ s.DataIndex + js.length ≤ EDID_BLOCK_SIZE ∧
          s.A_DescriptorIndex < MAX_A_DESCRIPTORS then
        some { s.place with DataIndex := s.DataIndex + js.length }
      else none := by
  induction js generalizing s with
  | nil => simp [audioDescr, Scan.place]
  | cons j js ih =>
      rw [audioDescr, landing_read, List.length_cons]
      by_cases ha : s.A_DescriptorIndex < MAX_A_DESCRIPTORS
      · simp only [Scan.storeAudio, dif_pos ha, bind, Except.bind, ih, Nat.add_assoc,
          Nat.add_comm 1 js.length, Nat.add_eq_zero_iff, Nat.one_ne_zero, and_false, false_or]
        split_ifs <;> first | rfl | omega
      · simp only [Scan.storeAudio, dif_neg ha, bind, Except.bind, landing_error,
          Nat.add_eq_zero_iff, Nat.one_ne_zero, and_false, false_or]
        split_ifs <;> first | rfl | omega

theorem audioLoop_landing (d : EdidBlock) (n : Nat) (s : Scan) :
    landing (audioLoop d n s) =
      if n = 0 ∨ s.DataIndex + 3 * n ≤ EDID_BLOCK_SIZE ∧
          s.A_DescriptorIndex + n ≤ MAX_A_DESCRIPTORS then
        some ⟨s.DataIndex + 3 * n, s.V_DescriptorIndex, s.A_DescriptorIndex + n⟩
      else none := by
  induction n generalizing s with
  | zero => simp [audioLoop, Scan.place]
  | succ n ih =>
      have hlen : (List.finRange AUDIO_DESCR_SIZE).length = 3 := List.length_finRange
      -- the rest of the loop, from the place the first descriptor leads to
      let rest (p : Place) : Option Place :=
        if n = 0 ∨ p.DataIndex + 3 * n ≤ EDID_BLOCK_SIZE ∧
            p.audios + 1 + n ≤ MAX_A_DESCRIPTORS then
          some ⟨p.DataIndex + 3 * n, p.videos, p.audios + 1 + n⟩
        else none
      rw [audioLoop, landing_bind rest (fun t => ih _), audioDescr_landing, hlen]
      by_cases h : s.DataIndex + 3 ≤ EDID_BLOCK_SIZE ∧ s.A_DescriptorIndex < MAX_A_DESCRIPTORS
      · rw [if_pos (.inr h), Option.bind_some]
        simp only [rest, Scan.place, Nat.mul_add, Nat.add_assoc, Nat.add_comm 1 n, Nat.mul_one,
          Nat.add_comm 3 (3 * n), Nat.add_eq_zero_iff, Nat.one_ne_zero, and_false, false_or]
        split_ifs <;> first | rfl | omega
      · rw [if_neg (by omega), if_neg (by omega)]
        rfl

/-! ## Where a data block lands -/

theorem videoBlock_landing (d : EdidBlock) (len : Nat) (s : Scan) :
    landing (videoBlock d len s) =
      if BodyFits d len s.place .VIDEO_D_BLOCK then some (bodyNext d len s.place .VIDEO_D_BLOCK)
      else none := by
  let skip (p : Place) : Option Place :=
    some { p with DataIndex := p.DataIndex + (len - min len MAX_V_DESCRIPTORS) }
  rw [videoBlock, landing_bind skip (fun t => rfl), videoLoop_landing]
  have hmin : min len MAX_V_DESCRIPTORS = 0 ↔ len = 0 := by simp [MAX_V_DESCRIPTORS]
  simp only [hmin]
  by_cases h : len = 0 ∨ s.DataIndex + min len MAX_V_DESCRIPTORS ≤ EDID_BLOCK_SIZE ∧
      s.V_DescriptorIndex + min len MAX_V_DESCRIPTORS ≤ MAX_V_DESCRIPTORS
  · have hfits : BodyFits d len s.place .VIDEO_D_BLOCK := h
    have hlen : s.DataIndex + min len MAX_V_DESCRIPTORS + (len - min len MAX_V_DESCRIPTORS)
        = s.DataIndex + len := by omega
    rw [if_pos h, if_pos hfits, Option.bind_some]
    simp only [skip, hlen]
    rfl
  · have hfits : ¬ BodyFits d len s.place .VIDEO_D_BLOCK := h
    rw [if_neg h, if_neg hfits]
    rfl

theorem audioBlock_landing (d : EdidBlock) (len : Nat) (s : Scan) :
    landing (audioLoop d (len / 3) s) =
      if BodyFits d len s.place .AUDIO_D_BLOCK then some (bodyNext d len s.place .AUDIO_D_BLOCK)
      else none := audioLoop_landing d (len / 3) s

theorem speakerBlock_landing (d : EdidBlock) (len : Nat) (s : Scan) :
    landing (speakerBlock d s) =
      if BodyFits d len s.place .SPKR_ALLOC_D_BLOCK then
        some (bodyNext d len s.place .SPKR_ALLOC_D_BLOCK)
      else none := by
  rw [speakerBlock, landing_read]
  rfl

theorem extendedBlock_landing (d : EdidBlock) (len : Nat) (s : Scan) :
    landing (extendedBlock d s) =
      if BodyFits d len s.place .USE_EXTENDED_TAG then
        some (bodyNext d len s.place .USE_EXTENDED_TAG)
      else none := by
  rw [extendedBlock, landing_read]
  simp only [BodyFits, bodyNext, Scan.place]
  by_cases hr : s.DataIndex < EDID_BLOCK_SIZE
  · by_cases hcap : d.byte s.DataIndex = VIDEO_CAPABILITY_D_BLOCK
    · have hcol : ¬ VIDEO_CAPABILITY_D_BLOCK = COLORIMETRY_D_BLOCK := by decide
      simp [hr, hcap, hcol, Scan.place, pure, Except.pure]
    · by_cases hcol : d.byte s.DataIndex = COLORIMETRY_D_BLOCK
      · have hne : ¬ COLORIMETRY_D_BLOCK = VIDEO_CAPABILITY_D_BLOCK := by decide
        simp only [hr, hcol, hne, if_true, if_false, true_and, forall_const, landing_read]
        split_ifs <;> first | rfl | omega
      · simp [hr, hcap, hcol, Scan.place, pure, Except.pure]
  · simp [hr]

/-- The comparison with the signature reads up to the first byte that differs. -/
theorem landing_signature (d : EdidBlock) (s : Scan) {k : Bool × Scan → Except Fault Scan}
    (f : Place → Option Place) (h : ∀ b t, landing (k (b, t)) = f t.place) :
    landing (signature d s >>= k) =
      if s.DataIndex + signatureLen d s.DataIndex ≤ EDID_BLOCK_SIZE then
        f { s.place with DataIndex := s.DataIndex + signatureLen d s.DataIndex }
      else none := by
  rw [signature, bind_assoc, landing_read, signatureLen]
  by_cases h0 : d.byte s.DataIndex = 0x03#8
  · simp only [h0, ne_eq, not_true_eq_false, if_false, bind_assoc, landing_read]
    by_cases h1 : d.byte (s.DataIndex + 1) = 0x0C#8
    · simp only [h1, not_true_eq_false, if_false, bind_assoc, landing_read, pure_bind, h]
      split_ifs <;> first | rfl | omega
    · simp only [h1, not_false_eq_true, if_true, pure_bind, h]
      split_ifs <;> first | rfl | omega
  · simp only [h0, ne_eq, not_false_eq_true, if_true, pure_bind, h]
    split_ifs <;> first | rfl | omega

theorem landing_threeD (d : EdidBlock) (base len : Nat) (s : Scan)
    {k : Bool → Except Fault Scan} (q : Option Place) (h : ∀ b, landing (k b) = q) :
    landing (threeD d base len s >>= k) =
      if s.DataIndex + 7 ≤ base + len → s.DataIndex + 7 < EDID_BLOCK_SIZE then q else none := by
  rw [threeD]
  by_cases hlen : s.DataIndex + 7 > base + len
  · have hno : s.DataIndex + 7 ≤ base + len → s.DataIndex + 7 < EDID_BLOCK_SIZE := by omega
    rw [if_pos hlen, if_pos hno, pure_bind, h]
  · rw [if_neg hlen]
    by_cases hr : s.DataIndex + 7 < EDID_BLOCK_SIZE
    · rw [if_pos fun _ => hr]
      simp [EdidBlock.read, hr, bind, Except.bind, pure, Except.pure, h]
    · rw [if_neg (by omega)]
      simp [EdidBlock.read, hr, bind, Except.bind]

theorem vendorBlock_landing (d : EdidBlock) (len : Nat) (s : Scan) :
    landing (vendorBlock d len s) =
      if BodyFits d len s.place .VENDOR_SPEC_D_BLOCK then
        some (bodyNext d len s.place .VENDOR_SPEC_D_BLOCK)
      else none := by
  -- behind the signature: the physical address, then the 3D bit
  let tail (p : Place) : Option Place :=
    if p.DataIndex < EDID_BLOCK_SIZE then
      if p.DataIndex + 1 < EDID_BLOCK_SIZE then
        if p.DataIndex + 2 + 7 ≤ s.DataIndex - 1 + len → p.DataIndex + 2 + 7 < EDID_BLOCK_SIZE then
          some { p with DataIndex := (p.DataIndex + 2 + len + 256 - 5) % 256 }
        else none
      else none
    else none
  rw [vendorBlock, landing_signature d s tail]
  · have hfits : BodyFits d len s.place .VENDOR_SPEC_D_BLOCK ↔
        s.DataIndex + signatureLen d s.DataIndex + 2 ≤ EDID_BLOCK_SIZE ∧
          (s.DataIndex + signatureLen d s.DataIndex + 9 ≤ s.DataIndex - 1 + len →
            s.DataIndex + signatureLen d s.DataIndex + 9 < EDID_BLOCK_SIZE) := Iff.rfl
    simp only [tail, hfits]
    split_ifs <;> first | rfl | omega
  · intro b t
    have hthree : ∀ (base : Nat) (u : Scan), landing (threeD d base len u >>= fun present =>
          pure { u with
            DataIndex := (u.DataIndex + len + 256 - HDMI_SIGNATURE_LEN - CEC_PHYS_ADDR_LEN) % 256
            edid.ThreeD_Supported := present }) =
        if u.DataIndex + 7 ≤ base + len → u.DataIndex + 7 < EDID_BLOCK_SIZE then
          some { u.place with DataIndex := (u.DataIndex + len + 256 - 5) % 256 }
        else none := fun base u => landing_threeD d base len u _ fun _ => rfl
    simp only [landing_read, hthree, tail, Scan.place]

/-- **Where a data block lands**: behind it, if its accesses fit. -/
theorem dataBlock_landing (d : EdidBlock) (tag : TagCode) (len : Nat) (s : Scan) :
    landing (dataBlock d tag len s) =
      if BodyFits d len s.place tag then some (bodyNext d len s.place tag) else none := by
  cases tag with
  | VIDEO_D_BLOCK => exact videoBlock_landing d len s
  | AUDIO_D_BLOCK => exact audioBlock_landing d len s
  | SPKR_ALLOC_D_BLOCK => exact speakerBlock_landing d len s
  | USE_EXTENDED_TAG => exact extendedBlock_landing d len s
  | VENDOR_SPEC_D_BLOCK => exact vendorBlock_landing d len s

theorem dataBlock_of_fits {d : EdidBlock} {tag : TagCode} {len : Nat} {s : Scan}
    (h : BodyFits d len s.place tag) :
    ∃ s', dataBlock d tag len s = .ok s' ∧ s'.place = bodyNext d len s.place tag := by
  have hland := dataBlock_landing d tag len s
  rw [if_pos h] at hland
  cases hbody : dataBlock d tag len s with
  | error e =>
      rw [hbody] at hland
      cases hland
  | ok s' =>
      rw [hbody] at hland
      exact ⟨s', rfl, Option.some.inj hland⟩

theorem dataBlock_of_not_fits {d : EdidBlock} {tag : TagCode} {len : Nat} {s : Scan}
    (h : ¬ BodyFits d len s.place tag) : ∃ e, dataBlock d tag len s = .error e := by
  have hland := dataBlock_landing d tag len s
  rw [if_neg h] at hland
  cases hbody : dataBlock d tag len s with
  | error e => exact ⟨e, rfl⟩
  | ok s' =>
      rw [hbody] at hland
      cases hland

/-! ## The data blocks of one extension -/

/-- The header of the data block at `p`. -/
def EdidBlock.header (d : EdidBlock) (p : Place) : BitVec 8 := d.byte p.DataIndex

/-- The length of the data block at `p`. -/
def EdidBlock.len (d : EdidBlock) (p : Place) : Nat := dataBlockLength (d.header p)

/-- The place behind the header at `p`. -/
def Place.body (p : Place) : Place := { p with DataIndex := p.DataIndex + 1 }

/-- The header at `p` is in the block; if the data block ends before the long
descriptors and its tag is known, the accesses for it fit. -/
def Fits (d : EdidBlock) (p : Place) : Prop :=
  p.DataIndex < EDID_BLOCK_SIZE ∧
    (p.DataIndex + 1 + d.len p ≤ d.off →
      ∀ tag, tagCode (d.header p) = some tag → BodyFits d (d.len p) p.body tag)

/-- The places of the data blocks, as their headers lead from one to the next. -/
inductive Lies (d : EdidBlock) : Place → Prop where
  | first : Lies d ⟨EDID_DATA_START, 0, 0⟩
  | next {p : Place} {tag : TagCode} : Lies d p → p.DataIndex < d.off →
      p.DataIndex + 1 + d.len p ≤ d.off → tagCode (d.header p) = some tag →
      Lies d (bodyNext d (d.len p) p.body tag)

/-- The tag and the revision of a CEA-861 extension, version 3. -/
def IsCea (d : EdidBlock) : Prop :=
  d.byte EDID_TAG_ADDR = EDID_EXTENSION_TAG ∧ d.byte EDID_REV_ADDR = EDID_REV_THREE

/-- Every data block the headers lead to fits. -/
def BlockFits (d : EdidBlock) : Prop :=
  IsCea d → ∀ p, Lies d p → p.DataIndex < d.off → Fits d p

/-- What `Parse861ShortDescriptors` returns when it gives an extension up. -/
def shortErrors : List EdidCode :=
  [.EXT_TAG_ERROR, .REV_ADDR_ERROR, .V_DESCR_OVERFLOW, .UNKNOWN_TAG_CODE]

/-- How a turn of the parser ends, by the place it stands at. -/
inductive Turned (d : EdidBlock) (s : Scan) : Turn Scan (EdidCode × GlobalEdid) Fault → Prop where
  /-- The long descriptors are reached. -/
  | ended : d.off ≤ s.DataIndex → Turned d s (.ret (.SHORT_DESCRIPTORS_OK, s.edid))
  /-- The data block is too long, or its tag is unknown. -/
  | refused {code : EdidCode} : s.DataIndex < d.off → Fits d s.place →
      (s.DataIndex + 1 + d.len s.place ≤ d.off → tagCode (d.header s.place) = none) →
      code ∈ shortErrors → Turned d s (.ret (code, s.edid))
  | fault (e : Fault) : s.DataIndex < d.off → ¬ Fits d s.place → Turned d s (.fault e)
  | next {tag : TagCode} {s' : Scan} : s.DataIndex < d.off → Fits d s.place →
      s.DataIndex + 1 + d.len s.place ≤ d.off → tagCode (d.header s.place) = some tag →
      s'.place = bodyNext d (d.len s.place) s.place.body tag → Turned d s (.next s')

/-- **The rule of a turn.** -/
theorem shortTurn_turned (d : EdidBlock) (s : Scan) : Turned d s (shortTurn d s) := by
  rw [shortTurn]
  by_cases hoff : s.DataIndex < d.off
  · rw [if_pos hoff]
    by_cases hr : s.DataIndex < EDID_BLOCK_SIZE
    · rw [read_of_lt hr]
      by_cases hlen : s.DataIndex + 1 + d.len s.place ≤ d.off
      · have hnot : ¬ s.DataIndex + 1 + dataBlockLength (d.byte s.DataIndex) > d.off := by
          exact Nat.not_lt.mpr hlen
        simp only [hnot, if_false]
        cases htag : tagCode (d.byte s.DataIndex) with
        | none =>
            apply Turned.refused hoff ⟨hr, fun _ tag ht => ?_⟩ (fun _ => htag) (by decide)
            exact absurd (htag.symm.trans ht) (by simp)
        | some tag =>
            dsimp only
            -- the accesses of the data block decide
            by_cases hbody : BodyFits d (d.len s.place) s.place.body tag
            · obtain ⟨s', hs', hplace⟩ := dataBlock_of_fits
                (s := { s with DataIndex := s.DataIndex + 1 }) hbody
              have hfits : Fits d s.place := by
                refine ⟨hr, fun _ tag' ht => ?_⟩
                rw [Option.some.inj (ht.symm.trans htag)]
                exact hbody
              rw [show dataBlock d tag (dataBlockLength (d.byte s.DataIndex))
                { s with DataIndex := s.DataIndex + 1 } = .ok s' from hs']
              exact .next hoff hfits hlen htag hplace
            · obtain ⟨e, he⟩ := dataBlock_of_not_fits
                (s := { s with DataIndex := s.DataIndex + 1 }) hbody
              rw [show dataBlock d tag (dataBlockLength (d.byte s.DataIndex))
                { s with DataIndex := s.DataIndex + 1 } = .error e from he]
              exact .fault e hoff fun hfits => hbody (hfits.2 hlen tag htag)
      · have hover : s.DataIndex + 1 + dataBlockLength (d.byte s.DataIndex) > d.off := by
          exact Nat.lt_of_not_le hlen
        simp only [hover, if_true]
        exact .refused hoff ⟨hr, fun h => absurd h hlen⟩ (fun h => absurd h hlen) (by decide)
    · rw [read_of_not_lt hr]
      exact .fault _ hoff fun hfits => hr hfits.1
  · rw [if_neg hoff]
    exact .ended (Nat.le_of_not_lt hoff)

/-- While every data block fits, the scans the loop meets stand at the places
of the data blocks, and the other way round. -/
theorem Lies.of_meets {d : EdidBlock} {g : GlobalEdid} {s : Scan}
    (h : Meets (shortTurn d) (Scan.start d g) s) : Lies d s.place := by
  apply h.inv (I := fun s : Scan => Lies d s.place) _ .first
  intro s s' hs hturn
  have hspec := shortTurn_turned d s
  rw [hturn] at hspec
  cases hspec with
  | next hoff _ hlen htag hplace =>
      rw [hplace]
      exact hs.next hoff hlen htag

theorem Lies.meets {d : EdidBlock} {g : GlobalEdid}
    (hsafe : ∀ s, Meets (shortTurn d) (Scan.start d g) s → ∀ e, shortTurn d s ≠ .fault e)
    {p : Place} (h : Lies d p) :
    ∃ s, Meets (shortTurn d) (Scan.start d g) s ∧ s.place = p := by
  induction h with
  | first => exact ⟨_, .here _, rfl⟩
  | next hp hoff hlen htag ih =>
      -- the scan at the place before makes a turn that neither faults nor returns
      obtain ⟨s, hmeets, rfl⟩ := ih
      have hspec := shortTurn_turned d s
      cases hturn : shortTurn d s with
      | fault e => exact absurd hturn (hsafe s hmeets e)
      | ret r =>
          rw [hturn] at hspec
          cases hspec with
          | ended hend => exact absurd hoff (Nat.not_lt.mpr hend)
          | refused _ _ hnone _ => exact absurd (htag.symm.trans (hnone hlen)) (by simp)
      | next s' =>
          rw [hturn] at hspec
          cases hspec with
          | next _ _ _ htag' hplace =>
              rw [Option.some.inj (htag.symm.trans htag')]
              exact ⟨s', hmeets.snoc hturn, hplace⟩

theorem shortTurn_faults_iff (d : EdidBlock) (s : Scan) :
    (∃ e, shortTurn d s = .fault e) ↔ s.DataIndex < d.off ∧ ¬ Fits d s.place := by
  have hspec := shortTurn_turned d s
  constructor
  · rintro ⟨e, he⟩
    rw [he] at hspec
    cases hspec with
    | fault _ hoff hnot => exact ⟨hoff, hnot⟩
  · rintro ⟨hoff, hnot⟩
    cases hturn : shortTurn d s with
    | fault e => exact ⟨e, rfl⟩
    | ret r =>
        rw [hturn] at hspec
        cases hspec with
        | ended hend => exact absurd hoff (Nat.not_lt.mpr hend)
        | refused _ hfits _ _ => exact absurd hfits hnot
    | next s' =>
        rw [hturn] at hspec
        cases hspec with
        | next _ hfits _ _ _ => exact absurd hfits hnot

theorem parse861ShortDescriptors_of_isCea {d : EdidBlock} (h : IsCea d) (n : Nat)
    (g : GlobalEdid) :
    parse861ShortDescriptors n d g = iterate (shortTurn d) n (Scan.start d g) := by
  rw [parse861ShortDescriptors, if_neg (not_not.mpr h.1), if_neg (not_not.mpr h.2)]

theorem parse861ShortDescriptors_of_not_isCea {d : EdidBlock} (h : ¬ IsCea d) (g : GlobalEdid) :
    ∃ code ∈ shortErrors,
      ∀ n, parse861ShortDescriptors n d g = some (.ok (code, g)) := by
  by_cases htag : d.byte EDID_TAG_ADDR = EDID_EXTENSION_TAG
  · have hrev : d.byte EDID_REV_ADDR ≠ EDID_REV_THREE := fun hrev => h ⟨htag, hrev⟩
    refine ⟨.REV_ADDR_ERROR, by decide, fun n => ?_⟩
    rw [parse861ShortDescriptors, if_neg (not_not.mpr htag), if_pos hrev]
  · refine ⟨.EXT_TAG_ERROR, by decide, fun n => ?_⟩
    rw [parse861ShortDescriptors, if_pos htag]

theorem short_stable (d : EdidBlock) (g : GlobalEdid) :
    Stable fun n => parse861ShortDescriptors n d g := by
  intro n m x hnm h
  dsimp only [parse861ShortDescriptors] at h ⊢
  split_ifs at h ⊢
  · exact h
  · exact h
  · exact iterate_stable _ n m x hnm h

/-- **Safety of the short descriptors**: the parser stays inside exactly when
every data block fits. -/
theorem short_safe_iff (d : EdidBlock) (g : GlobalEdid) :
    Safe (fun n => parse861ShortDescriptors n d g) ↔ BlockFits d := by
  by_cases hcea : IsCea d
  · simp only [parse861ShortDescriptors_of_isCea hcea]
    rw [iterate_safe_iff]
    constructor
    · intro hsafe _ p hp hoff
      obtain ⟨s, hmeets, rfl⟩ := hp.meets hsafe
      by_contra hnot
      obtain ⟨e, he⟩ := (shortTurn_faults_iff d s).mpr ⟨hoff, hnot⟩
      exact hsafe s hmeets e he
    · intro hfit s hmeets e he
      obtain ⟨hoff, hnot⟩ := (shortTurn_faults_iff d s).mp ⟨e, he⟩
      exact hnot (hfit hcea s.place (.of_meets hmeets) hoff)
  · obtain ⟨code, _, hcode⟩ := parse861ShortDescriptors_of_not_isCea hcea g
    simp only [hcode]
    exact iff_of_true (safe_ok _) fun h => absurd h hcea

/-! ## The long descriptors -/

theorem long_stable (d : EdidBlock) : Stable fun n => parse861LongDescriptors n d := by
  intro n m x hnm h
  dsimp only [parse861LongDescriptors] at h ⊢
  split_ifs at h ⊢
  · exact h
  · exact iterate_stable _ n m x hnm h

theorem long_safe (d : EdidBlock) : Safe fun n => parse861LongDescriptors n d := by
  by_cases h : d.off = 0
  · simp only [parse861LongDescriptors, if_pos h, safe_ok]
  · simp only [parse861LongDescriptors, if_neg h]
    rw [iterate_safe_iff]
    intro o _ e he
    rw [longTurn] at he
    split_ifs at he

/-! ## One extension -/

theorem afterShort_stable (d : EdidBlock) (r : EdidCode × GlobalEdid) :
    Stable fun n => afterShort n d r :=
  .ite (stable_const _) ((long_stable d).andThen fun _ => stable_const _)

theorem afterShort_safe (d : EdidBlock) (r : EdidCode × GlobalEdid) :
    Safe fun n => afterShort n d r := by
  apply Safe.ite (safe_ok _)
  rw [safe_andThen_iff (long_stable d) fun _ => stable_const _]
  exact ⟨long_safe d, fun _ _ => safe_ok _⟩

theorem parseExtension_stable (d : EdidBlock) (g : GlobalEdid) :
    Stable fun n => parseExtension n d g :=
  (short_stable d g).andThen fun r => afterShort_stable d r

/-- An extension is as safe as its short descriptors. -/
theorem parseExtension_safe_iff (d : EdidBlock) (g : GlobalEdid) :
    Safe (fun n => parseExtension n d g) ↔ BlockFits d := by
  simp only [parseExtension]
  rw [safe_andThen_iff (short_stable d g) fun r => afterShort_stable d r, short_safe_iff]
  exact and_iff_left fun r _ => afterShort_safe d r

/-! ## The extensions of an EDID -/

section Loop

variable {rom : Nat → EdidBlock} {num : Nat}

/-- The parser goes on behind an extension exactly when the counter says so;
where it does not, no turns are left. -/
theorem again_eq {n k Block : Nat} {d : EdidBlock} {g : GlobalEdid} (h : Block + 1 + k = num) :
    (if Block + 1 < num then extensionLoop n rom num k (Block + 1) d g
      else some (.ok (.OK, g))) = extensionLoop n rom num k (Block + 1) d g := by
  by_cases hlt : Block + 1 < num
  · rw [if_pos hlt]
  · have hk : k = 0 := by omega
    rw [if_neg hlt, hk]
    rfl

theorem extensionLoop_map {n k : Nat} {d : EdidBlock} {g : GlobalEdid} (h : 1 + k = num)
    (hnum : 1 < num) :
    extensionLoop n rom num (k + 1) 0 d g = extensionLoop n rom num k 1 (rom 1) g := by
  rw [extensionLoop]
  dsimp only
  rw [if_pos ⟨hnum, rfl⟩, if_pos rfl]
  exact again_eq (by omega)

/-- Whichever extension its turn is at, the loop parses block 1: no other one gets into the
buffer. -/
theorem extensionLoop_parsed {n k Block : Nat} {d : EdidBlock} {g : GlobalEdid}
    (h : Block + 1 + k = num) (hd : Block ≠ 0 → d = rom 1) (hparsed : ¬ (1 < num ∧ Block + 1 = 1)) :
    extensionLoop n rom num (k + 1) Block d g =
      andThen (parseExtension n (rom 1) g) fun r =>
        if r.1 ≠ .OK then some (.ok r) else extensionLoop n rom num k (Block + 1) (rom 1) r.2 := by
  have hbuffer : (if Block + 1 = 1 then rom 1 else
      siiReadSegmentBlockEDID ((Block + 1) / 2) (if 0 < (Block + 1) % 2 then EDID_BLOCK_SIZE else 0)
        d) = rom 1 := by
    split
    · rfl
    · exact hd (by omega)
  rw [extensionLoop]
  dsimp only
  rw [hbuffer, if_neg hparsed]
  simp only [again_eq h]

theorem extensionLoop_stable {k Block : Nat} {d : EdidBlock} (h : Block + k = num)
    (hd : Block ≠ 0 → d = rom 1) (g : GlobalEdid) :
    Stable fun n => extensionLoop n rom num k Block d g := by
  induction k generalizing Block d g with
  | zero => exact stable_const _
  | succ k ih =>
      by_cases hmap : 1 < num ∧ Block + 1 = 1
      · obtain rfl : Block = 0 := by omega
        simp only [extensionLoop_map (show 1 + k = num by omega) hmap.1]
        exact ih (by omega) (fun _ => rfl) g
      · simp only [extensionLoop_parsed (show Block + 1 + k = num by omega) hd hmap]
        exact (parseExtension_stable _ g).andThen fun r =>
          .ite (stable_const _) (ih (by omega) (fun _ => rfl) r.2)

/-- Where block 1 fits, it may be parsed any number of times. -/
theorem extensionLoop_safe (hfit : BlockFits (rom 1)) {k Block : Nat} {d : EdidBlock}
    (h : Block + k = num) (hd : Block ≠ 0 → d = rom 1) (hparsed : ¬ (1 < num ∧ Block + 1 = 1))
    (g : GlobalEdid) : Safe fun n => extensionLoop n rom num k Block d g := by
  induction k generalizing Block d g with
  | zero => exact safe_ok _
  | succ k ih =>
      simp only [extensionLoop_parsed (show Block + 1 + k = num by omega) hd hparsed]
      rw [safe_andThen_iff (parseExtension_stable _ g) fun r =>
          .ite (stable_const _) (extensionLoop_stable (by omega) (fun _ => rfl) r.2)]
      refine ⟨(parseExtension_safe_iff _ g).mpr hfit, fun r _ => ?_⟩
      exact .ite (safe_ok _) (ih (by omega) (fun _ => rfl) (by omega) r.2)

/-- **The rule of the extensions**: from the first that is parsed on, the loop is safe exactly when
block 1 fits. -/
theorem extensionLoop_safe_iff {k Block : Nat} {d : EdidBlock} (h : Block + (k + 1) = num)
    (hd : Block ≠ 0 → d = rom 1) (hparsed : ¬ (1 < num ∧ Block + 1 = 1)) (g : GlobalEdid) :
    Safe (fun n => extensionLoop n rom num (k + 1) Block d g) ↔ BlockFits (rom 1) := by
  refine ⟨fun hsafe => ?_, fun hfit => extensionLoop_safe hfit h hd hparsed g⟩
  simp only [extensionLoop_parsed (show Block + 1 + k = num by omega) hd hparsed] at hsafe
  rw [safe_andThen_iff (parseExtension_stable _ g) fun r =>
      .ite (stable_const _) (extensionLoop_stable (by omega) (fun _ => rfl) r.2)] at hsafe
  exact (parseExtension_safe_iff _ g).mp hsafe.1

theorem parse861Extensions_stable (g : GlobalEdid) :
    Stable fun n => parse861Extensions n rom num g :=
  extensionLoop_stable (Nat.zero_add num) (absurd rfl) _

theorem parse861Extensions_safe_iff (hnum : num ≠ 0) (g : GlobalEdid) :
    Safe (fun n => parse861Extensions n rom num g) ↔ BlockFits (rom 1) := by
  obtain ⟨k, rfl⟩ := Nat.exists_eq_succ_of_ne_zero hnum
  simp only [parse861Extensions]
  by_cases hmap : 1 < k + 1
  · obtain ⟨j, rfl⟩ := Nat.exists_eq_succ_of_ne_zero (show k ≠ 0 by omega)
    simp only [extensionLoop_map (Nat.add_comm 1 (j + 1)) hmap]
    exact extensionLoop_safe_iff (by omega) (fun _ => rfl) (by omega) _
  · exact extensionLoop_safe_iff (by omega) (absurd rfl) (by omega) _

end Loop

/-! ## Reading an EDID -/

/-- What the display supplies is parsed: there is no valid EDID yet, the bus is
granted, and block 0 is sound and announces `num` extensions. -/
def Parses (m : Display) (sysCtrl : BitVec 8) (g : GlobalEdid) (num : Nat) : Prop :=
  g.edidDataValid = false ∧ (getDdcAccess m sysCtrl).1 = true ∧ parseEdid (m.rom 0) = (.OK, num)

theorem parseEdid_ne_zero {d : EdidBlock} {num : Nat} (h : parseEdid d = (.OK, num)) :
    num ≠ 0 := by
  simp only [parseEdid] at h
  split_ifs at h with h1 h2 h3 <;> cases h
  exact h3

theorem parseBlocks_stable (rom : Nat → EdidBlock) (g : GlobalEdid) :
    Stable fun n => parseBlocks n rom g := by
  simp only [parseBlocks]
  rcases parseEdid (rom 0) with ⟨code, num⟩
  cases code with
  | OK => exact (parse861Extensions_stable g).andThen fun _ => stable_const _
  | _ => exact stable_const _

theorem parseBlocks_safe_iff (rom : Nat → EdidBlock) (g : GlobalEdid) :
    Safe (fun n => parseBlocks n rom g) ↔
      ∀ num, parseEdid (rom 0) = (.OK, num) → BlockFits (rom 1) := by
  simp only [parseBlocks]
  cases hblock : parseEdid (rom 0) with
  | mk code num =>
      cases code with
      | OK =>
          dsimp only
          rw [safe_andThen_iff (parse861Extensions_stable g) fun _ => stable_const _,
            parse861Extensions_safe_iff (parseEdid_ne_zero hblock) g]
          simp
      | _ => simp

/-- **Memory safety of `DoEdidRead`**, exactly: whatever the display supplies,
every access the parsers make stays inside the block and inside `g_edid` if and
only if, where the display's EDID is parsed at all, every data block of block 1
fits: however many extensions there are, no other one is read. -/
theorem edid_safe_iff (m : Display) (sysCtrl : BitVec 8) (g : GlobalEdid) :
    Safe (fun n => doEdidRead n m sysCtrl g) ↔
      ∀ num, Parses m sysCtrl g num → BlockFits (m.rom 1) := by
  simp only [doEdidRead, Parses]
  cases hvalid : g.edidDataValid with
  | true => simp
  | false =>
      cases hddc : getDdcAccess m sysCtrl with
      | mk granted ctrl =>
          cases granted with
          | false => simp
          | true =>
              have hparse := parseBlocks_safe_iff m.rom g
              simp only [Bool.false_eq_true, if_false]
              rw [safe_andThen_iff (parseBlocks_stable m.rom g) fun _ => stable_const _, hparse]
              simp

/-- An extension with two video data blocks of 15 and 10 descriptors. -/
def twoVideoBlocks : EdidBlock := fun i =>
  if i.val = 0 then 0x02 else if i.val = 1 then 0x03
  else if i.val = 2 then 31 else if i.val = 4 then 0x4F else if i.val = 20 then 0x4A
  else 0x01

/-- The second video block is stored behind the first, past the end of
`VideoDescriptor`. -/
theorem twoVideoBlocks_overflow :
    ¬ Safe fun n => doEdidRead n (.of twoVideoBlocks) 0 .zero := by
  intro h
  exact absurd (h.faultOf_eq_none 2) (by decide +kernel)

end ExtDrv.Sil9024
