import ExtDrv.Sil9024.EdidSafety

/-!
# Termination of the EDID parser

The loop over the data blocks of an extension moves its index by what it read,
and a vendor block moves it back by the five bytes of the signature and the
physical address, although a comparison that broke off has read fewer. `Reaches`
are the places the loop comes to, `Rewinds` the vendor blocks too short to make
up for it; `short_terminates_iff`: the index rises in every turn exactly when
none of these is reached.
-/

namespace ExtDrv.Sil9024

open Loop

variable {d : EdidBlock} {g : GlobalEdid} {p : Place} {tag : TagCode} {s s' : Scan}

/-! ## The places the loop comes to -/

/-- The loop takes the data block at `p` and goes on behind it. -/
structure Taken (d : EdidBlock) (p : Place) (tag : TagCode) : Prop where
  before : p.DataIndex < d.off
  ends : p.DataIndex + 1 + d.len p ≤ d.off
  known : tagCode (d.header p) = some tag
  fits : Fits d p

/-- The places of the headers the loop reads, by the bytes alone. -/
inductive Reaches (d : EdidBlock) : Place → Prop where
  | first : Reaches d ⟨EDID_DATA_START, 0, 0⟩
  | next {p : Place} {tag : TagCode} : Reaches d p → Taken d p tag →
      Reaches d (bodyNext d (d.len p) p.body tag)

theorem Taken.body_fits (h : Taken d p tag) : BodyFits d (d.len p) p.body tag :=
  h.fits.2 h.ends tag h.known

theorem taken_of_next (h : shortTurn d s = .next s') :
    ∃ tag, Taken d s.place tag ∧ s'.place = bodyNext d (d.len s.place) s.place.body tag := by
  have hspec := shortTurn_turned d s
  rw [h] at hspec
  cases hspec with
  | next hoff hfits hlen htag hplace => exact ⟨_, ⟨hoff, hlen, htag, hfits⟩, hplace⟩

theorem next_of_taken (h : Taken d s.place tag) :
    ∃ s', shortTurn d s = .next s' ∧
      s'.place = bodyNext d (d.len s.place) s.place.body tag := by
  have hspec := shortTurn_turned d s
  cases hturn : shortTurn d s with
  | fault e =>
      rw [hturn] at hspec
      cases hspec with
      | fault _ _ hnot => exact absurd h.fits hnot
  | ret r =>
      rw [hturn] at hspec
      cases hspec with
      | ended hend => exact absurd h.before (Nat.not_lt.mpr hend)
      | refused _ _ hnone _ => exact absurd (h.known.symm.trans (hnone h.ends)) (by simp)
  | next s' =>
      obtain ⟨tag', htaken, hplace⟩ := taken_of_next hturn
      rw [Option.some.inj (h.known.symm.trans htaken.known)]
      exact ⟨s', rfl, hplace⟩

theorem reaches_of_meets (h : Meets (shortTurn d) (Scan.start d g) s) : Reaches d s.place := by
  apply h.inv (I := fun s : Scan => Reaches d s.place) _ .first
  intro s s' hs hturn
  obtain ⟨tag, htaken, hplace⟩ := taken_of_next hturn
  rw [hplace]
  exact hs.next htaken

theorem Reaches.meets (h : Reaches d p) (g : GlobalEdid) :
    ∃ s, Meets (shortTurn d) (Scan.start d g) s ∧ s.place = p := by
  induction h with
  | first => exact ⟨_, .here _, rfl⟩
  | next _ htaken ih =>
      obtain ⟨s, hmeets, rfl⟩ := ih
      obtain ⟨s', hturn, hplace⟩ := next_of_taken htaken
      exact ⟨s', hmeets.snoc hturn, hplace⟩

/-! ## Vendor blocks that go back -/

/-- The data block at `p` is a vendor block that has no byte, and no signature
behind it, or the one byte of another vendor. -/
def Rewinds (d : EdidBlock) (p : Place) : Prop :=
  tagCode (d.header p) = some .VENDOR_SPEC_D_BLOCK ∧
    (d.len p = 0 ∧ ¬ (d.byte (p.DataIndex + 1) = 0x03#8 ∧ d.byte (p.DataIndex + 2) = 0x0C#8) ∨
      d.len p = 1 ∧ d.byte (p.DataIndex + 1) ≠ 0x03#8)

theorem signatureLen_pos (d : EdidBlock) (i : Nat) : 0 < signatureLen d i := by
  rw [signatureLen]
  split_ifs <;> decide

theorem dataBlockLength_le (header : BitVec 8) : dataBlockLength header ≤ 31 := by
  rw [dataBlockLength, BitVec.toNat_and]
  exact Nat.and_le_right

/-- What a vendor block consumes: two bytes of the physical address less than
the signature and the length. -/
theorem rewinds_iff :
    Rewinds d p ↔ tagCode (d.header p) = some .VENDOR_SPEC_D_BLOCK ∧
      signatureLen d p.body.DataIndex + d.len p ≤ 2 := by
  apply and_congr_right
  intro _
  simp only [signatureLen, Place.body, Nat.add_assoc, Nat.reduceAdd]
  by_cases h0 : d.byte (p.DataIndex + 1) = 0x03#8
  · by_cases h1 : d.byte (p.DataIndex + 2) = 0x0C#8
    · simp only [h0, h1, ne_eq, and_self, not_true_eq_false, and_false, or_self, if_false,
        false_iff]
      omega
    · simp only [h0, h1, ne_eq, and_false, not_false_eq_true, not_true_eq_false, and_true,
        or_false, if_true, if_false]
      omega
  · simp only [h0, false_and, not_false_eq_true, and_true, ne_eq, if_true]
    omega

/-- **The rule of the index**: behind the miscellaneous flags, a turn raises it
unless the data block is one that goes back. -/
theorem advances_iff (h : Taken d p tag) (hlow : EDID_DATA_START ≤ p.DataIndex) :
    p.DataIndex < (bodyNext d (d.len p) p.body tag).DataIndex ↔ ¬ Rewinds d p := by
  rw [rewinds_iff]
  cases tag with
  | VENDOR_SPEC_D_BLOCK =>
      have hfit : p.body.DataIndex + signatureLen d p.body.DataIndex + 2 ≤ EDID_BLOCK_SIZE :=
        h.body_fits.1
      have hlen : d.len p ≤ 31 := dataBlockLength_le _
      have hpos := signatureLen_pos d p.body.DataIndex
      simp only [h.known, true_and, bodyNext]
      simp only [Place.body, EDID_BLOCK_SIZE, EDID_DATA_START] at *
      omega
  | VIDEO_D_BLOCK =>
      simp only [h.known, bodyNext, Place.body]
      simp
      omega
  | AUDIO_D_BLOCK =>
      simp only [h.known, bodyNext, Place.body]
      simp
      omega
  | SPKR_ALLOC_D_BLOCK =>
      simp only [h.known, bodyNext, Place.body]
      simp
      omega
  | USE_EXTENDED_TAG =>
      simp only [h.known, bodyNext, Place.body]
      simp
      split_ifs <;> omega

/-! ## Every turn advances -/

/-- The block is parsed in finitely many turns, and each of them raises the
index. A run that leaves the block or the arrays of `g_edid` is over there. -/
structure Terminates (d : EdidBlock) (g : GlobalEdid) : Prop where
  ends : ∃ n, parse861ShortDescriptors n d g ≠ none
  advances : IsCea d → ∀ s s', Meets (shortTurn d) (Scan.start d g) s →
    shortTurn d s = .next s' → s.DataIndex < s'.DataIndex

/-- No vendor block the loop takes goes back. -/
def Onward (d : EdidBlock) : Prop :=
  IsCea d → ∀ p tag, Reaches d p → Taken d p tag → ¬ Rewinds d p

/-- Where every turn raises the index it is nowhere below its start. -/
theorem reaches_ge (h : ∀ q tag, Reaches d q → EDID_DATA_START ≤ q.DataIndex → Taken d q tag →
      q.DataIndex < (bodyNext d (d.len q) q.body tag).DataIndex) (hp : Reaches d p) :
    EDID_DATA_START ≤ p.DataIndex := by
  induction hp with
  | first => exact Nat.le_refl _
  | next hq htaken ih => exact ih.trans (h _ _ hq ih htaken).le

theorem Onward.reaches_ge (h : Onward d) (hcea : IsCea d) (hp : Reaches d p) :
    EDID_DATA_START ≤ p.DataIndex := by
  apply Sil9024.reaches_ge _ hp
  intro q tag hq hlow htaken
  exact (advances_iff htaken hlow).mpr (h hcea _ _ hq htaken)

theorem Onward.advances (h : Onward d) (hcea : IsCea d)
    (hmeets : Meets (shortTurn d) (Scan.start d g) s) (hturn : shortTurn d s = .next s') :
    s.DataIndex < s'.DataIndex := by
  have hp := reaches_of_meets hmeets
  obtain ⟨tag, htaken, hplace⟩ := taken_of_next hturn
  have hlt := (advances_iff htaken (h.reaches_ge hcea hp)).mpr (h hcea _ tag hp htaken)
  rw [← hplace] at hlt
  exact hlt

/-- The turns are counted by what is left up to the long descriptors. -/
theorem Onward.ends (h : Onward d) (g : GlobalEdid) :
    ∃ n, parse861ShortDescriptors n d g ≠ none := by
  by_cases hcea : IsCea d
  · simp only [parse861ShortDescriptors_of_isCea hcea]
    refine ⟨_, iterate_ne_none (fun s : Scan => d.off - s.DataIndex) ?_⟩
    intro s s' hmeets hturn
    have hlt := h.advances hcea hmeets hturn
    obtain ⟨tag, htaken, _⟩ := taken_of_next hturn
    have hbefore : s.DataIndex < d.off := htaken.before
    omega
  · obtain ⟨code, _, hcode⟩ := parse861ShortDescriptors_of_not_isCea hcea g
    exact ⟨0, by simp [hcode]⟩

theorem Terminates.next_lt (h : Terminates d g) (hcea : IsCea d) (hp : Reaches d p)
    (htaken : Taken d p tag) : p.DataIndex < (bodyNext d (d.len p) p.body tag).DataIndex := by
  obtain ⟨s, hmeets, rfl⟩ := hp.meets g
  obtain ⟨s', hturn, hplace⟩ := next_of_taken htaken
  rw [← hplace]
  exact h.advances hcea s s' hmeets hturn

theorem terminates_iff (d : EdidBlock) (g : GlobalEdid) : Terminates d g ↔ Onward d := by
  constructor
  · intro h hcea p tag hp htaken
    have hlow := reaches_ge (fun q tag hq _ htaken => h.next_lt hcea hq htaken) hp
    exact (advances_iff htaken hlow).mp (h.next_lt hcea hp htaken)
  · intro h
    exact ⟨h.ends g, fun hcea s s' hmeets hturn => h.advances hcea hmeets hturn⟩

/-- **Termination of the short descriptors**, exactly: whatever the bytes of the
block, its loop is over in finitely many turns, each of which raises the index,
if and only if it takes no vendor block that goes back; and it returns besides
if and only if its accesses fit as well. -/
theorem short_terminates_iff (d : EdidBlock) (g : GlobalEdid) :
    (Terminates d g ↔ Onward d) ∧
      (Terminates d g ∧ (∃ r, Ends (fun n => parse861ShortDescriptors n d g) r) ↔
        Onward d ∧ BlockFits d) := by
  refine ⟨terminates_iff d g, ?_⟩
  rw [terminates_iff, exists_ends_iff (short_stable d g), short_safe_iff]
  constructor
  · rintro ⟨honward, hfits, _⟩
    exact ⟨honward, hfits⟩
  · rintro ⟨honward, hfits⟩
    exact ⟨honward, hfits, honward.ends g⟩

/-! ## A loop that stands still -/

/-- A vendor block whose length makes up for the five bytes exactly leads back
to its own header. -/
theorem bodyNext_self (h : Taken d p .VENDOR_SPEC_D_BLOCK)
    (hlen : signatureLen d p.body.DataIndex + d.len p = 2) :
    bodyNext d (d.len p) p.body .VENDOR_SPEC_D_BLOCK = p := by
  have hfit : p.body.DataIndex + signatureLen d p.body.DataIndex + 2 ≤ EDID_BLOCK_SIZE :=
    h.body_fits.1
  have hindex : (p.body.DataIndex + signatureLen d p.body.DataIndex + 2 + d.len p + 256 - 5) % 256
      = p.DataIndex := by
    simp only [Place.body, EDID_BLOCK_SIZE] at *
    omega
  rw [bodyNext, hindex]
  rfl

/-- **The parser never returns** from an extension in which it comes to such a
block. -/
theorem stands_still (hcea : IsCea d) (hp : Reaches d p) (h : Taken d p .VENDOR_SPEC_D_BLOCK)
    (hlen : signatureLen d p.body.DataIndex + d.len p = 2) (g : GlobalEdid) (n : Nat) :
    parse861ShortDescriptors n d g = none := by
  rw [parse861ShortDescriptors_of_isCea hcea]
  obtain ⟨s, hmeets, hplace⟩ := hp.meets g
  apply hmeets.iterate_eq_none
  apply iterate_eq_none (I := fun t : Scan => t.place = p) _ hplace
  rintro t rfl
  obtain ⟨t', hturn, hnext⟩ := next_of_taken h
  exact ⟨t', hturn, hnext.trans (bodyNext_self h hlen)⟩

/-- An extension with one vendor block, of one byte. -/
def vendorOfOne : EdidBlock := fun i =>
  if i.val = 0 then 0x02 else if i.val = 1 then 0x03
  else if i.val = 2 then 6 else if i.val = 4 then 0x61 else 0x00

/-- The byte is not the first of the HDMI signature: three bytes are read and
five taken off, of a length of one. -/
theorem short_terminates_broken : ¬ ∀ (d : EdidBlock) (g : GlobalEdid), Terminates d g := by
  intro h
  obtain ⟨n, hn⟩ := (h vendorOfOne .zero).ends
  have htaken : Taken vendorOfOne ⟨EDID_DATA_START, 0, 0⟩ .VENDOR_SPEC_D_BLOCK := by
    refine ⟨by decide, by decide, by decide, by decide, fun _ tag htag => ?_⟩
    obtain rfl : TagCode.VENDOR_SPEC_D_BLOCK = tag := Option.some.inj htag
    decide
  exact hn (stands_still ⟨by decide, by decide⟩ .first htaken (by decide) .zero n)

end ExtDrv.Sil9024
