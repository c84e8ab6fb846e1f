import ExtDrv.Rt3370.ARalink

/-!
# The split of a Ralink aggregate stays in bounds

When `CmmRxRalinkFrameIndicate` releases a frame or hands up two packets that lie in its
data, one behind the other. The length of the second packet is taken from a size that has
lost the length field, and the LLC/SNAP header where there is one, in sixteen bits.
-/

namespace ExtDrv.Rt3370.ARalink

open Memory

/-- The frame lies in its buffer: the 802.11 header, the data, and the two bytes that are read
whatever there is of data. -/
structure RxBlk.Received (rx : RxBlk) : Prop where
  header : length80211 ≤ rx.pData
  data : rx.pData + rx.DataSize.toNat ≤ rx.frame.size
  field : rx.pData + 2 ≤ rx.frame.size

/-- `Msdu2Size`. -/
def RxBlk.msdu2 (rx : RxBlk) : Nat := (msdu2Size (rx.frame.slice rx.pData 2)).toNat

/-- The frame is split, not released at once. -/
def RxBlk.Splits (rx : RxBlk) : Prop := rx.msdu2 ≤ 1536 ∧ rx.msdu2 < rx.DataSize.toNat

/-- The first packet loses its LLC/SNAP header. -/
def RxBlk.LosesSnap (rx : RxBlk) : Prop := Removes rx.frame (rx.pData + 2 - length8023)

/-- Nothing is handed up, or two packets: `n₁` bytes of the data behind a new header, and
from their end on the header and the `n₂` bytes up to the end of the data. -/
def RxBlk.InBounds (rx : RxBlk) (r : Except BodyFault (List (List (BitVec 8)))) : Prop :=
  r = .ok [] ∨ ∃ hdr q n₁ n₂, hdr.length = length8023 ∧ rx.pData + 2 ≤ q ∧
    q + n₁ + length8023 + n₂ = rx.pData + rx.DataSize.toNat ∧
    r = .ok [hdr ++ rx.frame.slice q n₁,
      rx.frame.slice (q + n₁) length8023 ++ rx.frame.slice (q + n₁ + length8023) n₂]

/-- The length in the frame is one of a packet, and leaves room for what is removed. -/
structure RxBlk.Fits (rx : RxBlk) : Prop where
  header2 : length8023 ≤ rx.msdu2
  field : 2 + rx.msdu2 ≤ rx.DataSize.toNat
  snap : rx.LosesSnap → 2 + length8021H + rx.msdu2 ≤ rx.DataSize.toNat

/-! ## The conversion -/

theorem length_of_read {b : Body} {o n : Nat} {bs : List (BitVec 8)} (h : b.read o n = .ok bs) :
    bs.length = n := by
  unfold Body.read at h
  split_ifs at h
  cases h
  exact length_segment b.byte o n

section Conversion

variable {b : Body} {pDA pSA o : Nat} {p : BitVec 16}

/-- The conversion by cases. -/
theorem convertTo8023_inv {c : Converted} (h : convertTo8023 b pDA pSA (o + length8023) p = .ok c) :
    Removes b o ∧ c.pPayload = o + length8023 + length8021H ∧
        c.payloadSize = p - BitVec.ofNat 16 length8021H ∨
      ¬ Removes b o ∧ c.pPayload = o + length8023 ∧ c.payloadSize = p := by
  unfold convertTo8023 at h
  simp only [ndisEqualMemory_bind, read_bind] at h
  split_ifs at h with h1 h2 hlooks h3 h4 hkeeps h5
  · obtain ⟨hdr, -, h⟩ := bind_eq_ok h
    cases h
    exact .inr ⟨fun hr => hr.2 (keepsSnap_iff.mp hkeeps), rfl, rfl⟩
  · obtain ⟨hdr, -, h⟩ := bind_eq_ok h
    cases h
    exact .inl ⟨⟨looksSnap_iff.mp hlooks, mt keepsSnap_iff.mpr hkeeps⟩, rfl, rfl⟩
  · obtain ⟨hdr, -, h⟩ := bind_eq_ok h
    cases h
    exact .inr ⟨fun hr => hlooks (looksSnap_iff.mpr hr.1), rfl, rfl⟩

/-- With the addresses and eight bytes of data there, it is done. -/
theorem convertTo8023_defined (h22 : o + 22 ≤ b.size) (hda : pDA + 6 ≤ b.size)
    (hsa : pSA + 6 ≤ b.size) : ∃ c, convertTo8023 b pDA pSA (o + length8023) p = .ok c ∧
      c.header8023.length = length8023 := by
  obtain ⟨hremoved, hplain⟩ :=
    convertTo8023_cases pDA pSA hda hsa (by omega) (fun _ : LooksSnap b o => h22) p
  by_cases hr : Removes b o
  · exact ⟨_, hremoved hr, by simp⟩
  · exact ⟨_, hplain hr, by simp [llcLen]⟩

end Conversion

/-! ## The sizes -/

section Sizes

variable {rx : RxBlk}

theorem RxBlk.Received.read_field (hrx : rx.Received) :
    rx.frame.read rx.pData 2 = .ok (rx.frame.slice rx.pData 2) := read_of_le hrx.field

/-- Where the data begins, fourteen bytes before it. -/
theorem RxBlk.Received.dataStart (hrx : rx.Received) :
    rx.pData + 2 = rx.pData + 2 - length8023 + length8023 := by
  have h24 : 24 ≤ rx.pData := hrx.header
  show rx.pData + 2 = rx.pData + 2 - 14 + 14
  omega

theorem RxBlk.Received.released (hrx : rx.Received) (h : ¬ rx.Splits) (granted : Bool) :
    cmmRxRalinkFrameIndicate granted rx = .ok [] := by
  unfold RxBlk.Splits RxBlk.msdu2 at h
  unfold cmmRxRalinkFrameIndicate
  rw [read_bind, if_pos hrx.field]
  dsimp only
  rw [if_neg h]
  rfl

/-- The packets of a frame that is split: they are as long as the sizes say. -/
theorem split_lengths {ps : List (List (BitVec 8))} (hrx : rx.Received) (hs : rx.Splits)
    (h : cmmRxRalinkFrameIndicate true rx = .ok ps) :
    ∃ p₁ p₂ size, ps = [p₁, p₂] ∧
      (rx.LosesSnap ∧ size = rx.DataSize - 2 - BitVec.ofNat 16 length8021H ∨
        ¬ rx.LosesSnap ∧ size = rx.DataSize - 2) ∧
      p₁.length = length8023 + (size - msdu2Size (rx.frame.slice rx.pData 2)).toNat ∧
      p₂.length = length8023
        + (msdu2Size (rx.frame.slice rx.pData 2) - BitVec.ofNat 16 length8023).toNat := by
  unfold RxBlk.Splits RxBlk.msdu2 at hs
  unfold cmmRxRalinkFrameIndicate at h
  rw [read_bind, if_pos hrx.field] at h
  dsimp only at h
  rw [if_pos hs] at h
  obtain ⟨c, hconv, h⟩ := bind_eq_ok h
  rw [hrx.dataStart] at hconv
  obtain ⟨header2, hheader2, h⟩ := bind_eq_ok h
  obtain ⟨data2, hdata2, h⟩ := bind_eq_ok h
  obtain ⟨frame, -, h⟩ := bind_eq_ok h
  obtain ⟨packet1, hpacket1, h⟩ := bind_eq_ok h
  cases h
  refine ⟨packet1, header2 ++ data2, c.payloadSize, rfl, ?_, length_of_read hpacket1, ?_⟩
  · rcases convertTo8023_inv hconv with ⟨hr, -, hsize⟩ | ⟨hr, -, hsize⟩
    · exact .inl ⟨hr, hsize⟩
    · exact .inr ⟨hr, hsize⟩
  · rw [List.length_append, length_of_read hheader2, length_of_read hdata2]

/-- What is left of the data when the header is converted: up to the second packet, `n₁` bytes. -/
theorem converted_fits {c : Converted} (hrx : rx.Received) (hf : rx.Fits)
    (hconv : convertTo8023 rx.frame rx.addresses.1 rx.addresses.2 (rx.pData + 2)
      (rx.DataSize - 2) = .ok c) :
    ∃ k n₁, c.pPayload = rx.pData + 2 + k ∧
      (c.payloadSize - msdu2Size (rx.frame.slice rx.pData 2)).toNat = n₁ ∧
      2 + k + n₁ + rx.msdu2 = rx.DataSize.toNat := by
  have hfield := hf.field
  rw [hrx.dataStart] at hconv
  rcases convertTo8023_inv hconv with ⟨hr, hp, hsize⟩ | ⟨hr, hp, hsize⟩
  · have hsnap : 2 + 8 + rx.msdu2 ≤ rx.DataSize.toNat := hf.snap hr
    refine ⟨8, rx.DataSize.toNat - 10 - rx.msdu2, by rw [hp, ← hrx.dataStart], ?_, by omega⟩
    rw [hsize]
    unfold RxBlk.msdu2 at hsnap ⊢
    unfold length8021H
    bv_omega
  · refine ⟨0, rx.DataSize.toNat - 2 - rx.msdu2, by rw [hp, ← hrx.dataStart], ?_, by omega⟩
    rw [hsize]
    unfold RxBlk.msdu2 at hfield ⊢
    bv_omega

/-- A frame whose lengths fit is split at the header of the second packet. -/
theorem inBounds_of_fits (hrx : rx.Received) (hs : rx.Splits) (hf : rx.Fits) (granted : Bool) :
    rx.InBounds (cmmRxRalinkFrameIndicate granted rx) := by
  have h24 : 24 ≤ rx.pData := hrx.header
  have hdata := hrx.data
  have h14 : 14 ≤ rx.msdu2 := hf.header2
  have hfield := hf.field
  have haddr : rx.addresses.1 + 6 ≤ rx.frame.size ∧ rx.addresses.2 + 6 ≤ rx.frame.size := by
    unfold RxBlk.addresses
    split_ifs <;> constructor <;> dsimp only <;> omega
  have hstart : rx.pData + 2 - length8023 + 22 ≤ rx.frame.size := by
    show rx.pData + 2 - 14 + 22 ≤ rx.frame.size
    omega
  obtain ⟨c, hconv, hhdr⟩ := convertTo8023_defined (p := rx.DataSize - 2) hstart haddr.1 haddr.2
  rw [← hrx.dataStart] at hconv
  obtain ⟨k, n₁, hp, hn₁, hsum⟩ := converted_fits hrx hf hconv
  have hn₂ : (msdu2Size (rx.frame.slice rx.pData 2) - BitVec.ofNat 16 length8023).toNat
      = rx.msdu2 - 14 := by
    unfold RxBlk.msdu2 at h14 ⊢
    unfold length8023
    bv_omega
  rw [indicate_of_conv granted hrx.read_field hs hconv
    (q := rx.pData + 2 + k - 14) (by omega) hn₁ hn₂ hhdr (by omega)]
  cases granted with
  | false => exact .inl rfl
  | true =>
    refine .inr ⟨c.header8023, rx.pData + 2 + k, n₁, rx.msdu2 - 14, hhdr, by omega, ?_, ?_⟩
    · show rx.pData + 2 + k + n₁ + 14 + (rx.msdu2 - 14) = _
      omega
    · have hq : rx.pData + 2 + k - 14 + 14 = rx.pData + 2 + k := by omega
      have hfront := segment_store_front rx.frame.byte (rx.pData + 2 + k - 14) n₁ c.header8023
      rw [hhdr, show rx.pData + 2 + k - 14 + length8023 = rx.pData + 2 + k from hq] at hfront
      rw [if_pos rfl, hq]
      exact congrArg (fun bs => Except.ok [bs, _]) hfront

/-- One whose lengths do not fit is not. -/
theorem fits_of_inBounds (hrx : rx.Received) (hs : rx.Splits)
    (h : rx.InBounds (cmmRxRalinkFrameIndicate true rx)) : rx.Fits := by
  rcases h with h | ⟨hdr, q, n₁, n₂, hhdr, hq, hsum, h⟩
  · obtain ⟨p₁, p₂, size, hps, -⟩ := split_lengths hrx hs h
    cases hps
  · obtain ⟨p₁, p₂, size, hps, hsize, h₁, h₂⟩ := split_lengths hrx hs h
    cases hps
    rw [List.length_append, hhdr, length_slice, Nat.add_left_cancel_iff] at h₁
    rw [List.length_append, length_slice, length_slice, Nat.add_left_cancel_iff] at h₂
    have hplain : rx.LosesSnap ∨ size = rx.DataSize - 2 := hsize.imp And.left And.right
    have hlt := rx.DataSize.isLt
    have hsplit : rx.msdu2 < rx.DataSize.toNat := hs.2
    have hshort : rx.msdu2 ≤ 1536 := hs.1
    unfold length8023 length8021H at *
    unfold RxBlk.msdu2 at hsplit hshort
    constructor
    · unfold RxBlk.msdu2 length8023
      bv_omega
    · unfold RxBlk.msdu2
      rcases hsize with ⟨-, rfl⟩ | ⟨-, rfl⟩
      · bv_omega
      · bv_omega
    · intro hl
      unfold RxBlk.msdu2 length8021H
      rcases hsize with ⟨-, rfl⟩ | ⟨hno, -⟩
      · bv_omega
      · exact absurd hl hno

end Sizes

/-- **The split stays in bounds** on exactly the frames that are released, and those whose
length field is no less than a header and no more than what is left of the data. -/
theorem split_inBounds_iff (rx : RxBlk) (hrx : rx.Received) :
    (∀ granted, rx.InBounds (cmmRxRalinkFrameIndicate granted rx)) ↔ (rx.Splits → rx.Fits) := by
  constructor
  · intro h hs
    exact fits_of_inBounds hrx hs (h true)
  · intro h granted
    by_cases hs : rx.Splits
    · exact inBounds_of_fits hrx hs (h hs) granted
    · exact .inl (hrx.released hs granted)

/-- Sixty-four bytes of data, after this length field. -/
def ofField (octets : List (BitVec 8)) : RxBlk where
  frame := bodyOf (List.replicate 24 0 ++ octets ++ List.replicate 62 0)
  pData := 24
  DataSize := 64
  infra := true
  dls := false

theorem split_inBounds_twenty : (ofField [20, 0]).Received ∧
    ∀ granted, (ofField [20, 0]).InBounds (cmmRxRalinkFrameIndicate granted (ofField [20, 0])) := by
  have hrx : (ofField [20, 0]).Received := ⟨by decide, by decide, by decide⟩
  have hfits : (ofField [20, 0]).Fits := ⟨by decide, by decide, fun _ => by decide⟩
  exact ⟨hrx, (split_inBounds_iff _ hrx).mpr fun _ => hfits⟩

/-- The second packet leaves one byte less than none for the first. -/
theorem split_wraps :
    ¬ ∀ granted, (ofField [63, 0]).InBounds
      (cmmRxRalinkFrameIndicate granted (ofField [63, 0])) := by
  intro h
  have hrx : (ofField [63, 0]).Received := ⟨by decide, by decide, by decide⟩
  have hfits := fits_of_inBounds hrx ⟨by decide, by decide⟩ (h true)
  exact absurd hfits.field (by decide)

end ExtDrv.Rt3370.ARalink
