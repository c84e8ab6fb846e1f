import ExtDrv.Rt3370.AmsduBounds
import ExtDrv.Rt3370.AmsduTx
import Mathlib.Tactic.IntervalCases

/-!
# Packets through an A-MSDU

Which lists of packets come out of `deaggregate_AMSDU_announce` as they went into
`STA_AMSDU_Frame_Tx`. The receiver leaves its loop behind a sub-frame shorter than 32
or longer than 1528 bytes, hands up a payload without LLC/SNAP header without any
header at all, and the sender takes the VLAN tag off; everything else survives.
-/

namespace ExtDrv.Rt3370

open Loop Memory

/-! ## The property -/

/-- **The round trip**: the body that is built is split into the packets again. -/
def RoundTrips (os : Allocs) (ps : List TxPacket) : Prop :=
  ∃ bs r, staAmsduFrameTx none ps = some bs ∧
    Ends (deaggregateAmsduAnnounce os (bodyOf bs)) r ∧ r.packets = ps.map TxPacket.bytes

/-- A packet with an Ethernet type and without a VLAN tag. -/
structure TxPacket.Plain (p : TxPacket) : Prop where
  untagged : p.vlan = false
  typed : 1500 < beWord ((p.bytes.drop 12).take 2)

/-- What the receiver gets through whole, from packet `k` on: plain packets of at most
1510 bytes of payload, all but the last of 7 to 1506, and a clone for each. -/
structure Splits (os : Allocs) (k : Nat) (ps : List TxPacket) : Prop where
  plain : ∀ p ∈ ps, p.Plain
  short : ∀ p ∈ ps, p.len ≤ length8023 + 1510
  middle : ∀ p ∈ ps.dropLast, length8023 + 7 ≤ p.len ∧ p.len ≤ length8023 + 1506
  cloned : ∀ n < ps.length, os.clone (k + n + 1) = true

theorem Splits.nil (os : Allocs) (k : Nat) : Splits os k [] := by
  constructor <;> simp

theorem splits_cons {os : Allocs} {k : Nat} {p : TxPacket} {rest : List TxPacket} :
    Splits os k (p :: rest) ↔
      p.Plain ∧ p.len ≤ length8023 + 1510 ∧
      (rest ≠ [] → length8023 + 7 ≤ p.len ∧ p.len ≤ length8023 + 1506) ∧
      os.clone (k + 1) = true ∧ Splits os (k + 1) rest := by
  constructor
  · intro h
    refine ⟨h.plain p List.mem_cons_self, h.short p List.mem_cons_self, fun hne => ?_, ?_, ?_⟩
    · exact h.middle p (by rw [List.dropLast_cons_of_ne_nil hne]; exact List.mem_cons_self)
    · exact h.cloned 0 (by simp)
    · refine ⟨fun q hq => h.plain q (List.mem_cons_of_mem p hq),
        fun q hq => h.short q (List.mem_cons_of_mem p hq), fun q hq => ?_, fun n hn => ?_⟩
      · have hne : rest ≠ [] := by
          rintro rfl
          cases hq
        exact h.middle q (by
          rw [List.dropLast_cons_of_ne_nil hne]
          exact List.mem_cons_of_mem p hq)
      · have := h.cloned (n + 1) (by simpa using hn)
        rwa [show k + (n + 1) + 1 = k + 1 + n + 1 by omega] at this
  · rintro ⟨hplain, hshort, hmiddle, hclone, hrest⟩
    constructor
    · intro q hq
      rcases List.mem_cons.mp hq with rfl | hq
      · exact hplain
      · exact hrest.plain q hq
    · intro q hq
      rcases List.mem_cons.mp hq with rfl | hq
      · exact hshort
      · exact hrest.short q hq
    · intro q hq
      by_cases hne : rest = []
      · subst hne
        cases hq
      · rw [List.dropLast_cons_of_ne_nil hne] at hq
        rcases List.mem_cons.mp hq with rfl | hq
        · exact hmiddle hne
        · exact hrest.middle q hq
    · intro n hn
      cases n with
      | zero => exact hclone
      | succ n =>
          have := hrest.cloned n (by simpa using hn)
          rwa [show k + 1 + n + 1 = k + (n + 1) + 1 by omega] at this

/-! ## What the sender lays out -/

theorem staAmsduFrameTx_some {len : BitVec 16} {rest : List TxPacket} (hne : rest ≠ []) :
    staAmsduFrameTx (some len) rest
      = (staAmsduFrameTx none rest).map (List.replicate (amsduPadding len) 0 ++ ·) := by
  cases rest with
  | nil => exact absurd rfl hne
  | cons p rest =>
      simp only [staAmsduFrameTx]
      split
      · rfl
      · rw [Option.map_map]
        refine congrArg (Option.map · _) (funext fun body => ?_)
        simp

/-- The body begins with the first sub-frame; what is behind it is padding and the
body of the other packets, or nothing. -/
theorem staAmsduFrameTx_cons {p : TxPacket} {rest : List TxPacket} {w : List (BitVec 8)}
    (h : staAmsduFrameTx none (p :: rest) = some w) :
    p.skipped ≤ p.len ∧ ∃ t, w = p.subFrame ++ t ∧
      (rest = [] → t = []) ∧
      (rest ≠ [] → ∃ w', staAmsduFrameTx none rest = some w' ∧
        t = List.replicate (amsduPadding p.subFramePayloadLen) 0 ++ w') := by
  simp only [staAmsduFrameTx] at h
  split at h
  · cases h
  · rename_i hlen
    obtain ⟨t, ht, rfl⟩ := Option.map_eq_some_iff.mp h
    refine ⟨Nat.not_lt.mp hlen, t, by simp, ?_, ?_⟩
    · rintro rfl
      cases ht
      rfl
    · intro hne
      rw [staAmsduFrameTx_some hne] at ht
      obtain ⟨w', hw', rfl⟩ := Option.map_eq_some_iff.mp ht
      exact ⟨w', hw', rfl⟩

theorem length_typeOfLen {p : TxPacket} (hlen : p.skipped ≤ p.len) : p.typeOfLen.length = 2 := by
  have hskip : 14 ≤ p.skipped := by
    unfold TxPacket.skipped
    split <;> decide
  have hbytes : p.skipped ≤ p.bytes.length := hlen
  rw [TxPacket.typeOfLen, List.length_take, List.length_drop]
  omega

/-- Eight bytes of encapsulation, or none. -/
theorem length_encap {p : TxPacket} (hlen : p.skipped ≤ p.len) :
    p.encap.length = if 1500 < beWord p.typeOfLen then 8 else 0 := by
  have htype := length_typeOfLen hlen
  unfold TxPacket.encap extraLlcSnapEncap
  by_cases h : 1500 < beWord p.typeOfLen
  · rw [if_pos h, if_pos h]
    by_cases hx : p.typeOfLen = ipx ∨ p.typeOfLen = appleTalk
    · rw [if_pos hx]
      simp [snapBridgeTunnel, htype]
    · rw [if_neg hx]
      simp [snap8021H, htype]
  · rw [if_neg h, if_neg h]
    rfl

theorem length_srcBuf (p : TxPacket) : p.srcBuf.length = p.len - p.skipped := List.length_drop

theorem length_subFrame (p : TxPacket) :
    p.subFrame.length = 14 + p.encap.length + p.srcBuf.length := by
  have h14 : 14 ≤ p.bytes.length := p.header
  simp only [TxPacket.subFrame, List.length_append, List.length_take, llcLen, List.length_cons,
    List.length_nil]
  omega

/-! ## Reading the body -/

/-- The body ends with the bytes `w`, from `o` on. -/
structure Holds (b : Body) (o : Nat) (w : List (BitVec 8)) : Prop where
  size : b.size = o + w.length
  bytes : b.slice o w.length = w

theorem holds_bodyOf (bs : List (BitVec 8)) : Holds (bodyOf bs) 0 bs := by
  refine ⟨(Nat.zero_add _).symm, List.ext_getElem? fun i => ?_⟩
  by_cases hi : i < bs.length
  · rw [Body.slice, getElem?_segment _ hi]
    simp [bodyOf, hi]
  · rw [List.getElem?_eq_none (by simpa using hi), List.getElem?_eq_none (Nat.not_lt.mp hi)]

theorem slice_append (b : Body) (o n k : Nat) :
    b.slice o (n + k) = b.slice o n ++ b.slice (o + n) k := segment_add _ _ _ _

/-- The body by parts. -/
theorem Holds.split {b : Body} {o : Nat} {u v : List (BitVec 8)} (h : Holds b o (u ++ v)) :
    b.slice o u.length = u ∧ Holds b (o + u.length) v := by
  have hbytes := h.bytes
  rw [List.length_append, slice_append] at hbytes
  obtain ⟨hu, hv⟩ := List.append_inj hbytes (length_slice b o u.length)
  exact ⟨hu, by rw [h.size, List.length_append, Nat.add_assoc], hv⟩

theorem payloadField_llcLen (x : BitVec 16) : payloadField (llcLen x) = x := by
  apply BitVec.eq_of_toNat_eq
  have hx := x.isLt
  simp only [payloadField, llcLen, List.getD_cons_zero, List.getD_cons_succ, BitVec.toNat_add,
    BitVec.toNat_setWidth, BitVec.toNat_shiftLeft, BitVec.toNat_ushiftRight, Nat.shiftLeft_eq,
    Nat.shiftRight_eq_div_pow]
  omega

/-- The parts of the sub-frame at `o`. -/
structure Parts (b : Body) (o : Nat) (p : TxPacket) (t : List (BitVec 8)) : Prop where
  addrs : b.slice o 12 = p.bytes.take 12
  field : fieldAt b o = p.subFramePayloadLen
  encap : b.slice (o + 14) p.encap.length = p.encap
  payload : b.slice (o + 14 + p.encap.length) p.srcBuf.length = p.srcBuf
  rest : Holds b (o + p.subFrame.length) t

theorem Holds.parts {b : Body} {o : Nat} {p : TxPacket} {t : List (BitVec 8)}
    (h : Holds b o (p.subFrame ++ t)) : Parts b o p t := by
  have h14 : 14 ≤ p.bytes.length := p.header
  have haddrs : (p.bytes.take 12).length = 12 := by
    rw [List.length_take]
    omega
  obtain ⟨-, hrest⟩ := h.split
  have hsplit : p.subFrame ++ t
      = p.bytes.take 12 ++ (llcLen p.subFramePayloadLen ++ (p.encap ++ (p.srcBuf ++ t))) := by
    simp [TxPacket.subFrame]
  rw [hsplit] at h
  obtain ⟨h12, h⟩ := h.split
  obtain ⟨hfield, h⟩ := h.split
  obtain ⟨hencap, h⟩ := h.split
  obtain ⟨hpayload, -⟩ := h.split
  rw [haddrs] at h12 hfield hencap hpayload
  refine ⟨h12, ?_, hencap, hpayload, hrest⟩
  have hlen : b.slice (o + 12) 2 = llcLen p.subFramePayloadLen := hfield
  show payloadField (b.slice (o + 12) 2) = _
  rw [hlen, payloadField_llcLen]

/-! ## One sub-frame -/

/-- What the conversion makes of a sub-frame whose LLC/SNAP header it removes. -/
theorem convertTo8023_removes {b : Body} {o : Nat} (h22 : o + 22 ≤ b.size) (hr : Removes b o)
    (f : BitVec 16) :
    convertTo8023 b o (o + macAddrLen) (o + length8023) f
      = .ok (withoutSnap (b.slice o 12 ++ b.slice (o + 20) 2) o f) := by
  rw [slice_append b o 6 6]
  exact (convertTo8023_cases o (o + 6) (by omega) (by omega) (by omega) (fun _ => h22) f).1 hr

/-- What the conversion leaves, whatever the sub-frame. -/
theorem convertTo8023_ok {b : Body} {o : Nat} {f : BitVec 16} {c : Converted}
    (h : convertTo8023 b o (o + macAddrLen) (o + length8023) f = .ok c) :
    c = withoutSnap (b.slice o 12 ++ b.slice (o + 20) 2) o f ∨
      (c.removedLLCSNAP = false ∧ c.payloadSize = f) := by
  have hreads : o + 20 ≤ b.size ∧ (LooksSnap b o → o + 22 ≤ b.size) := by
    by_contra hno
    obtain ⟨e, he⟩ := convertTo8023_fault f hno
    rw [he] at h
    cases h
  by_cases hr : Removes b o
  · rw [convertTo8023_removes (hreads.2 hr.1) hr] at h
    cases h
    exact Or.inl rfl
  · obtain ⟨hdr, -, -, hplain⟩ := convertTo8023_of_le hreads.1 hreads.2 f
    rw [(hplain hr).1] at h
    cases h
    exact Or.inr ⟨rfl, rfl⟩

/-- A sub-frame has been dealt with, however it looks: one piece more at most, of one
of two lengths, and nothing written behind its LLC/SNAP header. -/
structure SubFrameDone (os : Allocs) (s s' : Amsdu) (o : Nat) (f : BitVec 16) : Prop where
  pData : s'.pData = s.pData
  dataSize : s'.dataSize = s.dataSize
  nMSDU : s'.nMSDU = s.nMSDU
  size : s'.body.size = s.body.size
  behind : ∀ i, o + 22 ≤ i → s'.body.byte i = s.body.byte i
  handed : s'.handed = s.handed ∨ (os.clone s.nMSDU = true ∧ ∃ m, s'.handed = s.handed ++ [m] ∧
    (m.len = f.toNat ∨ m.len = (f - BitVec.ofNat 16 length8021H + BitVec.ofNat 16 length8023).toNat))

theorem copyEapol_ok {os : Allocs} {s s' : Amsdu} {f : BitVec 16} {c : Converted}
    (h : copyEapol os s f c = .ok s') : ∃ es, s' = { s with eapol := es } := by
  unfold copyEapol at h
  split at h
  · obtain ⟨-, -, h⟩ := bind_eq_ok h
    split at h
    · cases h
      exact ⟨_, rfl⟩
    · cases h
  · cases h
    exact ⟨s.eapol, rfl⟩

theorem clonePacket_eq (os : Allocs) (s : Amsdu) (f : BitVec 16) (c : Converted) (start : Nat)
    (len : BitVec 16) :
    clonePacket os s f c start len = { s with
      handed := s.handed ++ if os.clone s.nMSDU then
        [⟨s.pData, f.toNat, start, len.toNat, c.payloadSize.toNat⟩] else [] } := by
  unfold clonePacket
  split <;> simp

theorem write_ok {b b' : Body} {o : Nat} {bs : List (BitVec 8)} (h : b.write o bs = .ok b') :
    b' = { b with byte := store b.byte o bs } := by
  unfold Body.write at h
  split at h
  · cases h
    rfl
  · cases h

/-- One piece more, or none. -/
theorem handed_cases {cloned : Bool} {before after : List Piece} {m : Piece} {P : Piece → Prop}
    (h : after = before ++ if cloned then [m] else []) (hm : P m) :
    after = before ∨ (cloned = true ∧ ∃ m, after = before ++ [m] ∧ P m) := by
  cases cloned with
  | true => exact Or.inr ⟨rfl, m, h, hm⟩
  | false => exact Or.inl (h.trans (List.append_nil before))

theorem subFrame_done {os : Allocs} {s s' : Amsdu} {o : Nat} {f : BitVec 16} (hs : s.pData = o)
    (h : subFrame os s f = .ok s') : SubFrameDone os s s' o f := by
  obtain ⟨c, hconv, h⟩ := bind_eq_ok h
  obtain ⟨s₁, hcopy, h⟩ := bind_eq_ok h
  obtain ⟨⟨start, len, s₂⟩, hrestore, h⟩ := bind_eq_ok h
  have hclone : clonePacket os s₂ f c start len = s' := Except.ok.inj h
  rw [clonePacket_eq] at hclone
  obtain ⟨es, rfl⟩ := copyEapol_ok hcopy
  rw [hs] at hconv
  obtain rfl | ⟨hplain, hsize⟩ := convertTo8023_ok hconv
  · -- the new header goes over the old one
    obtain ⟨body, hwrite, hret⟩ := bind_eq_ok hrestore
    obtain rfl := write_ok hwrite
    cases hret
    subst hclone
    refine ⟨rfl, rfl, rfl, rfl, fun i hi => ?_, handed_cases rfl (Or.inr rfl)⟩
    have hout : ¬ (o + 8 ≤ i
        ∧ i < o + 8 + (s.body.slice o 12 ++ s.body.slice (o + 20) 2).length) := by
      rw [List.length_append, length_slice, length_slice]
      omega
    exact if_neg hout
  · rw [restoreHeader, hplain, if_neg (by decide)] at hrestore
    cases hrestore
    subst hclone
    exact ⟨rfl, rfl, rfl, rfl, fun i _ => rfl, handed_cases rfl (Or.inl (by rw [hsize]))⟩

/-! ## A plain packet -/

section Plain

variable {b : Body} {o : Nat} {p : TxPacket} {t : List (BitVec 8)}

theorem TxPacket.Plain.skipped_eq (h : p.Plain) : p.skipped = 14 := by
  rw [TxPacket.skipped, h.untagged]
  rfl

theorem TxPacket.Plain.typeOfLen_eq (h : p.Plain) : p.typeOfLen = (p.bytes.drop 12).take 2 := by
  rw [TxPacket.typeOfLen, h.skipped_eq]

theorem TxPacket.Plain.skipped_le (h : p.Plain) : p.skipped ≤ p.len := by
  rw [h.skipped_eq]
  exact p.header

theorem TxPacket.Plain.length_encap (h : p.Plain) : p.encap.length = 8 := by
  have htyped := h.typed
  rw [← h.typeOfLen_eq] at htyped
  rw [Rt3370.length_encap h.skipped_le, if_pos htyped]

theorem TxPacket.Plain.length_srcBuf (h : p.Plain) : p.srcBuf.length + 14 = p.len := by
  have h14 : 14 ≤ p.len := p.header
  rw [Rt3370.length_srcBuf, h.skipped_eq]
  omega

theorem TxPacket.Plain.field_eq (h : p.Plain) (hshort : p.len ≤ 1524) :
    p.subFramePayloadLen.toNat + 6 = p.len := by
  have hsrc := h.length_srcBuf
  rw [TxPacket.subFramePayloadLen, h.length_encap, BitVec.toNat_ofNat]
  omega

theorem TxPacket.Plain.length_subFrame (h : p.Plain) : p.subFrame.length = p.len + 8 := by
  have hsrc := h.length_srcBuf
  rw [Rt3370.length_subFrame, h.length_encap]
  omega

/-- The encapsulation is one the receiver takes off, with the type behind it. -/
theorem removes_of_encap (hencap : b.slice (o + 14) p.encap.length = p.encap) (h : p.Plain) :
    Removes b o ∧ b.slice (o + 20) 2 = p.typeOfLen := by
  have htyped := h.typed
  rw [← h.typeOfLen_eq] at htyped
  rw [h.length_encap, slice_append b (o + 14) 6 2] at hencap
  unfold TxPacket.encap extraLlcSnapEncap at hencap
  rw [if_pos htyped] at hencap
  by_cases hx : p.typeOfLen = ipx ∨ p.typeOfLen = appleTalk
  · rw [if_pos hx] at hencap
    obtain ⟨hsnap, htype⟩ := List.append_inj hencap (length_slice _ _ _)
    refine ⟨⟨Or.inr hsnap, fun hkeep => ?_⟩, htype⟩
    have hne : snapBridgeTunnel = snap8021H := hsnap.symm.trans hkeep.2
    exact absurd hne (by decide)
  · rw [if_neg hx] at hencap
    obtain ⟨hsnap, htype⟩ := List.append_inj hencap (length_slice _ _ _)
    refine ⟨⟨Or.inl hsnap, fun hkeep => hx ?_⟩, htype⟩
    obtain ⟨hkept, -⟩ := hkeep
    have htype' : b.slice (o + length8023 + 6) 2 = p.typeOfLen := htype
    rwa [htype'] at hkept

theorem Parts.removes (hparts : Parts b o p t) (h : p.Plain) :
    Removes b o ∧ b.slice (o + 20) 2 = p.typeOfLen :=
  removes_of_encap hparts.encap h

theorem Holds.opens (hw : Holds b o (p.subFrame ++ t)) (h : p.Plain) (hshort : p.len ≤ 1524) :
    Opens b o := by
  have hfield := h.field_eq hshort
  have hsub := h.length_subFrame
  have h14 : 14 ≤ p.len := p.header
  have hparts := hw.parts
  have hsize := hw.size
  rw [List.length_append, hsub] at hsize
  have hf : (fieldAt b o).toNat = p.subFramePayloadLen.toNat := by rw [hparts.field]
  have hsizeAt : (sizeAt b o).toNat = (fieldAt b o).toNat + 14 := by
    rw [sizeAt, BitVec.toNat_add, BitVec.toNat_ofNat]
    show ((fieldAt b o).toNat + 14 % 2 ^ 16) % 2 ^ 16 = _
    omega
  refine ⟨?_, ?_, ?_⟩
  · show 14 < b.size - o
    omega
  · omega
  · omega

/-- The state behind a plain packet: its header stands in front of its payload. -/
def Amsdu.afterPacket (os : Allocs) (s : Amsdu) (o : Nat) (p : TxPacket) (es : List Piece) :
    Amsdu :=
  { s with
    eapol := es
    body := { s.body with byte := store s.body.byte (o + 8) (p.bytes.take 14) }
    handed := s.handed ++ if os.clone s.nMSDU then
      [⟨s.pData, p.subFramePayloadLen.toNat, o + 8, p.len,
        (p.subFramePayloadLen - BitVec.ofNat 16 length8021H).toNat⟩] else [] }

theorem take_twelve_append (bs : List (BitVec 8)) :
    bs.take 12 ++ (bs.drop 12).take 2 = bs.take 14 := List.take_add.symm

/-- **One plain packet** is converted back and handed up. -/
theorem subFrame_packet {s : Amsdu} (os : Allocs) (hs : StandsAt b s o)
    (hw : Holds b o (p.subFrame ++ t)) (h : p.Plain) (hshort : p.len ≤ 1524) :
    ∃ es, subFrame os s p.subFramePayloadLen = .ok (s.afterPacket os o p es) := by
  have hopens := hw.opens h hshort
  have hparts := hw.parts
  have hfield := h.field_eq hshort
  obtain ⟨hremoves, htype⟩ := hparts.removes h
  have hsize := hw.size
  rw [List.length_append, h.length_subFrame] at hsize
  have h14 : 14 ≤ p.len := p.header
  -- the receiver's own view of the sub-frame
  have hrem : Removes s.body o := hs.removes.2.mpr hremoves
  have h22 : o + 22 ≤ s.body.size := by
    rw [hs.size]
    omega
  have hhdr : s.body.slice o 12 ++ s.body.slice (o + 20) 2 = p.bytes.take 14 := by
    rw [hs.slice (Nat.le_refl o), hs.slice (Nat.le_add_right o 20), hparts.addrs, htype,
      h.typeOfLen_eq, take_twelve_append]
  have hconv := convertTo8023_removes h22 hrem p.subFramePayloadLen
  rw [hhdr] at hconv
  obtain ⟨s₁, hcopy, -⟩ := copyEapol_dealt (c := withoutSnap (p.bytes.take 14) o p.subFramePayloadLen)
    os hs hopens rfl (by
      rw [hparts.field, BitVec.toNat_sub, BitVec.toNat_ofNat]
      show (2 ^ 16 - 8 % 2 ^ 16 + p.subFramePayloadLen.toNat) % 2 ^ 16 + 8 = _
      omega)
  rw [hparts.field] at hcopy
  obtain ⟨es, rfl⟩ := copyEapol_ok hcopy
  have hlen14 : (p.bytes.take 14).length = 14 := by
    rw [List.length_take]
    exact Nat.min_eq_left p.header
  have hrestore : restoreHeader { s with eapol := es }
      (withoutSnap (p.bytes.take 14) o p.subFramePayloadLen)
      = .ok (o + 8, p.subFramePayloadLen - BitVec.ofNat 16 length8021H + BitVec.ofNat 16 length8023,
        { s with
          eapol := es
          body := { s.body with byte := store s.body.byte (o + 8) (p.bytes.take 14) } }) := by
    refine restoreHeader_removed { s with eapol := es } ?_ ?_
    · show o + 14 + 8 - 14 = _
      omega
    · show o + 8 + (p.bytes.take 14).length ≤ s.body.size
      omega
  refine ⟨es, ?_⟩
  have hlen : (p.subFramePayloadLen - BitVec.ofNat 16 length8021H
      + BitVec.ofNat 16 length8023).toNat = p.len := by
    rw [BitVec.toNat_add, BitVec.toNat_sub, BitVec.toNat_ofNat, BitVec.toNat_ofNat]
    show ((2 ^ 16 - 8 % 2 ^ 16 + p.subFramePayloadLen.toNat) % 2 ^ 16 + 14 % 2 ^ 16) % 2 ^ 16 = _
    omega
  rw [subFrame, hs.pData, hconv]
  simp only [bind, Except.bind, hcopy, hrestore, pure, Except.pure, clonePacket_eq,
    Amsdu.afterPacket, hlen]

/-- Its bytes are in the buffer. -/
theorem afterPacket_slice {s : Amsdu} (os : Allocs) (hs : StandsAt b s o)
    (hw : Holds b o (p.subFrame ++ t)) (h : p.Plain) (es : List Piece) :
    (s.afterPacket os o p es).body.slice (o + 8) p.len = p.bytes := by
  have hparts := hw.parts
  have h14 : 14 ≤ p.len := p.header
  have hlen14 : (p.bytes.take 14).length = 14 := by
    rw [List.length_take]
    exact Nat.min_eq_left p.header
  have hsrc := h.length_srcBuf
  have hpayload := hparts.payload
  rw [h.length_encap] at hpayload
  have hdrop : p.srcBuf = p.bytes.drop 14 := by
    rw [TxPacket.srcBuf, h.skipped_eq]
  have hrest : segment s.body.byte (o + 8 + 14) p.srcBuf.length = p.srcBuf := by
    refine Eq.trans (segment_congr fun i _ => ?_) hpayload
    rw [show o + 14 + 8 + i = o + 8 + 14 + i by omega, ← hs.same _ (by omega)]
  have hfront := segment_store_front s.body.byte (o + 8) p.srcBuf.length (p.bytes.take 14)
  rw [hlen14, hrest, hdrop, List.take_append_drop, ← hdrop,
    show 14 + p.srcBuf.length = p.len by omega] at hfront
  exact hfront

end Plain

/-! ## The loop over the packets -/

/-- `SubFrameSize` rounded up. -/
theorem alignFour_toNat {x : BitVec 16} (hx : x.toNat ≤ 60000) :
    (alignFour x).toNat = (x.toNat + 3) / 4 * 4 := by
  have hshift : alignFour x = (x + 3) >>> 2 <<< 2 := by
    unfold alignFour
    ext i hi
    interval_cases i <;> simp
  rw [hshift, BitVec.toNat_shiftLeft, BitVec.toNat_ushiftRight, BitVec.toNat_add,
    Nat.shiftLeft_eq, Nat.shiftRight_eq_div_pow]
  have h3 : (3 : BitVec 16).toNat = 3 := rfl
  rw [h3]
  omega

theorem StandsAt.count {b : Body} {s : Amsdu} {o : Nat} (h : StandsAt b s o) (n : Nat) :
    StandsAt b { s with nMSDU := n } o := ⟨h.pData, h.dataSize, h.size, h.same⟩

/-- The loop is over where no data is left. -/
theorem amsduLoop_done {os : Allocs} {s : Amsdu} (h : s.dataSize = 0) :
    amsduLoop os s = .ret s := by
  rw [amsduLoop, amsduTurn, if_pos (by rw [h]; exact Nat.zero_le _)]
  rfl

/-- Behind a sub-frame of size `a`: the loop is over, or it goes on `a` bytes further. -/
theorem nextSubFrame_cases (s : Amsdu) (a : BitVec 16) :
    (nextSubFrame s a = .ret s ∧ (1528 < a.toNat ∨ a.toNat < 32)) ∨
      (nextSubFrame s a = .next { s with dataSize := 0 } ∧ s.dataSize ≤ a.toNat) ∨
      (nextSubFrame s a = .next
          { s with pData := s.pData + a.toNat, dataSize := s.dataSize - a.toNat } ∧
        a.toNat ≤ 1528 ∧ 32 ≤ a.toNat ∧ a.toNat < s.dataSize) := by
  unfold nextSubFrame
  by_cases hodd : 1528 < a.toNat ∨ a.toNat < 32
  · rw [if_pos hodd]
    exact Or.inl ⟨rfl, hodd⟩
  · rw [if_neg hodd]
    by_cases hmore : a.toNat < s.dataSize
    · rw [if_pos hmore]
      exact Or.inr (Or.inr ⟨rfl, by omega, by omega, hmore⟩)
    · rw [if_neg hmore]
      exact Or.inr (Or.inl ⟨rfl, Nat.not_lt.mp hmore⟩)

/-- The size of a sub-frame, with the padding that follows it. -/
theorem length_padded {p : TxPacket} {a : BitVec 16} {f : BitVec 16}
    (hf : f = p.subFramePayloadLen) (hsize : p.encap.length + p.srcBuf.length = f.toNat)
    (hshort : f.toNat ≤ 1518) (ha : a = alignFour (f + BitVec.ofNat 16 length8023)) :
    a.toNat = p.subFrame.length + amsduPadding p.subFramePayloadLen := by
  have hsum : (f + BitVec.ofNat 16 length8023).toNat = f.toNat + 14 := by
    rw [BitVec.toNat_add, BitVec.toNat_ofNat]
    show (f.toNat + 14 % 2 ^ 16) % 2 ^ 16 = _
    omega
  rw [ha, alignFour_toNat (by omega), hsum, length_subFrame, amsduPadding, ← hf]
  show _ = _ + ((14 + f.toNat + 3) / 4 * 4 - (14 + f.toNat))
  omega

/-- Where the receiver stands after a plain packet with packets behind it. -/
theorem StandsAt.onward {b : Body} {s s' : Amsdu} {o a : Nat} (hs : StandsAt b s o)
    (hpData : s'.pData = s.pData) (hdata : s'.dataSize = s.dataSize)
    (hsize : s'.body.size = s.body.size)
    (hbehind : ∀ i, o + 22 ≤ i → s'.body.byte i = s.body.byte i) (ha : 32 ≤ a) :
    StandsAt b { s' with pData := s'.pData + a, dataSize := s'.dataSize - a } (o + a) where
  pData := by
    show s'.pData + a = o + a
    rw [hpData, hs.pData]
  dataSize := by
    show s'.dataSize - a = b.size - (o + a)
    rw [hdata, hs.dataSize, Nat.sub_add_eq]
  size := hsize.trans hs.size
  same i hi := (hbehind i (by omega)).trans (hs.same i (by omega))

/-- The size of a plain packet's sub-frame, with the padding. -/
theorem TxPacket.Plain.length_padded {p : TxPacket} (h : p.Plain) (hshort : p.len ≤ 1524) :
    p.subFrame.length + amsduPadding p.subFramePayloadLen = (p.len + 8 + 3) / 4 * 4 := by
  have hfield := h.field_eq hshort
  rw [h.length_subFrame, amsduPadding]
  show _ + ((14 + p.subFramePayloadLen.toNat + 3) / 4 * 4 - (14 + _)) = _
  omega

/-- Behind a sub-frame after which data is left stands the next packet's. -/
theorem Holds.next {b : Body} {s : Amsdu} {o a : Nat} {p : TxPacket} {rest : List TxPacket}
    {w : List (BitVec 8)} (hw : Holds b o w) (hs : StandsAt b s o)
    (htx : staAmsduFrameTx none (p :: rest) = some w)
    (ha : a = p.subFrame.length + amsduPadding p.subFramePayloadLen) (hgo : a < s.dataSize) :
    ∃ w', staAmsduFrameTx none rest = some w' ∧ Holds b (o + a) w' := by
  obtain ⟨-, t, rfl, hlast, hmore⟩ := staAmsduFrameTx_cons htx
  have hne : rest ≠ [] := by
    intro hnil
    rw [hs.dataSize, hw.size, hlast hnil, List.append_nil] at hgo
    omega
  obtain ⟨w', hw', rfl⟩ := hmore hne
  have hheld := hw.parts.rest.split.2
  rw [List.length_replicate, Nat.add_assoc, ← ha] at hheld
  exact ⟨w', hw', hheld⟩

/-- Behind the last packet no data is left. -/
theorem eq_nil_of_over {b : Body} {s : Amsdu} {o a : Nat} {p : TxPacket} {rest : List TxPacket}
    {w : List (BitVec 8)} (hw : Holds b o w) (hs : StandsAt b s o)
    (htx : staAmsduFrameTx none (p :: rest) = some w)
    (ha : a = p.subFrame.length + amsduPadding p.subFramePayloadLen) (hend : s.dataSize ≤ a) :
    rest = [] := by
  obtain ⟨-, t, rfl, -, hmore⟩ := staAmsduFrameTx_cons htx
  by_contra hne
  obtain ⟨w', hw', rfl⟩ := hmore hne
  obtain ⟨q, qs, rfl⟩ := List.exists_cons_of_ne_nil hne
  obtain ⟨-, t', rfl, -⟩ := staAmsduFrameTx_cons hw'
  rw [hs.dataSize, hw.size] at hend
  simp only [List.length_append, List.length_replicate, length_subFrame q] at hend
  omega

/-- What the turn of a plain packet leaves: the packet is handed up. -/
structure TookWhole (os : Allocs) (b : Body) (s : Amsdu) (o : Nat) (p : TxPacket) (s' : Amsdu)
    (m : Piece) : Prop where
  turn : amsduLoop os s = nextSubFrame s' (alignFour (sizeAt b o))
  handed : s'.handed = s.handed ++ [m]
  start : m.start = o + 8
  len : m.len = p.len
  packet : s'.body.slice (o + 8) p.len = p.bytes
  pData : s'.pData = s.pData
  dataSize : s'.dataSize = s.dataSize
  nMSDU : s'.nMSDU = s.nMSDU + 1
  size : s'.body.size = s.body.size
  before : ∀ i, i < o + 8 → s'.body.byte i = s.body.byte i
  behind : ∀ i, o + 22 ≤ i → s'.body.byte i = s.body.byte i

theorem plain_turn {os : Allocs} {b : Body} {s : Amsdu} {o : Nat} {p : TxPacket}
    {t : List (BitVec 8)} (hs : StandsAt b s o) (hw : Holds b o (p.subFrame ++ t))
    (hplain : p.Plain) (hlen : p.len ≤ 1524) (hclone : os.clone (s.nMSDU + 1) = true) :
    ∃ s' m, TookWhole os b s o p s' m := by
  have hs₁ : StandsAt b { s with nMSDU := s.nMSDU + 1 } o := hs.count _
  obtain ⟨es, hsub⟩ := subFrame_packet os hs₁ hw hplain hlen
  have hslice := afterPacket_slice os hs₁ hw hplain es
  rw [← hw.parts.field] at hsub
  have hturn := (amsduLoop_at os hs).2 (hw.opens hplain hlen)
  rw [hsub] at hturn
  have hbehind := (subFrame_done hs₁.pData hsub).behind
  refine ⟨({ s with nMSDU := s.nMSDU + 1 } : Amsdu).afterPacket os o p es,
    ⟨s.pData, p.subFramePayloadLen.toNat, o + 8, p.len,
      (p.subFramePayloadLen - BitVec.ofNat 16 length8021H).toNat⟩, ?_⟩
  constructor
  case turn => exact hturn
  case handed => simp only [Amsdu.afterPacket, hclone, if_true]
  case before =>
    intro i hi
    have hout : ¬ (o + 8 ≤ i ∧ i < o + 8 + (p.bytes.take 14).length) := by omega
    exact if_neg hout
  case packet => exact hslice
  case behind => exact hbehind
  all_goals rfl

/-- What a run of the loop from `s` hands up, and where it writes. -/
structure HandsUp (os : Allocs) (s : Amsdu) (o : Nat) (ps : List TxPacket) (r : Amsdu)
    (ms : List Piece) : Prop where
  ends : Ends (fun n => iterate (amsduLoop os) n s) r
  handed : r.handed = s.handed ++ ms
  packets : (ms.map fun m => r.body.slice m.start m.len) = ps.map TxPacket.bytes
  before : ∀ i, i < o + 8 → r.body.byte i = s.body.byte i

/-- The packet alone, where the loop is over behind it. -/
theorem TookWhole.last {os : Allocs} {b : Body} {s s' r : Amsdu} {o : Nat} {p : TxPacket}
    {m : Piece} (h : TookWhole os b s o p s' m)
    (hends : Ends (fun n => iterate (amsduLoop os) n s) r) (hhanded : r.handed = s'.handed)
    (hbody : r.body = s'.body) : HandsUp os s o [p] r [m] where
  ends := hends
  handed := hhanded.trans h.handed
  packets := by
    simp only [List.map_cons, List.map_nil, hbody, h.start, h.len, h.packet]
  before i hi := by
    rw [hbody]
    exact h.before i hi

/-- The packet in front of what the loop hands up from `a` bytes further on. -/
theorem TookWhole.cons {os : Allocs} {b : Body} {s s' r : Amsdu} {o a n : Nat} {p : TxPacket}
    {rest : List TxPacket} {m : Piece} {ms : List Piece} (h : TookWhole os b s o p s' m)
    (hnext : nextSubFrame s' (alignFour (sizeAt b o)) =
      .next { s' with pData := s'.pData + a, dataSize := n })
    (hr : HandsUp os { s' with pData := s'.pData + a, dataSize := n } (o + a) rest r ms)
    (ha : p.len ≤ a) : HandsUp os s o (p :: rest) r (m :: ms) where
  ends := (ends_of_next (h.turn.trans hnext)).mpr hr.ends
  handed := by
    rw [hr.handed]
    show s'.handed ++ ms = _
    rw [h.handed, List.append_assoc]
    rfl
  packets := by
    rw [List.map_cons, List.map_cons, hr.packets, h.start, h.len, ← h.packet]
    refine congrArg (· :: _) (segment_congr fun i hi => ?_)
    exact hr.before _ (by omega)
  before i hi := by
    rw [hr.before i (by omega)]
    exact h.before i hi

/-- **What the receiver gets through whole comes out as it went in.** -/
theorem splits_handsUp {os : Allocs} {b : Body} :
    ∀ (ps : List TxPacket) (o k : Nat) (s : Amsdu) (w : List (BitVec 8)), StandsAt b s o →
      Holds b o w → staAmsduFrameTx none ps = some w → s.nMSDU = k → Splits os k ps →
      ∃ r ms, HandsUp os s o ps r ms := by
  intro ps
  induction ps with
  | nil =>
      intro o k s w hs hw htx _ _
      cases htx
      have hzero : s.dataSize = 0 := by
        rw [hs.dataSize, hw.size]
        simp
      exact ⟨s, [], (ends_of_ret (amsduLoop_done hzero)).mpr rfl, by simp, rfl, fun _ _ => rfl⟩
  | cons p rest ih =>
      intro o k s w hs hw htx hk hsplit
      obtain ⟨hplain, hlen, hmiddle, hclone, hrest⟩ := splits_cons.mp hsplit
      replace hlen : p.len ≤ 1524 := hlen
      have htx' := htx
      obtain ⟨-, t, rfl, -, -⟩ := staAmsduFrameTx_cons htx'
      subst hk
      obtain ⟨s', m, htook⟩ := plain_turn hs hw hplain hlen hclone
      have hfield := hplain.field_eq hlen
      have ha : (alignFour (sizeAt b o)).toNat
          = p.subFrame.length + amsduPadding p.subFramePayloadLen := by
        have hencap := hplain.length_encap
        have hsrc := hplain.length_srcBuf
        refine length_padded hw.parts.field ?_ ?_ rfl <;> rw [hw.parts.field] <;> omega
      have hpadded := hplain.length_padded hlen
      obtain ⟨hret, hodd⟩ | ⟨hnext, hend⟩ | ⟨hnext, -, h32, hgo⟩ :=
        nextSubFrame_cases s' (alignFour (sizeAt b o))
      · -- only behind the last packet
        have hnil : rest = [] := by
          by_contra hne
          obtain ⟨hlow, hhigh⟩ : 14 + 7 ≤ p.len ∧ p.len ≤ 14 + 1506 := hmiddle hne
          omega
        subst hnil
        exact ⟨s', [m],
          htook.last ((ends_of_ret (htook.turn.trans hret)).mpr rfl) rfl rfl⟩
      · rw [htook.dataSize] at hend
        obtain rfl := eq_nil_of_over hw hs htx ha hend
        exact ⟨{ s' with dataSize := 0 }, [m], htook.last ((ends_of_next
          (htook.turn.trans hnext)).mpr ((ends_of_ret (amsduLoop_done rfl)).mpr rfl)) rfl rfl⟩
      · rw [htook.dataSize] at hgo
        obtain ⟨w', hw', hholds⟩ := hw.next hs htx ha hgo
        have hstands := hs.onward htook.pData htook.dataSize htook.size htook.behind h32
        obtain ⟨r, ms, hr⟩ := ih _ (s.nMSDU + 1) _ w' hstands hholds hw' htook.nMSDU hrest
        exact ⟨r, m :: ms, htook.cons hnext hr (by omega)⟩

/-! ## What comes out whole -/

/-- A packet of which a piece of its own length is handed up was plain. -/
theorem plain_of_len {p : TxPacket} {f : BitVec 16} {n : Nat} (hskip : p.skipped ≤ p.len)
    (hf : p.encap.length + p.srcBuf.length = f.toNat) (hshort : f.toNat ≤ 1518)
    (hn : n = f.toNat ∨
      n = (f - BitVec.ofNat 16 length8021H + BitVec.ofNat 16 length8023).toNat)
    (hlen : n = p.len) : p.Plain ∧ p.len ≤ 1524 := by
  have hwrap : (f - BitVec.ofNat 16 length8021H + BitVec.ofNat 16 length8023).toNat
      = f.toNat + 6 := by
    rw [BitVec.toNat_add, BitVec.toNat_sub, BitVec.toNat_ofNat, BitVec.toNat_ofNat]
    show ((2 ^ 16 - 8 % 2 ^ 16 + f.toNat) % 2 ^ 16 + 14 % 2 ^ 16) % 2 ^ 16 = _
    omega
  rw [hwrap] at hn
  have hencap := length_encap hskip
  have hsrc := length_srcBuf p
  -- only the packet with an encapsulation and no tag has its own length again
  cases hvlan : p.vlan with
  | true =>
      have h18 : p.skipped = 18 := by
        rw [TxPacket.skipped, hvlan]
        rfl
      exfalso
      split at hencap <;> omega
  | false =>
      have h14 : p.skipped = 14 := by
        rw [TxPacket.skipped, hvlan]
        rfl
      by_cases htyped : 1500 < beWord p.typeOfLen
      · rw [if_pos htyped] at hencap
        refine ⟨⟨hvlan, ?_⟩, by omega⟩
        rwa [TxPacket.typeOfLen, h14] at htyped
      · rw [if_neg htyped] at hencap
        exfalso
        omega

/-- The length field, for a packet that is no longer than the batch may be. -/
theorem toNat_subFramePayloadLen {p : TxPacket} (hskip : p.skipped ≤ p.len) (hlen : p.len ≤ 3740) :
    p.encap.length + p.srcBuf.length = p.subFramePayloadLen.toNat := by
  have hencap := length_encap hskip
  have hsrc := length_srcBuf p
  have h14 : 14 ≤ p.skipped := by
    unfold TxPacket.skipped
    split <;> decide
  rw [TxPacket.subFramePayloadLen, BitVec.toNat_ofNat]
  split at hencap <;> omega

/-- What has been handed up stays handed up. -/
theorem handed_of_ends {os : Allocs} {s r : Amsdu}
    (h : Ends (fun n => iterate (amsduLoop os) n s) r) : ∃ ms, r.handed = s.handed ++ ms := by
  obtain ⟨t, hm, hret⟩ := iterate_ends_iff.mp h
  obtain ⟨ms, hms⟩ : ∃ ms, t.handed = s.handed ++ ms := by
    refine hm.inv (I := fun u => ∃ ms, u.handed = s.handed ++ ms) ?_ ⟨[], by simp⟩
    rintro u u' ⟨ms, hu⟩ hn
    obtain ⟨ms', hu'⟩ := amsduLoop_handed (.inl hn)
    exact ⟨ms ++ ms', by rw [hu', hu, List.append_assoc]⟩
  obtain ⟨ms', hr⟩ := amsduLoop_handed (.inr hret)
  exact ⟨ms ++ ms', by rw [hr, hms, List.append_assoc]⟩

/-- The lengths of the pieces. -/
abbrev pieceLens (ms : List Piece) : List Nat := ms.map Piece.len

/-- The turn of a packet hands up nothing or one piece, and one of the packet's own
length only if the packet came through whole. -/
theorem SubFrameDone.piece {os : Allocs} {s s' : Amsdu} {o : Nat} {f : BitVec 16} {p : TxPacket}
    (h : SubFrameDone os s s' o f) (hskip : p.skipped ≤ p.len)
    (hf : p.encap.length + p.srcBuf.length = f.toNat) (hshort : f.toNat ≤ 1518) :
    s'.handed = s.handed ∨ ∃ m, s'.handed = s.handed ++ [m] ∧
      (m.len = p.len → p.Plain ∧ p.len ≤ 1524 ∧ os.clone s.nMSDU = true) := by
  obtain hnone | ⟨hclone, m, hm, hor⟩ := h.handed
  · exact Or.inl hnone
  · refine Or.inr ⟨m, hm, fun hlen => ?_⟩
    obtain ⟨hplain, hle⟩ := plain_of_len hskip hf hshort hor hlen
    exact ⟨hplain, hle, hclone⟩

/-- The turn of the last packet that gets one. -/
theorem splits_of_last {os : Allocs} {k : Nat} {p : TxPacket} {rest : List TxPacket}
    {before after ms : List Piece} (hr : after = before ++ ms)
    (h : after = before ∨ ∃ m, after = before ++ [m] ∧
      (m.len = p.len → p.Plain ∧ p.len ≤ 1524 ∧ os.clone (k + 1) = true)) :
    ms.length ≤ (p :: rest).length ∧
      (pieceLens ms = (p :: rest).map TxPacket.len → Splits os k (p :: rest)) := by
  obtain hnone | ⟨m, hm, hown⟩ := h
  · obtain rfl : ms = [] := List.self_eq_append_right.mp (hnone.symm.trans hr)
    exact ⟨Nat.zero_le _, fun h => by cases h⟩
  · obtain rfl : ms = [m] := List.append_cancel_left (hr.symm.trans hm)
    refine ⟨Nat.succ_le_succ (Nat.zero_le _), fun h => ?_⟩
    simp only [pieceLens, List.map_cons, List.map_nil, List.cons.injEq] at h
    obtain rfl : rest = [] := List.map_eq_nil_iff.mp h.2.symm
    obtain ⟨hplain, hlen, hclone⟩ := hown h.1
    exact splits_cons.mpr ⟨hplain, hlen, fun hne => absurd rfl hne, hclone, .nil os _⟩

/-- The turn of a packet behind which the loop goes on. -/
theorem splits_of_onward {os : Allocs} {k : Nat} {p : TxPacket} {rest : List TxPacket}
    {before between after ms : List Piece} (hr : after = before ++ ms)
    (h : between = before ∨ ∃ m, between = before ++ [m] ∧
      (m.len = p.len → p.Plain ∧ p.len ≤ 1524 ∧ os.clone (k + 1) = true))
    (hkept : ∃ ms', after = between ++ ms')
    (hmiddle : p.Plain → p.len ≤ 1524 → 14 + 7 ≤ p.len ∧ p.len ≤ 14 + 1506)
    (ih : ∀ ms', after = between ++ ms' → ms'.length ≤ rest.length ∧
      (pieceLens ms' = rest.map TxPacket.len → Splits os (k + 1) rest)) :
    ms.length ≤ (p :: rest).length ∧
      (pieceLens ms = (p :: rest).map TxPacket.len → Splits os k (p :: rest)) := by
  obtain rfl | ⟨m, rfl, hown⟩ := h
  · -- nothing of this packet: one piece too few
    obtain ⟨hle, -⟩ := ih ms hr
    refine ⟨Nat.le_succ_of_le hle, fun h => ?_⟩
    have hlens := congrArg List.length h
    simp only [pieceLens, List.length_map, List.length_cons] at hlens
    omega
  · obtain ⟨ms', hkept⟩ := hkept
    obtain rfl : ms = m :: ms' := by
      rw [hkept, List.append_assoc] at hr
      exact (List.append_cancel_left hr).symm
    obtain ⟨hle, himp⟩ := ih ms' hkept
    refine ⟨Nat.succ_le_succ hle, fun h => ?_⟩
    simp only [pieceLens, List.map_cons, List.cons.injEq] at h
    obtain ⟨hplain, hlen, hclone⟩ := hown h.1
    exact splits_cons.mpr ⟨hplain, hlen, fun _ => hmiddle hplain hlen, hclone, himp h.2⟩

/-- **The loop hands up at most a piece for each packet, and pieces of the packets' own
lengths only if it gets them through whole.** -/
theorem ends_splits {os : Allocs} {b : Body} :
    ∀ (ps : List TxPacket) (o k : Nat) (s : Amsdu) (w : List (BitVec 8)) (r : Amsdu)
      (ms : List Piece), StandsAt b s o → Holds b o w → staAmsduFrameTx none ps = some w →
      s.nMSDU = k → (∀ p ∈ ps, p.len ≤ 3740) →
      Ends (fun n => iterate (amsduLoop os) n s) r → r.handed = s.handed ++ ms →
      ms.length ≤ ps.length ∧ (pieceLens ms = ps.map TxPacket.len → Splits os k ps) := by
  intro ps
  induction ps with
  | nil =>
      intro o k s w r ms hs hw htx _ _ hends hr
      cases htx
      have hzero : s.dataSize = 0 := by
        rw [hs.dataSize, hw.size]
        simp
      obtain rfl := (ends_of_ret (amsduLoop_done hzero)).mp hends
      obtain rfl : ms = [] := List.self_eq_append_right.mp hr
      exact ⟨Nat.le_refl _, fun _ => Splits.nil os k⟩
  | cons p rest ih =>
      intro o k s w r ms hs hw htx hk hlens hends hr
      subst hk
      have htx' := htx
      obtain ⟨hskip, t, rfl, -, -⟩ := staAmsduFrameTx_cons htx'
      have hparts := hw.parts
      obtain ⟨hshut, hopen⟩ := amsduLoop_at os hs
      by_cases hopens : Opens b o
      case neg =>
        -- the loop is over before this packet
        obtain ⟨n, hn⟩ := hshut hopens
        obtain rfl := (ends_of_ret hn).mp hends
        obtain rfl : ms = [] := List.self_eq_append_right.mp hr
        exact ⟨Nat.zero_le _, fun h => by cases h⟩
      have hturn := hopen hopens
      have hs₁ : StandsAt b { s with nMSDU := s.nMSDU + 1 } o := hs.count _
      cases hsub : subFrame os { s with nMSDU := s.nMSDU + 1 } (fieldAt b o) with
      | error e =>
          rw [hsub] at hturn
          exact absurd hends (not_ends_of_fault hturn)
      | ok s' =>
        rw [hsub] at hturn
        dsimp only at hturn
        have hdone := subFrame_done hs₁.pData hsub
        have hf := toNat_subFramePayloadLen hskip (hlens p List.mem_cons_self)
        rw [← hparts.field] at hf
        have hpiece := hdone.piece hskip hf hopens.short
        obtain ⟨hret, -⟩ | ⟨hnext, -⟩ | ⟨hnext, h1528, h32, hgo⟩ :=
          nextSubFrame_cases s' (alignFour (sizeAt b o))
        · obtain rfl := (ends_of_ret (hturn.trans hret)).mp hends
          exact splits_of_last hr hpiece
        · have hlastTurn := (ends_of_next (hturn.trans hnext)).mp hends
          obtain rfl := (ends_of_ret (amsduLoop_done rfl)).mp hlastTurn
          exact splits_of_last hr hpiece
        · have ha : (alignFour (sizeAt b o)).toNat
              = p.subFrame.length + amsduPadding p.subFramePayloadLen :=
            length_padded hparts.field hf hopens.short rfl
          rw [hdone.dataSize] at hgo
          obtain ⟨w', hw', hholds⟩ := hw.next hs htx ha hgo
          have hstands := hs₁.onward hdone.pData hdone.dataSize hdone.size hdone.behind h32
          have hrest := (ends_of_next (hturn.trans hnext)).mp hends
          have hkept := handed_of_ends hrest
          refine splits_of_onward hr hpiece hkept ?_ ?_
          · -- the padded sub-frame is neither too short nor too long
            intro hplain hlen
            rw [hplain.length_padded hlen] at ha
            omega
          · intro ms' hms'
            exact ih _ (s.nMSDU + 1) _ w' r ms' hstands hholds hw' hdone.nMSDU
              (fun q hq => hlens q (List.mem_cons_of_mem p hq)) hrest hms'

/-! ## The batch -/

/-- The total length of a batch, over its first packets `total`, stays below the limit. -/
theorem len_of_mem_takeAggregates {infra : Bool} {hasTxDesc : Nat → Bool} :
    ∀ (queue : List TxPacket) (n total : Nat),
      ∀ q ∈ takeAggregates infra hasTxDesc n total queue, total + q.len ≤ 3740 := by
  intro queue
  induction queue with
  | nil =>
      intro n total q hq
      cases hq
  | cons p rest ih =>
      intro n total q hq
      rw [takeAggregates] at hq
      by_cases htake : (hasTxDesc n && canDoAggregateTransmit infra total p) = true
      · rw [if_pos htake] at hq
        have hroom : total + p.len ≤ 3740 := by
          by_contra hmore
          have hlong : rxBufferAggresize - 100 < total + p.len := by
            show 3840 - 100 < _
            omega
          have hfalse : canDoAggregateTransmit infra total p = false := by
            unfold canDoAggregateTransmit
            simp only [if_pos hlong, ite_self]
          rw [hfalse, Bool.and_false] at htake
          cases htake
        rcases List.mem_cons.mp hq with rfl | hq
        · exact hroom
        · have := ih (n + 1) (total + p.len) q hq
          omega
      · rw [if_neg htake] at hq
        cases hq

theorem len_of_mem_txPacketList {infra : Bool} {hasTxDesc : Nat → Bool} {p : TxPacket}
    {queue : List TxPacket} (hlen : 2 ≤ (txPacketList infra hasTxDesc p queue).length) :
    ∀ q ∈ txPacketList infra hasTxDesc p queue, q.len ≤ 3740 := by
  rw [txPacketList] at hlen ⊢
  have hall : ∀ q ∈ takeAggregates infra hasTxDesc 1 p.len queue, p.len + q.len ≤ 3740 :=
    len_of_mem_takeAggregates queue 1 p.len
  intro q hq
  rcases List.mem_cons.mp hq with rfl | hq
  · -- the first packet leaves room for the second
    obtain ⟨q', hq'⟩ : ∃ q', q' ∈ takeAggregates infra hasTxDesc 1 q.len queue := by
      refine List.exists_mem_of_length_pos ?_
      rw [List.length_cons] at hlen
      omega
    have := hall q' hq'
    omega
  · have := hall q hq
    omega

/-- Packets whose headers are there are laid out. -/
theorem staAmsduFrameTx_of_skipped :
    ∀ (ps : List TxPacket) (prev : Option (BitVec 16)), (∀ p ∈ ps, p.skipped ≤ p.len) →
      ∃ w, staAmsduFrameTx prev ps = some w := by
  intro ps
  induction ps with
  | nil =>
      intro prev _
      exact ⟨[], rfl⟩
  | cons p rest ih =>
      intro prev hall
      obtain ⟨w, hw⟩ := ih (some p.subFramePayloadLen) fun q hq => hall q (List.mem_cons_of_mem p hq)
      have hle := hall p List.mem_cons_self
      simp only [staAmsduFrameTx, if_neg (Nat.not_lt.mpr hle), hw]
      exact ⟨_, rfl⟩

/-- What comes out of a body as it went in has the lengths that went in. -/
theorem pieceLens_of_packets {r : Amsdu} {ps : List TxPacket}
    (h : r.packets = ps.map TxPacket.bytes) : pieceLens r.handed = ps.map TxPacket.len := by
  have hlens := congrArg (List.map List.length) h
  simp only [Amsdu.packets, List.map_map] at hlens
  refine Eq.trans (List.map_congr_left fun m _ => ?_) hlens
  exact (length_slice r.body m.start m.len).symm

theorem RoundTrips.splits {os : Allocs} {ps : List TxPacket} (h : RoundTrips os ps)
    (hlens : ∀ p ∈ ps, p.len ≤ 3740) : Splits os 0 ps := by
  obtain ⟨w, r, htx, hends, hpackets⟩ := h
  have hstart : StandsAt (bodyOf w) (.start (bodyOf w)) 0 := standsAt_start _
  obtain ⟨-, himp⟩ := ends_splits ps 0 0 _ w r r.handed hstart (holds_bodyOf w) htx rfl hlens
    hends rfl
  exact himp (pieceLens_of_packets hpackets)

theorem Splits.roundTrips {os : Allocs} {ps : List TxPacket} (h : Splits os 0 ps) :
    RoundTrips os ps := by
  obtain ⟨w, htx⟩ := staAmsduFrameTx_of_skipped ps none fun p hp => (h.plain p hp).skipped_le
  have hstart : StandsAt (bodyOf w) (.start (bodyOf w)) 0 := standsAt_start _
  obtain ⟨r, ms, hr⟩ := splits_handsUp ps 0 0 _ w hstart (holds_bodyOf w) htx rfl h
  refine ⟨w, r, htx, hr.ends, ?_⟩
  have hhanded : r.handed = ms := hr.handed
  rw [Amsdu.packets, hhanded]
  exact hr.packets

/-- **Packets through an A-MSDU**: of the packets `RTMPDeQueuePacket` puts into one
A-MSDU the receiver makes these packets again exactly when each has an Ethernet type,
no VLAN tag and at most 1510 bytes of payload, all but the last have 7 to 1506, and
every clone is there. -/
theorem amsdu_roundTrips_iff (os : Allocs) (infra : Bool) (hasTxDesc : Nat → Bool) (p : TxPacket)
    (queue : List TxPacket) (hlen : 2 ≤ (txPacketList infra hasTxDesc p queue).length) :
    RoundTrips os (txPacketList infra hasTxDesc p queue) ↔
      Splits os 0 (txPacketList infra hasTxDesc p queue) := by
  constructor
  · intro htrips
    exact htrips.splits (len_of_mem_txPacketList hlen)
  · intro hsplits
    exact hsplits.roundTrips

/-- An IPv4 packet of `n` bytes of payload. -/
def ipPacket (n : Nat) : TxPacket where
  bytes := [0, 1, 2, 3, 4, 5, 6, 7, 8, 9, 10, 11, 8, 0] ++ List.replicate n 0x45#8
  header := by
    rw [List.length_append, List.length_replicate]
    exact Nat.le_add_right 14 n
  mcast := false
  vlan := false
  dhcp := false
  eapol := false
  wai := false

/-- Two packets of 40 and of 3 bytes come through. -/
theorem amsdu_roundTrips_two :
    2 ≤ (txPacketList true (fun _ => true) (ipPacket 40) [ipPacket 3]).length ∧
      RoundTrips allAllocs (txPacketList true (fun _ => true) (ipPacket 40) [ipPacket 3]) := by
  have hlist : txPacketList true (fun _ => true) (ipPacket 40) [ipPacket 3]
      = [ipPacket 40, ipPacket 3] := rfl
  have hlen : 2 ≤ (txPacketList true (fun _ => true) (ipPacket 40) [ipPacket 3]).length := by
    rw [hlist]
    exact Nat.le_refl 2
  refine ⟨hlen, (amsdu_roundTrips_iff allAllocs true (fun _ => true) _ _ hlen).mpr ?_⟩
  rw [hlist, splits_cons, splits_cons]
  have hplain : ∀ n, (ipPacket n).Plain := fun n => ⟨rfl, by
    show 1500 < beWord [8, 0]
    decide⟩
  exact ⟨hplain 40, by decide, fun _ => by decide, rfl, hplain 3, by decide,
    fun hne => absurd rfl hne, rfl, .nil _ _⟩

/-- **A short packet in front** cuts off the one behind it. -/
theorem amsdu_cut_off :
    ¬ ∀ (os : Allocs) (infra : Bool) (hasTxDesc : Nat → Bool) (p : TxPacket)
      (queue : List TxPacket), 2 ≤ (txPacketList infra hasTxDesc p queue).length →
      RoundTrips os (txPacketList infra hasTxDesc p queue) := by
  intro h
  have htrips := h allAllocs true (fun _ => true) (ipPacket 6) [ipPacket 40] (Nat.le_refl 2)
  have hsplits := htrips.splits (len_of_mem_txPacketList (Nat.le_refl 2))
  have hmiddle := hsplits.middle (ipPacket 6) (List.mem_singleton.mpr rfl)
  exact absurd hmiddle.1 (by decide)

end ExtDrv.Rt3370
