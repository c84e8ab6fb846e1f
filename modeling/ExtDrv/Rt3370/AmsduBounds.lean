import ExtDrv.Rt3370.Amsdu

/-!
# Bounds of the de-aggregation

Where the sub-frames of a body start follows from its bytes alone: `Reaches`.
`Fits` is what such a sub-frame has to satisfy for the driver to stay inside the
body and inside the sub-frame; `deaggregate_in_bounds_iff` says that this is
exact.
-/

namespace ExtDrv.Rt3370

open Loop Memory

/-! ## Sub-frames -/

/-- The length field of the sub-frame at `o`. -/
def fieldAt (b : Body) (o : Nat) : BitVec 16 := payloadField (b.slice (o + 2 * macAddrLen) 2)

/-- The size of the sub-frame at `o`, an unsigned short. -/
def sizeAt (b : Body) (o : Nat) : BitVec 16 := fieldAt b o + BitVec.ofNat 16 length8023

/-- There is a sub-frame at `o`: its header and the length it gives are there, and
it is not too long. -/
structure Opens (b : Body) (o : Nat) : Prop where
  header : length8023 < b.size - o
  there : (sizeAt b o).toNat ≤ b.size - o
  short : (fieldAt b o).toNat ≤ 1518

/-- What follows the header at `o` looks like an LLC/SNAP header. -/
def LooksSnap (b : Body) (o : Nat) : Prop :=
  b.slice (o + length8023) 6 = snap8021H ∨ b.slice (o + length8023) 6 = snapBridgeTunnel

/-- The LLC/SNAP header at `o` is left where it is: IPX or AppleTalk. -/
def KeepsSnap (b : Body) (o : Nat) : Prop :=
  (b.slice (o + length8023 + 6) 2 = ipx ∨ b.slice (o + length8023 + 6) 2 = appleTalk)
    ∧ b.slice (o + length8023) 6 = snap8021H

/-- The bytes that are looked at are there, and a payload whose LLC/SNAP header is
removed has one. -/
structure Fits (b : Body) (o : Nat) : Prop where
  compared : o + length8023 + 6 ≤ b.size
  protocol : LooksSnap b o → o + length8023 + 8 ≤ b.size
  payload : LooksSnap b o → ¬ KeepsSnap b o → length8021H ≤ (fieldAt b o).toNat

/-- Where the sub-frame after the one at `o` starts, if the loop goes on. -/
def nextAt (b : Body) (o : Nat) : Option Nat :=
  let a := (alignFour (sizeAt b o)).toNat
  if 1528 < a ∨ a < 32 then none else if a < b.size - o then some (o + a) else none

/-- The places where the loop looks for a sub-frame. -/
inductive Reaches (b : Body) : Nat → Prop where
  | first : Reaches b 0
  | next {o o' : Nat} : Reaches b o → Opens b o → nextAt b o = some o' → Reaches b o'

/-- The bytes of `m` are bytes of its sub-frame's payload. -/
def Piece.InPayload (m : Piece) : Prop :=
  m.frame + length8023 ≤ m.start ∧ m.start + m.len ≤ m.frame + length8023 + m.field

/-- The bytes of `m` lie in its sub-frame, and its length did not wrap. -/
def Piece.InFrame (m : Piece) : Prop :=
  m.frame ≤ m.start ∧ m.start + m.len ≤ m.frame + length8023 + m.field ∧ m.payload ≤ m.field

/-- Whatever allocations fail, the loop reads and writes inside the body, ends, and
lets nothing out but bytes of the sub-frame they come from. -/
def StaysInBounds (b : Body) : Prop :=
  ∀ os, Safe (deaggregateAmsduAnnounce os b) ∧
    ∃ r, Ends (deaggregateAmsduAnnounce os b) r
      ∧ (∀ m ∈ r.eapol, m.InPayload) ∧ ∀ m ∈ r.handed, m.InFrame

/-! ## The conversion -/

@[simp] theorem length_slice (b : Body) (o n : Nat) : (b.slice o n).length = n := by
  simp [Body.slice]

theorem read_of_le {b : Body} {o n : Nat} (h : o + n ≤ b.size) : b.read o n = .ok (b.slice o n) :=
  if_pos h

theorem read_of_lt {b : Body} {o n : Nat} (h : b.size < o + n) :
    b.read o n = .error (.read o n) :=
  if_neg (Nat.not_le.mpr h)

theorem ndisEqualMemory_of_le {b : Body} {o : Nat} {bs : List (BitVec 8)}
    (h : o + bs.length ≤ b.size) :
    ndisEqualMemory b o bs = .ok (b.slice o bs.length == bs) := by
  rw [ndisEqualMemory, read_of_le h]
  rfl

/-- The header is fourteen bytes, the last two the given ones. -/
theorem make8023Header_at {b : Body} {pDA pSA : Nat} (hda : pDA + 6 ≤ b.size)
    (hsa : pSA + 6 ≤ b.size) (type : List (BitVec 8)) :
    make8023Header b pDA pSA type = .ok (b.slice pDA 6 ++ b.slice pSA 6 ++ type) := by
  rw [make8023Header, read_of_le hda, read_of_le hsa]
  rfl

/-- The sub-frame at `o` loses its LLC/SNAP header. -/
def Removes (b : Body) (o : Nat) : Prop := LooksSnap b o ∧ ¬ KeepsSnap b o

theorem ndisEqualMemory_bind {b : Body} {o : Nat} {bs : List (BitVec 8)} {α : Type}
    (k : Bool → Except BodyFault α) :
    (ndisEqualMemory b o bs >>= k)
      = if o + bs.length ≤ b.size then k (decide (b.slice o bs.length = bs))
        else .error (.read o bs.length) := by
  by_cases h : o + bs.length ≤ b.size
  · rw [ndisEqualMemory_of_le h, if_pos h, beq_eq_decide]
    rfl
  · rw [if_neg h, ndisEqualMemory, read_of_lt (Nat.not_le.mp h)]
    rfl

theorem read_bind {b : Body} {o n : Nat} {α : Type} (k : List (BitVec 8) → Except BodyFault α) :
    (b.read o n >>= k) = if o + n ≤ b.size then k (b.slice o n) else .error (.read o n) := by
  by_cases h : o + n ≤ b.size
  · rw [read_of_le h, if_pos h]
    rfl
  · rw [if_neg h, read_of_lt (Nat.not_le.mp h)]
    rfl

theorem looksSnap_iff {b : Body} {o : Nat} :
    (decide (b.slice (o + length8023) snap8021H.length = snap8021H)
      || decide (b.slice (o + length8023) snapBridgeTunnel.length = snapBridgeTunnel)) = true
      ↔ LooksSnap b o := by
  rw [Bool.or_eq_true, decide_eq_true_iff, decide_eq_true_iff]
  exact Iff.rfl

theorem keepsSnap_iff {b : Body} {o : Nat} :
    ((decide (b.slice (o + length8023 + 6) ipx.length = ipx)
      || decide (b.slice (o + length8023 + 6) appleTalk.length = appleTalk))
      && decide (b.slice (o + length8023) snap8021H.length = snap8021H)) = true
      ↔ KeepsSnap b o := by
  rw [Bool.and_eq_true, Bool.or_eq_true, decide_eq_true_iff, decide_eq_true_iff,
    decide_eq_true_iff]
  exact Iff.rfl

/-- What the conversion leaves of a payload whose LLC/SNAP header it removes. -/
abbrev withoutSnap (hdr : List (BitVec 8)) (o : Nat) (p : BitVec 16) : Converted :=
  ⟨hdr, o + length8023 + length8021H, p - BitVec.ofNat 16 length8021H, true⟩

/-- The conversion by cases, its bytes and the addresses being there. -/
theorem convertTo8023_cases {b : Body} {o : Nat} (pDA pSA : Nat) (hda : pDA + 6 ≤ b.size)
    (hsa : pSA + 6 ≤ b.size) (hcmp : o + 20 ≤ b.size) (hproto : LooksSnap b o → o + 22 ≤ b.size)
    (p : BitVec 16) :
    (Removes b o → convertTo8023 b pDA pSA (o + length8023) p
      = .ok (withoutSnap (b.slice pDA 6 ++ b.slice pSA 6 ++ b.slice (o + 20) 2) o p)) ∧
    (¬ Removes b o → convertTo8023 b pDA pSA (o + length8023) p
      = .ok ⟨b.slice pDA 6 ++ b.slice pSA 6 ++ llcLen p, o + length8023, p, false⟩) := by
  have hmake := make8023Header_at hda hsa
  have hread1 : o + length8023 + snap8021H.length ≤ b.size := hcmp
  have hread2 : o + length8023 + snapBridgeTunnel.length ≤ b.size := hcmp
  unfold convertTo8023
  simp only [ndisEqualMemory_bind, if_pos hread1, if_pos hread2]
  by_cases hlooks : LooksSnap b o
  case neg =>
    rw [if_neg (mt looksSnap_iff.mp hlooks), hmake]
    exact ⟨fun h => absurd h.1 hlooks, fun _ => rfl⟩
  have hread3 : o + length8023 + 6 + ipx.length ≤ b.size := hproto hlooks
  have hread4 : o + length8023 + 6 + appleTalk.length ≤ b.size := hproto hlooks
  have hread5 : o + length8023 + 6 + 2 ≤ b.size := hproto hlooks
  rw [if_pos (looksSnap_iff.mpr hlooks), if_pos hread3, if_pos hread4]
  by_cases hkeeps : KeepsSnap b o
  · rw [if_pos (keepsSnap_iff.mpr hkeeps), hmake]
    exact ⟨fun h => absurd hkeeps h.2, fun _ => rfl⟩
  · rw [if_neg (mt keepsSnap_iff.mp hkeeps), read_bind, if_pos hread5, hmake]
    exact ⟨fun _ => rfl, fun h => absurd ⟨hlooks, hkeeps⟩ h⟩

/-- A sub-frame has the addresses in front. -/
theorem convertTo8023_of_le {b : Body} {o : Nat} (hcmp : o + 20 ≤ b.size)
    (hproto : LooksSnap b o → o + 22 ≤ b.size) (p : BitVec 16) :
    ∃ hdr : List (BitVec 8), hdr.length = 14 ∧
      (Removes b o → convertTo8023 b o (o + macAddrLen) (o + length8023) p
        = .ok (withoutSnap hdr o p)) ∧
      (¬ Removes b o → convertTo8023 b o (o + macAddrLen) (o + length8023) p
          = .ok ⟨hdr, o + length8023, p, false⟩ ∧ hdr.getD 12 0 = (p >>> 8).setWidth 8) := by
  have hsa : o + macAddrLen + 6 ≤ b.size := by show o + 6 + 6 ≤ _; omega
  obtain ⟨hremoved, hplain⟩ :=
    convertTo8023_cases o (o + macAddrLen) (by omega) hsa hcmp hproto p
  by_cases hr : Removes b o
  · exact ⟨_, by simp, hremoved, fun h => absurd hr h⟩
  · exact ⟨_, by simp [llcLen], fun h => absurd h hr, fun h => ⟨hplain h, rfl⟩⟩

/-- Without these bytes the conversion reads past the end. -/
theorem convertTo8023_fault {b : Body} {o : Nat} (p : BitVec 16)
    (h : ¬ (o + 20 ≤ b.size ∧ (LooksSnap b o → o + 22 ≤ b.size))) :
    ∃ e, convertTo8023 b o (o + macAddrLen) (o + length8023) p = .error e := by
  unfold convertTo8023
  simp only [ndisEqualMemory_bind]
  by_cases hcmp : o + 20 ≤ b.size
  · have hread1 : o + length8023 + snap8021H.length ≤ b.size := hcmp
    have hread2 : o + length8023 + snapBridgeTunnel.length ≤ b.size := hcmp
    have hlooks : LooksSnap b o := by
      by_contra hno
      exact h ⟨hcmp, fun hl => absurd hl hno⟩
    have hshort : ¬ o + length8023 + 6 + ipx.length ≤ b.size := fun hle => h ⟨hcmp, fun _ => hle⟩
    rw [if_pos hread1, if_pos hread2, if_pos (looksSnap_iff.mpr hlooks), if_neg hshort]
    exact ⟨_, rfl⟩
  · have hshort : ¬ o + length8023 + snap8021H.length ≤ b.size := hcmp
    rw [if_neg hshort]
    exact ⟨_, rfl⟩

/-! ## One turn -/

/-- The loop stands at `o`: nothing from there on has been written over. -/
structure StandsAt (b : Body) (s : Amsdu) (o : Nat) : Prop where
  pData : s.pData = o
  dataSize : s.dataSize = b.size - o
  size : s.body.size = b.size
  same : ∀ i, o ≤ i → s.body.byte i = b.byte i

theorem StandsAt.slice {b : Body} {s : Amsdu} {o : Nat} (h : StandsAt b s o) {k : Nat}
    (hk : o ≤ k) (n : Nat) : s.body.slice k n = b.slice k n := by
  refine segment_congr fun i _ => ?_
  exact h.same _ (Nat.le_add_right_of_le hk)

theorem StandsAt.removes {b : Body} {s : Amsdu} {o : Nat} (h : StandsAt b s o) :
    (LooksSnap s.body o ↔ LooksSnap b o) ∧ (Removes s.body o ↔ Removes b o) := by
  have h14 := h.slice (Nat.le_add_right o length8023) 6
  have h20 := h.slice (show o ≤ o + length8023 + 6 by omega) 2
  simp only [Removes, LooksSnap, KeepsSnap, h14, h20, and_self]

/-- The sub-frame at `o` has been dealt with: what left the loop is all right, and
nothing behind the sub-frame's first 22 bytes has been written. -/
structure Dealt (b : Body) (s s' : Amsdu) (o : Nat) : Prop where
  pData : s'.pData = s.pData
  dataSize : s'.dataSize = s.dataSize
  size : s'.body.size = b.size
  same : ∀ i, o + 22 ≤ i → s'.body.byte i = b.byte i
  eapol : ∃ ms, s'.eapol = s.eapol ++ ms ∧ ∀ m ∈ ms, m.InPayload
  handed : ∃ ms, s'.handed = s.handed ++ ms ∧ ∀ m ∈ ms, m.InFrame

theorem StandsAt.dealt {b : Body} {s : Amsdu} {o : Nat} (h : StandsAt b s o) : Dealt b s s o where
  pData := rfl
  dataSize := rfl
  size := h.size
  same i hi := h.same i (by omega)
  eapol := ⟨[], by simp⟩
  handed := ⟨[], by simp⟩

theorem Dealt.clonePacket {b : Body} {s s' : Amsdu} {o : Nat} (h : Dealt b s s' o) (os : Allocs)
    (field : BitVec 16) (c : Converted) (start : Nat) (len : BitVec 16)
    (hm : Piece.InFrame ⟨s'.pData, field.toNat, start, len.toNat, c.payloadSize.toNat⟩) :
    Dealt b s (clonePacket os s' field c start len) o := by
  unfold Rt3370.clonePacket
  split_ifs
  · obtain ⟨ms, hms, hall⟩ := h.handed
    refine { h with handed := ⟨ms ++ [⟨s'.pData, field.toNat, start, len.toNat,
      c.payloadSize.toNat⟩], by rw [← List.append_assoc, ← hms], fun m hmem => ?_⟩ }
    rcases List.mem_append.mp hmem with hold | hnew
    · exact hall m hold
    · rw [List.mem_singleton.mp hnew]
      exact hm
  · exact h

/-- The size of the sub-frame at `o` is what its length field says and the header. -/
theorem Opens.sizeAt_eq {b : Body} {o : Nat} (ho : Opens b o) :
    (sizeAt b o).toNat = (fieldAt b o).toNat + 14 := by
  have hshort := ho.short
  rw [sizeAt, BitVec.toNat_add, BitVec.toNat_ofNat]
  show ((fieldAt b o).toNat + 14 % 2 ^ 16) % 2 ^ 16 = _
  omega

/-- A payload the conversion leaves alone goes up as it is, and is never EAPOL: its
type is its length. -/
theorem subFrame_plain {b : Body} {s : Amsdu} {o : Nat} (os : Allocs) (hs : StandsAt b s o)
    (ho : Opens b o) (hf : Fits b o) (hr : ¬ Removes b o) :
    ∃ s', subFrame os s (fieldAt b o) = .ok s' ∧ Dealt b s s' o := by
  obtain ⟨hlooks, hremoves⟩ := hs.removes
  obtain ⟨hdr, -, -, hplain⟩ := convertTo8023_of_le (b := s.body) (o := o)
    (hs.size.symm ▸ hf.compared) (fun h => hs.size.symm ▸ hf.protocol (hlooks.mp h)) (fieldAt b o)
  obtain ⟨hconv, htype⟩ := hplain (mt hremoves.mp hr)
  -- the high byte of a length of at most 1518
  have hnot : ¬ (hdr.getD 12 0 = 0x88#8 ∧ hdr.getD 13 0 = 0x8E#8 ∧ os.elem s.nMSDU = true) := by
    rintro ⟨h12, -⟩
    rw [htype] at h12
    have hshort := ho.short
    have := congrArg BitVec.toNat h12
    simp [Nat.shiftRight_eq_div_pow] at this
    omega
  refine ⟨clonePacket os s (fieldAt b o) ⟨hdr, o + length8023, fieldAt b o, false⟩
    (o + length8023) (fieldAt b o), ?_, ?_⟩
  · rw [subFrame, hs.pData, hconv]
    simp only [bind, Except.bind, copyEapol, if_neg hnot, restoreHeader, pure, Except.pure,
      Bool.false_eq_true, if_false]
  · refine hs.dealt.clonePacket os _ _ _ _ ⟨?_, ?_, le_refl _⟩
    · rw [hs.pData]
      exact Nat.le_add_right o length8023
    · rw [hs.pData]

/-- The bytes a copy into an EAPOL element takes are there, and have room in it. -/
theorem copyEapol_dealt {b : Body} {s : Amsdu} {o : Nat} (os : Allocs) (hs : StandsAt b s o)
    (ho : Opens b o) {c : Converted} (hstart : c.pPayload = o + 22)
    (hlen : c.payloadSize.toNat + 8 = (fieldAt b o).toNat) :
    ∃ s', copyEapol os s (fieldAt b o) c = .ok s' ∧ Dealt b s s' o := by
  have hsize := ho.sizeAt_eq
  have hthere := ho.there
  have hshort := ho.short
  have hle : c.pPayload + c.payloadSize.toNat ≤ s.body.size := by
    rw [hs.size]
    omega
  have hroom : length80211 + length8021H + c.payloadSize.toNat ≤ mgmtDmaBufferSize := by
    show 24 + 8 + _ ≤ 1600
    omega
  unfold copyEapol
  rw [read_bind, if_pos hle, if_pos hroom]
  split_ifs
  · refine ⟨_, rfl, { hs.dealt with eapol := ⟨[_], rfl, fun m hm => ?_⟩ }⟩
    rw [List.mem_singleton.mp hm, hs.pData]
    constructor
    · show o + 14 ≤ c.pPayload
      omega
    · show c.pPayload + c.payloadSize.toNat ≤ o + 14 + (fieldAt b o).toNat
      omega
  · exact ⟨s, rfl, hs.dealt⟩

/-- Putting the header back writes fourteen bytes. -/
theorem restoreHeader_removed (s : Amsdu) {hdr : List (BitVec 8)} {o k : Nat} {p : BitVec 16}
    (hk : k - length8023 = o) (hwrite : o + hdr.length ≤ s.body.size) :
    restoreHeader s ⟨hdr, k, p, true⟩
      = .ok (o, p + BitVec.ofNat 16 length8023,
        { s with body := { s.body with byte := store s.body.byte o hdr } }) := by
  unfold restoreHeader
  rw [if_pos rfl, hk, Body.write, if_pos hwrite]
  rfl

theorem Dealt.restore {b : Body} {s s' : Amsdu} {o : Nat} (h : Dealt b s s' o)
    {hdr : List (BitVec 8)} (hlen : hdr.length = 14) :
    Dealt b s { s' with body := { s'.body with byte := store s'.body.byte (o + 8) hdr } } o where
  pData := h.pData
  dataSize := h.dataSize
  size := h.size
  same i hi := by
    have hbehind : ¬ (o + 8 ≤ i ∧ i < o + 8 + hdr.length) := by omega
    exact (if_neg hbehind).trans (h.same i hi)
  eapol := h.eapol
  handed := h.handed

/-- **A payload without its LLC/SNAP header**: the new header goes in front of it,
inside the sub-frame. -/
theorem subFrame_removed {b : Body} {s : Amsdu} {o : Nat} (os : Allocs) (hs : StandsAt b s o)
    (ho : Opens b o) (hf : Fits b o) (hr : Removes b o) :
    ∃ s', subFrame os s (fieldAt b o) = .ok s' ∧ Dealt b s s' o := by
  obtain ⟨hlooks, hremoves⟩ := hs.removes
  obtain ⟨hdr, hhdr, hremoved, -⟩ := convertTo8023_of_le (b := s.body) (o := o)
    (hs.size.symm ▸ hf.compared) (fun h => hs.size.symm ▸ hf.protocol (hlooks.mp h)) (fieldAt b o)
  have hconv := hremoved (hremoves.mpr hr)
  have hpay : 8 ≤ (fieldAt b o).toNat := hf.payload hr.1 hr.2
  have hlt := (fieldAt b o).isLt
  have hlen : (fieldAt b o - BitVec.ofNat 16 length8021H).toNat + 8 = (fieldAt b o).toNat := by
    rw [BitVec.toNat_sub, BitVec.toNat_ofNat]
    show (2 ^ 16 - 8 % 2 ^ 16 + (fieldAt b o).toNat) % 2 ^ 16 + 8 = _
    omega
  obtain ⟨s₁, hcopy, hd₁⟩ := copyEapol_dealt os hs ho
    (c := withoutSnap hdr o (fieldAt b o)) rfl
    hlen
  have hstart : o + length8023 + length8021H - length8023 = o + 8 := by
    show o + 14 + 8 - 14 = _
    omega
  have hwrite : o + 8 + hdr.length ≤ s₁.body.size := by
    have hproto : o + 14 + 8 ≤ b.size := hf.protocol hr.1
    rw [hd₁.size, hhdr]
    omega
  have hback : (fieldAt b o - BitVec.ofNat 16 length8021H + BitVec.ofNat 16 length8023).toNat + 2
      = (fieldAt b o).toNat + 8 := by
    have hshort := ho.short
    rw [BitVec.toNat_add, BitVec.toNat_ofNat]
    show (_ + 14 % 2 ^ 16) % 2 ^ 16 + 2 = _
    omega
  have hbody := restoreHeader_removed s₁ (p := fieldAt b o - BitVec.ofNat 16 length8021H) hstart hwrite
  have hd₂ := (hd₁.restore hhdr).clonePacket os (fieldAt b o)
    (withoutSnap hdr o (fieldAt b o)) (o + 8)
    (fieldAt b o - BitVec.ofNat 16 length8021H + BitVec.ofNat 16 length8023) ?_
  · refine ⟨_, ?_, hd₂⟩
    rw [subFrame, hs.pData, hconv]
    simp only [bind, Except.bind, hcopy, hbody, pure, Except.pure]
  · have hat : s₁.pData = o := hd₁.pData.trans hs.pData
    refine ⟨?_, ?_, ?_⟩
    · show s₁.pData ≤ o + 8
      omega
    · show o + 8 + (fieldAt b o - BitVec.ofNat 16 length8021H + BitVec.ofNat 16 length8023).toNat
        ≤ s₁.pData + 14 + (fieldAt b o).toNat
      omega
    · show (fieldAt b o - BitVec.ofNat 16 length8021H).toNat ≤ (fieldAt b o).toNat
      omega

/-- A sub-frame that fits is dealt with. -/
theorem subFrame_fits {b : Body} {s : Amsdu} {o : Nat} (os : Allocs) (hs : StandsAt b s o)
    (ho : Opens b o) (hf : Fits b o) :
    ∃ s', subFrame os s (fieldAt b o) = .ok s' ∧ Dealt b s s' o := by
  by_cases hr : Removes b o
  · exact subFrame_removed os hs ho hf hr
  · exact subFrame_plain os hs ho hf hr

/-! ## Sub-frames that do not fit -/

/-- Every allocation succeeds. -/
def allAllocs : Allocs := ⟨fun _ => true, fun _ => true⟩

theorem bind_eq_ok {α β : Type} {x : Except BodyFault α} {k : α → Except BodyFault β} {r : β}
    (h : x >>= k = .ok r) : ∃ a, x = .ok a ∧ k a = .ok r := by
  cases x with
  | error e => cases h
  | ok a => exact ⟨a, rfl, h⟩

/-- A sub-frame handed up is one piece more; nothing is taken back. -/
theorem subFrame_handed {os : Allocs} {s s' : Amsdu} {p : BitVec 16}
    (h : subFrame os s p = .ok s') : ∃ ms, s'.handed = s.handed ++ ms := by
  obtain ⟨c, -, h⟩ := bind_eq_ok h
  obtain ⟨s₁, hcopy, h⟩ := bind_eq_ok h
  obtain ⟨⟨start, len, s₂⟩, hrestore, h⟩ := bind_eq_ok h
  have h₁ : s₁.handed = s.handed := by
    unfold copyEapol at hcopy
    split at hcopy
    · obtain ⟨-, -, hcopy⟩ := bind_eq_ok hcopy
      split at hcopy
      · cases hcopy
        rfl
      · cases hcopy
    · cases hcopy
      rfl
  have h₂ : s₂.handed = s₁.handed := by
    unfold restoreHeader at hrestore
    split at hrestore
    · obtain ⟨body, -, hrestore⟩ := bind_eq_ok hrestore
      cases hrestore
      rfl
    · cases hrestore
      rfl
  cases h
  unfold clonePacket
  split
  · exact ⟨[_], by rw [← h₁, ← h₂]⟩
  · exact ⟨[], by rw [h₂, h₁, List.append_nil]⟩

/-- What a sub-frame does behind its conversion. -/
theorem subFrame_of_conv {s : Amsdu} {p : BitVec 16} {c : Converted}
    (hconv : convertTo8023 s.body s.pData (s.pData + macAddrLen) (s.pData + length8023) p = .ok c) :
    subFrame allAllocs s p = copyEapol allAllocs s p c >>= fun s₁ =>
      restoreHeader s₁ c >>= fun r => pure (clonePacket allAllocs r.2.2 p c r.1 r.2.1) := by
  rw [subFrame, hconv]
  rfl

/-- A length below that of the header which is taken off it wraps. -/
theorem payload_wraps {p : BitVec 16} (h : p.toNat < 8) :
    (p - BitVec.ofNat 16 length8021H).toNat = p.toNat + 65528 := by
  rw [BitVec.toNat_sub, BitVec.toNat_ofNat]
  show (2 ^ 16 - 8 % 2 ^ 16 + p.toNat) % 2 ^ 16 = _
  omega

/-- Of an EAPOL frame, more than an element holds is copied then. -/
theorem copyEapol_wrapped {s : Amsdu} {o : Nat} {p : BitVec 16} {hdr : List (BitVec 8)}
    (hp : p.toNat < 8) (heapol : hdr.getD 12 0 = 0x88#8 ∧ hdr.getD 13 0 = 0x8E#8) :
    ∃ e, copyEapol allAllocs s p (withoutSnap hdr o p) = .error e := by
  have hbig : ¬ length80211 + length8021H + (p - BitVec.ofNat 16 length8021H).toNat
      ≤ mgmtDmaBufferSize := by
    rw [payload_wraps hp]
    show ¬ 24 + 8 + _ ≤ 1600
    omega
  rw [copyEapol, if_pos ⟨heapol.1, heapol.2, rfl⟩, read_bind, if_neg hbig]
  split_ifs <;> exact ⟨_, rfl⟩

/-- Any other is handed up with a length that has wrapped. -/
theorem subFrame_wrapped {s : Amsdu} {p : BitVec 16} {hdr : List (BitVec 8)} (hp : p.toNat < 8)
    (hhdr : hdr.length = 14) (hsize : s.pData + 22 ≤ s.body.size)
    (heapol : ¬ (hdr.getD 12 0 = 0x88#8 ∧ hdr.getD 13 0 = 0x8E#8))
    (hsub : subFrame allAllocs s p = copyEapol allAllocs s p (withoutSnap hdr s.pData p) >>=
      fun s₁ => restoreHeader s₁ (withoutSnap hdr s.pData p) >>= fun r =>
        pure (clonePacket allAllocs r.2.2 p (withoutSnap hdr s.pData p) r.1 r.2.1)) :
    ∃ s', subFrame allAllocs s p = .ok s' ∧ ∃ m ∈ s'.handed, ¬ m.InFrame := by
  have hno : ¬ (hdr.getD 12 0 = 0x88#8 ∧ hdr.getD 13 0 = 0x8E#8 ∧ true = true) :=
    fun h => heapol ⟨h.1, h.2.1⟩
  have hstart : s.pData + length8023 + length8021H - length8023 = s.pData + 8 := by
    show s.pData + 14 + 8 - 14 = _
    omega
  have hwrite : s.pData + 8 + hdr.length ≤ s.body.size := by
    rwa [hhdr]
  have hcopy : copyEapol allAllocs s p (withoutSnap hdr s.pData p) = .ok s := if_neg hno
  have hbody := restoreHeader_removed s (p := p - BitVec.ofNat 16 length8021H) hstart hwrite
  rw [hcopy] at hsub
  simp only [bind, Except.bind, hbody, pure, Except.pure] at hsub
  refine ⟨_, hsub, ⟨s.pData, p.toNat, s.pData + 8,
    (p - BitVec.ofNat 16 length8021H + BitVec.ofNat 16 length8023).toNat,
    (p - BitVec.ofNat 16 length8021H).toNat⟩, ?_, ?_⟩
  · exact List.mem_append_right s.handed (List.mem_singleton_self _)
  · rintro ⟨-, -, hle⟩
    have hle : (p - BitVec.ofNat 16 length8021H).toNat ≤ p.toNat := hle
    have hwrap := payload_wraps hp
    omega

/-- **A sub-frame that does not fit** is the end of it: the driver leaves the body or
the element, or hands up a length that has wrapped. -/
theorem subFrame_unfit {b : Body} {s : Amsdu} {o : Nat} (hs : StandsAt b s o)
    (hf : ¬ Fits b o) :
    (∃ e, subFrame allAllocs s (fieldAt b o) = .error e) ∨
      ∃ s', subFrame allAllocs s (fieldAt b o) = .ok s' ∧ ∃ m ∈ s'.handed, ¬ m.InFrame := by
  obtain rfl := hs.pData
  obtain ⟨hlooks, hremoves⟩ := hs.removes
  by_cases hreads : s.pData + 20 ≤ b.size ∧ (LooksSnap b s.pData → s.pData + 22 ≤ b.size)
  case neg =>
    obtain ⟨e, he⟩ := convertTo8023_fault (b := s.body) (o := s.pData) (fieldAt b s.pData)
      (by rwa [hs.size, hlooks])
    refine .inl ⟨e, ?_⟩
    rw [subFrame, he]
    rfl
  have hr : Removes b s.pData := by
    by_contra hr
    refine hf ⟨hreads.1, hreads.2, fun hl hk => absurd ⟨hl, hk⟩ hr⟩
  have hpay : (fieldAt b s.pData).toNat < 8 := by
    by_contra hge
    exact hf ⟨hreads.1, hreads.2, fun _ _ => Nat.not_lt.mp hge⟩
  obtain ⟨hdr, hhdr, hremoved, -⟩ := convertTo8023_of_le (b := s.body) (o := s.pData)
    (hs.size.symm ▸ hreads.1) (fun h => hs.size.symm ▸ hreads.2 (hlooks.mp h)) (fieldAt b s.pData)
  have hconv := hremoved (hremoves.mpr hr)
  have hsub := subFrame_of_conv hconv
  by_cases heapol : hdr.getD 12 0 = 0x88#8 ∧ hdr.getD 13 0 = 0x8E#8
  · obtain ⟨e, he⟩ := copyEapol_wrapped (s := s) (o := s.pData) hpay heapol
    rw [he] at hsub
    exact .inl ⟨e, hsub⟩
  · right
    exact subFrame_wrapped hpay hhdr (by rw [hs.size]; exact hreads.2 hr.1) heapol hsub

/-! ## The loop -/

/-- The loop as turns. -/
def amsduLoop (os : Allocs) (s : Amsdu) : Turn Amsdu Amsdu BodyFault := asTurn (amsduTurn os s)

/-- The turn at a place: it ends the loop where no sub-frame opens, and else deals
with the sub-frame. -/
theorem amsduLoop_at {b : Body} {s : Amsdu} {o : Nat} (os : Allocs) (hs : StandsAt b s o) :
    (¬ Opens b o → ∃ n, amsduLoop os s = .ret { s with nMSDU := n }) ∧
      (Opens b o → amsduLoop os s
        = match subFrame os { s with nMSDU := s.nMSDU + 1 } (fieldAt b o) with
          | .ok s' => nextSubFrame s' (alignFour (sizeAt b o))
          | .error e => .fault e) := by
  have hpos := hs.pData
  have hsize := hs.dataSize
  by_cases hhdr : s.dataSize ≤ length8023
  · have hret : amsduLoop os s = .ret s := by
      rw [amsduLoop, amsduTurn, if_pos hhdr]
      rfl
    refine ⟨fun _ => ⟨s.nMSDU, hret⟩, fun ho => ?_⟩
    have := ho.header
    omega
  have hread : s.pData + 2 * macAddrLen + 2 ≤ s.body.size := by
    have : ¬ s.dataSize ≤ 14 := hhdr
    rw [hs.size]
    show s.pData + 2 * 6 + 2 ≤ _
    omega
  have hfield : payloadField (s.body.slice (s.pData + 2 * macAddrLen) 2) = fieldAt b o := by
    rw [hpos, hs.slice (Nat.le_add_right o (2 * macAddrLen))]
    rfl
  have hturn : amsduTurn os s = if s.dataSize < (sizeAt b o).toNat ∨ 1518 < (fieldAt b o).toNat
      then .ok (.ret { s with nMSDU := s.nMSDU + 1 })
      else subFrame os { s with nMSDU := s.nMSDU + 1 } (fieldAt b o) >>= fun s' =>
        .ok (nextSubFrame s' (alignFour (sizeAt b o))) := by
    rw [amsduTurn, if_neg hhdr]
    simp only [read_bind, if_pos hread, hfield]
    rfl
  constructor
  · intro ho
    have hbreak : s.dataSize < (sizeAt b o).toNat ∨ 1518 < (fieldAt b o).toNat := by
      by_contra hno
      rw [not_or, Nat.not_lt, Nat.not_lt, hsize] at hno
      exact ho ⟨by rw [← hsize]; exact Nat.not_le.mp hhdr, hno.1, hno.2⟩
    rw [amsduLoop, hturn, if_pos hbreak]
    exact ⟨_, rfl⟩
  · intro ho
    have hgo : ¬ (s.dataSize < (sizeAt b o).toNat ∨ 1518 < (fieldAt b o).toNat) := by
      rw [hsize]
      exact not_or.mpr ⟨Nat.not_lt.mpr ho.there, Nat.not_lt.mpr ho.short⟩
    rw [amsduLoop, hturn, if_neg hgo]
    cases subFrame os { s with nMSDU := s.nMSDU + 1 } (fieldAt b o) <;> rfl

/-- Behind a sub-frame that was dealt with, the loop stands at the next one, or is
over. -/
theorem nextSubFrame_at {b : Body} {s s' : Amsdu} {o : Nat} (hs : StandsAt b s o)
    (hd : Dealt b s s' o) :
    (∃ o' t, nextAt b o = some o' ∧ nextSubFrame s' (alignFour (sizeAt b o)) = .next t ∧
        StandsAt b t o' ∧ t.eapol = s'.eapol ∧ t.handed = s'.handed ∧ t.dataSize < s.dataSize) ∨
      (nextAt b o = none ∧ (nextSubFrame s' (alignFour (sizeAt b o)) = .ret s' ∨
        nextSubFrame s' (alignFour (sizeAt b o)) = .next { s' with dataSize := 0 })) := by
  have hdata : s'.dataSize = b.size - o := hd.dataSize.trans hs.dataSize
  unfold nextAt nextSubFrame
  dsimp only
  by_cases hodd : 1528 < (alignFour (sizeAt b o)).toNat ∨ (alignFour (sizeAt b o)).toNat < 32
  · rw [if_pos hodd, if_pos hodd]
    exact .inr ⟨rfl, .inl rfl⟩
  rw [if_neg hodd, if_neg hodd, hdata]
  by_cases hmore : (alignFour (sizeAt b o)).toNat < b.size - o
  · rw [if_pos hmore, if_pos hmore]
    refine .inl ⟨_, _, rfl, rfl, ⟨?_, ?_, hd.size, fun i hi => hd.same i (by omega)⟩, rfl, rfl, ?_⟩
    · rw [hd.pData, hs.pData]
    · show b.size - o - _ = _
      omega
    · show b.size - o - _ < s.dataSize
      rw [hs.dataSize]
      omega
  · rw [if_neg hmore, if_neg hmore]
    exact .inr ⟨rfl, .inr rfl⟩

/-- What left the loop so far is all right. -/
structure Clean (s : Amsdu) : Prop where
  eapol : ∀ m ∈ s.eapol, m.InPayload
  handed : ∀ m ∈ s.handed, m.InFrame

theorem Clean.dealt {b : Body} {s s' : Amsdu} {o : Nat} (h : Clean s) (hd : Dealt b s s' o) :
    Clean s' := by
  obtain ⟨es, hes, heapol⟩ := hd.eapol
  obtain ⟨ms, hms, hhanded⟩ := hd.handed
  refine ⟨fun m hm => ?_, fun m hm => ?_⟩
  · rw [hes] at hm
    exact (List.mem_append.mp hm).elim (h.eapol m) (heapol m)
  · rw [hms] at hm
    exact (List.mem_append.mp hm).elim (h.handed m) (hhanded m)

/-- What a turn starts from in a body whose sub-frames fit: at a place that is
reached, or at the end. -/
structure AtFrame (b : Body) (s : Amsdu) : Prop where
  clean : Clean s
  place : s.dataSize = 0 ∨ ∃ o, StandsAt b s o ∧ Reaches b o

/-- **One turn** over sub-frames that fit. -/
theorem AtFrame.turn {b : Body} {s : Amsdu} (h : AtFrame b s)
    (hfits : ∀ o, Reaches b o → Opens b o → Fits b o) (os : Allocs) :
    (∃ r, amsduLoop os s = .ret r ∧ Clean r) ∨
      ∃ s', amsduLoop os s = .next s' ∧ AtFrame b s' ∧ s'.dataSize < s.dataSize := by
  obtain hzero | ⟨o, hs, hreach⟩ := h.place
  · refine .inl ⟨s, ?_, h.clean⟩
    rw [amsduLoop, amsduTurn, if_pos (by omega)]
    rfl
  obtain ⟨hshut, hopen⟩ := amsduLoop_at os hs
  by_cases ho : Opens b o
  case neg =>
    obtain ⟨n, hn⟩ := hshut ho
    exact .inl ⟨_, hn, ⟨h.clean.eapol, h.clean.handed⟩⟩
  have hs' : StandsAt b { s with nMSDU := s.nMSDU + 1 } o := ⟨hs.pData, hs.dataSize, hs.size, hs.same⟩
  obtain ⟨s', hsub, hd⟩ := subFrame_fits os hs' ho (hfits o hreach ho)
  have hclean : Clean s' := Clean.dealt (s := { s with nMSDU := s.nMSDU + 1 })
    ⟨h.clean.eapol, h.clean.handed⟩ hd
  rw [hopen ho, hsub]
  dsimp only
  obtain ⟨o', t, hnext, hturn, ht, heapol, hhanded, hlt⟩ | ⟨-, hret | hlast⟩ := nextSubFrame_at hs' hd
  · refine .inr ⟨t, hturn, ⟨⟨?_, ?_⟩, .inr ⟨o', ht, hreach.next ho hnext⟩⟩, hlt⟩
    · rw [heapol]
      exact hclean.eapol
    · rw [hhanded]
      exact hclean.handed
  · exact .inl ⟨s', hret, hclean⟩
  · refine .inr ⟨_, hlast, ⟨⟨hclean.eapol, hclean.handed⟩, .inl rfl⟩, ?_⟩
    have := ho.header
    have := hs.dataSize
    show 0 < s.dataSize
    omega

theorem nextSubFrame_handed {s s' : Amsdu} {a : BitVec 16}
    (h : nextSubFrame s a = .next s' ∨ nextSubFrame s a = .ret s') : s'.handed = s.handed := by
  unfold nextSubFrame at h
  split_ifs at h <;> obtain h | h := h <;> cases h <;> rfl

/-- A turn takes nothing back that was handed up. -/
theorem amsduLoop_handed {os : Allocs} {s s' : Amsdu}
    (h : amsduLoop os s = .next s' ∨ amsduLoop os s = .ret s') :
    ∃ ms, s'.handed = s.handed ++ ms := by
  obtain ⟨t, hturn, ht⟩ : ∃ t, amsduTurn os s = .ok t ∧ (t = .next s' ∨ t = .ret s') := by
    unfold amsduLoop at h
    cases hx : amsduTurn os s with
    | ok t => exact ⟨t, rfl, by rwa [hx] at h⟩
    | error e =>
      rw [hx] at h
      obtain h | h := h <;> cases h
  unfold amsduTurn at hturn
  split at hturn
  · cases hturn
    obtain ht | ht := ht <;> cases ht
    exact ⟨[], (List.append_nil _).symm⟩
  obtain ⟨octet, -, hturn⟩ := bind_eq_ok hturn
  dsimp only at hturn
  split at hturn
  · cases hturn
    obtain ht | ht := ht <;> cases ht
    exact ⟨[], (List.append_nil _).symm⟩
  obtain ⟨s₁, hsub, hturn⟩ := bind_eq_ok hturn
  cases hturn
  obtain ⟨ms, hms⟩ := subFrame_handed hsub
  exact ⟨ms, (nextSubFrame_handed ht).trans hms⟩

/-! ## Exactness -/

/-- Where the loop starts. -/
def Amsdu.start (b : Body) : Amsdu := ⟨b, 0, b.size, 0, [], []⟩

theorem standsAt_start (b : Body) : StandsAt b (.start b) 0 := ⟨rfl, rfl, rfl, fun _ _ => rfl⟩

/-- A sub-frame that the loop meets and that does not fit breaks the bounds. -/
theorem StaysInBounds.fits {b : Body} (h : StaysInBounds b) {t : Amsdu} {o : Nat}
    (hm : Meets (amsduLoop allAllocs) (.start b) t) (ht : StandsAt b t o) (ho : Opens b o) :
    Fits b o := by
  by_contra hf
  obtain ⟨hsafe, r, hends, -, hclean⟩ := h allAllocs
  have hturn := (amsduLoop_at allAllocs ht).2 ho
  have ht' : StandsAt b { t with nMSDU := t.nMSDU + 1 } o := ⟨ht.pData, ht.dataSize, ht.size, ht.same⟩
  obtain ⟨e, he⟩ | ⟨s', hsub, m, hmem, hbad⟩ := subFrame_unfit ht' hf
  · rw [he] at hturn
    exact iterate_safe_iff.mp hsafe t hm e hturn
  rw [hsub] at hturn
  dsimp only at hturn
  -- what has been handed up stays so to the end
  obtain ⟨u, hu, hret⟩ := iterate_ends_iff.mp hends
  have hend : ∀ v, amsduLoop allAllocs u ≠ .next v := fun v hv => by
    rw [show amsduLoop allAllocs u = .ret r from hret] at hv
    cases hv
  have hkeep : ∀ s s'' : Amsdu, m ∈ s.handed → amsduLoop allAllocs s = .next s'' → m ∈ s''.handed := by
    intro s s'' hs hn
    obtain ⟨ms, hms⟩ := amsduLoop_handed (.inl hn)
    rw [hms]
    exact List.mem_append_left ms hs
  have hr : m ∈ r.handed := by
    cases hm.to_end hu hend with
    | here _ =>
      rw [show amsduLoop allAllocs t = .ret r from hret] at hturn
      rw [nextSubFrame_handed (.inr hturn.symm)]
      exact hmem
    | later hnext hrest =>
      rw [hnext] at hturn
      have hlast : m ∈ u.handed := hrest.inv hkeep (by
        rw [nextSubFrame_handed (.inl hturn.symm)]
        exact hmem)
      obtain ⟨ms, hms⟩ := amsduLoop_handed (.inr hret)
      rw [hms]
      exact List.mem_append_left ms hlast
  exact hbad (hclean m hr)

/-- In a body that stays in bounds the loop meets every place that is reached. -/
theorem StaysInBounds.meets {b : Body} (h : StaysInBounds b) {o : Nat} (hr : Reaches b o) :
    ∃ t, Meets (amsduLoop allAllocs) (.start b) t ∧ StandsAt b t o := by
  induction hr with
  | first => exact ⟨_, .here _, standsAt_start b⟩
  | next hr ho hnext ih =>
    obtain ⟨t, hm, ht⟩ := ih
    have ht' : StandsAt b { t with nMSDU := t.nMSDU + 1 } _ :=
      ⟨ht.pData, ht.dataSize, ht.size, ht.same⟩
    obtain ⟨s', hsub, hd⟩ := subFrame_fits allAllocs ht' ho (h.fits hm ht ho)
    have hturn := (amsduLoop_at allAllocs ht).2 ho
    rw [hsub] at hturn
    obtain ⟨o', u, hnext', hgo, hu, -⟩ | ⟨hnone, -⟩ := nextSubFrame_at ht' hd
    · rw [hnext] at hnext'
      cases hnext'
      exact ⟨u, hm.snoc (hturn.trans hgo), hu⟩
    · rw [hnext] at hnone
      cases hnone

/-- **Bounds of the de-aggregation**: on the body of a frame the driver reads and
writes inside the body, ends, copies at most a sub-frame's own payload into an EAPOL
element and hands up only what lies inside its own sub-frame with a length that did
not wrap, exactly when every sub-frame it reaches has the bytes it is compared with
and, where its LLC/SNAP header is removed, a payload of at least that header. -/
theorem deaggregate_in_bounds_iff (b : Body) :
    StaysInBounds b ↔ ∀ o, Reaches b o → Opens b o → Fits b o := by
  constructor
  · intro h o hr ho
    obtain ⟨t, hm, ht⟩ := h.meets hr
    exact h.fits hm ht ho
  · intro hfits os
    have hstart : AtFrame b (.start b) :=
      ⟨⟨by simp [Amsdu.start], by simp [Amsdu.start]⟩, .inr ⟨0, standsAt_start b, .first⟩⟩
    obtain ⟨hsafe, r, hends, hclean⟩ : Safe (fun n => iterate (amsduLoop os) n (.start b)) ∧
        ∃ r, Ends (fun n => iterate (amsduLoop os) n (.start b)) r ∧ Clean r :=
      iterate_total Amsdu.dataSize (fun s hs => AtFrame.turn hs hfits os) hstart
    exact ⟨hsafe, r, hends, hclean.eapol, hclean.handed⟩

/-- The body of 22 bytes with one sub-frame of length zero, and behind its header
the LLC/SNAP header of EAPOL. -/
def emptyEapol : Body :=
  ⟨22, fun i => [0, 0, 0, 0, 0, 0, 0, 0, 0, 0, 0, 0, 0, 0, 0xaa, 0xaa, 0x03, 0, 0, 0, 0x88, 0x8e].getD
    i 0⟩

/-- **An empty sub-frame**: its payload size wraps, and the copy into the EAPOL
element reads 65528 bytes behind the 22 received. -/
theorem empty_eapol_faults :
    ¬ StaysInBounds emptyEapol
      ∧ faultOf (deaggregateAmsduAnnounce allAllocs emptyEapol 1) = some (.read 22 65528) := by
  have hfault : faultOf (deaggregateAmsduAnnounce allAllocs emptyEapol 1)
      = some (.read 22 65528) := by decide +kernel
  refine ⟨fun h => ?_, hfault⟩
  rw [(h allAllocs).1.faultOf_eq_none 1] at hfault
  cases hfault

end ExtDrv.Rt3370
