import Mathlib
import ExtDrv.Rt3370.FragmentRun
import ExtDrv.Rt3370.WepRoundTrip

/-!
# Fragmentation is a partition

What a fragmented packet should be, and when it is: `partition_iff`. The packet is to be sent as
802.1H has it, with the Michael MIC behind it under TKIP, in numbered pieces that keep to the
threshold; `Fits` is the condition on the packet, the threshold and the cipher under which
`STA_Fragment_Frame_Tx` does that.
-/

namespace ExtDrv.Rt3370.Frag

open Memory Blocks Loop
open Ccm (Byte)
open Tkip

namespace TxBlk

variable (b : TxBlk)

/-! ## What is to be sent -/

/-- Where the type of the packet is, behind a VLAN tag. -/
def typeOffset : Nat := if typeAt b.buf 12 = 0x8100 then 16 else 12

/-- **The LLC-encapsulated packet**: the data, for an Ethernet type behind its LLC header. -/
def msdu : List Byte :=
  let type := segment b.buf b.typeOffset 2
  (match extraLlcSnapEncap type with
    | some snap => snap ++ type
    | none => [])
    ++ segment b.buf (b.typeOffset + 2) (b.SrcBufLen.toNat - (b.typeOffset + 2))

/-- The Michael MIC of addresses, priority and packet, under TKIP. -/
def mic : List Byte :=
  if b.CipherAlg = .tkip then
    b.micOf (segment b.buf 0 6 ++ segment b.buf 6 6 ++ [b.UserPriority, 0, 0, 0] ++ b.msdu)
  else []

/-- The frame without software encryption. -/
def unciphered : TxBlk := { b with bSwEncrypt := false }

/-- **The fragments of the packet.** -/
structure Partitions (ws : List Written) : Prop where
  payload : ws.flatMap (·.plain b.skip) = b.msdu ++ b.mic
  clear : b.bSwEncrypt = false → ∀ w ∈ ws, w.source = w.text
  numbered : ws.map Written.fragField = List.range ws.length
  more : ws.map Written.moreFrag = List.replicate (ws.length - 1) true ++ [false]
  short : ∀ w ∈ ws, w.mpduLen ≤ b.FragmentThreshold.toNat

/-- **Fragmented transmission is a partition**: the routine ends with the fragments of the packet,
and software encryption leaves the slices as they are without it. -/
def Partition : Prop :=
  ∃ ws, Ends b.staFragmentFrameTx ws ∧ b.Partitions ws ∧
    (b.bSwEncrypt = true → ∃ ws', Ends b.unciphered.staFragmentFrameTx ws' ∧
      ws'.map (·.plain b.unciphered.skip) = ws.map (·.plain b.skip))

/-- The tag of a marked packet is in its Ethernet header, and the type behind it is one that is
encapsulated as the tag itself would be. -/
def TagFits : Prop :=
  packetVlan b.buf = true → typeAt b.buf 12 = 0x8100 ∧ 1500 < typeAt b.buf 16 ∧
    ¬ (segment b.buf 16 2 = ipx ∨ segment b.buf 16 2 = appleTalk)

/-- The LLC header that goes with the first fragment. -/
def llcLen : Nat := if 1500 < typeAt b.buf 12 then 8 else 0

/-- The bytes to send: with a cipher that adds to the text one fragment takes them all, else
sixteen do, and the LLC header fits the first. -/
def SizeFits : Prop :=
  let n := (b.msdu ++ b.mic).length
  let threshold := b.FragmentThreshold.toNat
  if b.extLen = 0 then
    4 + b.macHeaderLen + b.llcLen ≤ threshold ∧ n ≤ 16 * (threshold - 4 - b.macHeaderLen)
  else 4 + b.macHeaderLen + b.ivLen + n + b.extLen ≤ threshold

/-- The packet that software encryption encapsulates in its buffer, over its source address, has
the same MIC. -/
def MicFits : Prop :=
  b.bSwEncrypt = true → b.CipherAlg = .tkip →
    b.micOf (hashedOf b.micBuf b.SrcBufLen.toNat b.UserPriority b.encap) = b.mic

/-- **When the packet is partitioned.** -/
structure Fits : Prop where
  tag : b.TagFits
  mic : b.MicFits
  size : b.SizeFits

/-! ## The pieces of a run -/

/-- The fragments from the `j`-th on, the data from `off` on. -/
inductive Pieces : Nat → Nat → List Written → Prop where
  | last {j off : Nat} {w : Written} : b.size - off ≤ b.free j →
      b.IsPiece w j off (b.size - off) false → Pieces j off [w]
  | more {j off : Nat} {w : Written} {ws : List Written} : b.free j < b.size - off →
      b.IsPiece w j off (b.free j) true → Pieces (j + 1) (off + b.free j) ws →
      Pieces j off (w :: ws)

variable {b}

/-- What is left of the stream behind `off` bytes of data, in front of fragment `j`. -/
theorem Pieces.flatten {j off : Nat} {ws : List Written} (h : b.Pieces j off ws) :
    ws.flatMap (·.plain b.skip) = b.piece j off (b.size - off) := by
  induction h with
  | last hfree hw => simp [hw.plain]
  | @more j off w ws hfree hw hws ih =>
      have hnext : b.ahead (j + 1) = [] := rfl
      have hsplit : b.size - off = b.free j + (b.size - (off + b.free j)) := by omega
      rw [List.flatMap_cons, ih, hw.plain, piece, piece, piece, hnext, hsplit, segment_add,
        List.nil_append, Nat.add_assoc, ← List.append_assoc]

theorem Pieces.ne_nil {j off : Nat} {ws : List Written} (h : b.Pieces j off ws) : ws ≠ [] := by
  cases h <;> exact List.cons_ne_nil _ _

/-- The numbers, in four bits. -/
theorem Pieces.frags {j off : Nat} {ws : List Written} (h : b.Pieces j off ws) :
    ws.map Written.fragField = (List.range' j ws.length).map (· % 16) := by
  induction h with
  | last hfree hw => simp [hw.frag]
  | more hfree hw hws ih =>
      rw [List.map_cons, ih, hw.frag, List.length_cons, List.range'_succ, List.map_cons]

theorem Pieces.moreFrags {j off : Nat} {ws : List Written} (h : b.Pieces j off ws) :
    ws.map Written.moreFrag = List.replicate (ws.length - 1) true ++ [false] := by
  induction h with
  | last hfree hw => simp [hw.more]
  | @more j off w ws hfree hw hws ih =>
      have hpos : 0 < ws.length := List.length_pos_iff.mpr hws.ne_nil
      rw [List.map_cons, ih, hw.more, List.length_cons, Nat.add_sub_cancel,
        show ws.length = ws.length - 1 + 1 by omega, List.replicate_succ]
      rfl

theorem Pieces.source {j off : Nat} {ws : List Written} (h : b.Pieces j off ws) :
    ∀ w ∈ ws, w.source = w.text := by
  induction h with
  | last hfree hw => simpa using hw.source
  | more hfree hw hws ih =>
      intro w' hw'
      rcases List.mem_cons.mp hw' with rfl | hw'
      · exact hw.source
      · exact ih w' hw'

/-- Header, text and CRC. -/
theorem IsPiece.length {w : Written} {j off len : Nat} {more : Bool}
    (h : b.IsPiece w j off len more) :
    w.mpduLen = b.macHeaderLen + b.ivLen + (w.plain b.skip).length + 4 := by
  rw [h.mpdu, h.plain, hdrLen, piece, List.length_append, length_segment]
  omega

theorem Pieces.length {j off : Nat} {ws : List Written} (h : b.Pieces j off ws) :
    ∀ w ∈ ws, w.mpduLen = b.macHeaderLen + b.ivLen + (w.plain b.skip).length + 4 := by
  induction h with
  | last hfree hw => simpa using hw.length
  | more hfree hw hws ih =>
      intro w' hw'
      rcases List.mem_cons.mp hw' with rfl | hw'
      · exact hw.length
      · exact ih w' hw'

/-! ## The run -/

/-- The fragments of a loop that ends, if they are few, are pieces. -/
theorem pieces_of_ends (hq : b.extLen = 0) {ws : List Written} (hfew : ws.length ≤ 16) {n : Nat} :
    ∀ {j off : Nat} {s : FragState}, b.Sent j off s → s.written.length = j →
      b.loop s n = some (.ok ws) → ∃ ws', ws = s.written ++ ws' ∧ b.Pieces j off ws' := by
  induction n with
  | zero =>
      intro j off s hs hj h
      cases h
  | succ n ih =>
      intro j off s hs hj h
      have hprefix := (written_initial h).length_le
      rw [loop, iterate] at h
      rcases fragTurn_quiet hq hs with ⟨hfree, w, hturn, hw⟩ | ⟨hfree, w, s', hturn, hwritten, hw, hnext⟩
      · rw [hturn] at h
        cases h
        exact ⟨[w], rfl, .last hfree hw⟩
      · rw [hturn] at h
        have hlen : s'.written.length = j + 1 := by
          rw [hwritten, List.length_append, hj]
          rfl
        have hlt : j < 16 := by
          have hnew := (written_initial h).length_le
          have hmore : s'.written.length < (b.sendFragment b.ready
              (segment b.ready.mem b.ready.pSrcBufData b.size) s').written.length := by
            simp [sendFragment]
          omega
        obtain ⟨ws', rfl, hws⟩ := ih (hnext hlt) hlen h
        refine ⟨w :: ws', ?_, .more hfree hw hws⟩
        rw [hwritten, List.append_assoc, List.singleton_append]

/-- The loop goes through enough pieces. -/
theorem ends_of_fits (hq : b.extLen = 0) {F : Nat} (hF : ∀ j, b.free j + (b.ahead j).length = F)
    (hsize : b.lead.length + b.size ≤ 16 * F) (d : Nat) :
    ∀ {j off : Nat} {s : FragState}, b.Sent j off s → j + d = 15 →
      off + b.lead.length = j * F + (b.ahead j).length →
      ∃ ws, Ends (b.loop s) (s.written ++ ws) ∧ b.Pieces j off ws ∧ j + ws.length ≤ 16 := by
  induction d with
  | zero =>
      intro j off s hs hj hoff
      have hfree := hF j
      rcases fragTurn_quiet hq hs with ⟨hfree, w, hturn, hw⟩ | ⟨hfree, w, s', hturn, hwritten, hw, hnext⟩
      · exact ⟨[w], (ends_of_ret hturn).mpr rfl, .last hfree hw, by simp; omega⟩
      · obtain rfl : j = 15 := by omega
        omega
  | succ d ih =>
      intro j off s hs hj hoff
      have hfree := hF j
      rcases fragTurn_quiet hq hs with ⟨hfree, w, hturn, hw⟩ | ⟨hfree, w, s', hturn, hwritten, hw, hnext⟩
      · exact ⟨[w], (ends_of_ret hturn).mpr rfl, .last hfree hw, by simp; omega⟩
      · have hahead : (b.ahead (j + 1)).length = 0 := rfl
        have hmul : (j + 1) * F = j * F + F := Nat.succ_mul j F
        obtain ⟨ws, hends, hws, hlen⟩ := ih (hnext (by omega)) (by omega) (by omega)
        refine ⟨w :: ws, ?_, .more hfree hw hws, by simp; omega⟩
        have hall : s.written ++ w :: ws = s'.written ++ ws := by simp [hwritten]
        rw [hall]
        exact (ends_of_next hturn).mpr hends

theorem start_sent : b.Sent 0 0 (start b.ready) := by
  have h := b.prepared
  constructor
  case few => exact Nat.zero_le 16
  case fragNum => rfl
  case data => rfl
  case offset => rfl
  case remaining => rfl
  case hdr =>
    have hhdr := h.hdr
    apply BitVec.eq_of_toNat_eq
    rw [hdr_toNat]
    exact hhdr
  case mem =>
    intro i _ _
    rfl
  case frag =>
    show (b.ready.mem (b.pHeader + 22) &&& 0x0f).toNat = 0
    rw [h.firstFrag]
    rfl

theorem size_lt : b.size < 2147483668 := by
  have h := b.prepared
  have hdata := Prepared.data b h
  have hends := h.ends
  have hpayload := b.length_payload
  have hroom := b.room
  have hmic := b.length_sentMic
  have hllc := b.length_llc
  have hmicLen : b.sentMic.length ≤ 8 := by
    rw [hmic]
    split_ifs <;> omega
  have hllcLen : b.llc.length ≤ 8 := by
    rw [hllc]
    split_ifs <;> omega
  rw [stream, List.length_append] at hdata
  unfold size
  omega

/-- A header that fits the threshold leaves the rest of it. -/
theorem free_of_le {j : Nat} (h : 4 + b.hdrLen j ≤ b.FragmentThreshold.toNat) :
    b.free j = b.FragmentThreshold.toNat - 4 - b.hdrLen j := by
  have hhdr := hdr_toNat (b := b) j
  have hlt := (BitVec.ofNat 8 (b.hdrLen j)).isLt
  unfold free freeMpduSize
  bv_omega

/-- A header that does not wraps it. -/
theorem free_of_lt {j : Nat} (h : b.FragmentThreshold.toNat < 4 + b.hdrLen j) :
    b.size ≤ b.free j := by
  have hhdr := hdr_toNat (b := b) j
  have hlt := (BitVec.ofNat 8 (b.hdrLen j)).isLt
  have hsize := size_lt (b := b)
  unfold free freeMpduSize
  bv_omega

/-- Headers that fit leave fragments that do. -/
theorem Pieces.short (hfit : ∀ j, 4 + b.hdrLen j ≤ b.FragmentThreshold.toNat) {j off : Nat}
    {ws : List Written} (h : b.Pieces j off ws) :
    ∀ w ∈ ws, w.mpduLen ≤ b.FragmentThreshold.toNat := by
  induction h with
  | @last j off w hfree hw =>
      have hj := hfit j
      have hlen := hw.mpdu
      rw [free_of_le hj] at hfree
      simp only [List.mem_singleton, forall_eq]
      omega
  | @more j off w ws hfree hw hws ih =>
      intro w' hw'
      rcases List.mem_cons.mp hw' with rfl | hw'
      · have hj := hfit j
        have hlen := hw.mpdu
        rw [free_of_le hj] at hlen
        omega
      · exact ih w' hw'

/-- The fragments of the whole frame. -/
theorem pieces_of_run (hq : b.extLen = 0) {ws : List Written} (hfew : ws.length ≤ 16)
    (h : Ends b.staFragmentFrameTx ws) : b.Pieces 0 0 ws := by
  obtain ⟨n, hn⟩ := h
  obtain ⟨ws', hws, hpieces⟩ := pieces_of_ends hq hfew start_sent rfl (n := n) hn
  rwa [hws, show (start b.ready).written = [] from rfl, List.nil_append]

theorem Pieces.stream {ws : List Written} (h : b.Pieces 0 0 ws) :
    ws.flatMap (·.plain b.skip) = b.stream := by
  rw [h.flatten, ← b.prepared.stream]
  rfl

/-- More than one piece is sent only if the first header fits. -/
theorem Pieces.single_or {ws : List Written} (h : b.Pieces 0 0 ws) :
    ws.length = 1 ∨ 4 + b.hdrLen 0 ≤ b.FragmentThreshold.toNat := by
  cases h with
  | last hfree hw => exact .inl rfl
  | more hfree hw hws =>
      right
      by_contra hlt
      have hwrap := free_of_lt (b := b) (j := 0) (by omega)
      omega

/-! ## The payload is the packet -/

variable (b)

theorem beWord_segment (m : Mem) (o : Nat) : beWord (segment m o 2) = typeAt m o := rfl

/-- A packet that is not marked. -/
theorem payload_unmarked (h : packetVlan b.buf = false) : b.payload = b.msdu := by
  have hvlan : b.vlanSize = 0 := by simp [vlanSize, h]
  have htype : typeAt b.buf 12 ≠ 0x8100 := by
    intro h8
    rw [b.packetVlan_of_typeAt h8] at h
    cases h
  have hencap : b.encap = extraLlcSnapEncap (segment b.buf 12 2) := by
    simp [encap, encapType, hvlan]
  simp only [payload, llc, hencap, hvlan, msdu, typeOffset, if_neg htype]
  rfl

/-- A mark without the tag: four bytes of the packet are lost. -/
theorem payload_untagged (hsw : b.bSwEncrypt = false) (h : packetVlan b.buf = true)
    (htype : typeAt b.buf 12 ≠ 0x8100) : b.payload ≠ b.msdu := by
  have hlen : 18 ≤ b.SrcBufLen.toNat := b.tag h
  have hvlan : b.vlanSize = 4 := by simp [vlanSize, h]
  have hsnap : EthPacket.TaggedInSnap ⟨b.buf, b.SrcBufLen, b.header, b.tag⟩ :=
    ((EthPacket.packetVlan_iff ⟨b.buf, b.SrcBufLen, b.header, b.tag⟩).mp h).resolve_left htype
  have hnone : extraLlcSnapEncap (segment b.buf 12 2) = none := if_neg (Nat.not_lt.mpr hsnap.1.1)
  have hencap : b.encap = none := by simp [encap, encapType, hsw, hnone]
  intro heq
  have hcount := congrArg List.length heq
  simp only [payload, llc, hencap, msdu, typeOffset, if_neg htype, hnone, hvlan, List.nil_append,
    length_segment] at hcount
  omega

/-- A tag: the type behind it selects the encapsulation, not the tag. -/
theorem payload_tagged (hsw : b.bSwEncrypt = false) (htype : typeAt b.buf 12 = 0x8100) :
    b.payload = b.msdu ↔ 1500 < typeAt b.buf 16 ∧
      ¬ (segment b.buf 16 2 = ipx ∨ segment b.buf 16 2 = appleTalk) := by
  have hvlan : b.vlanSize = 4 := by simp [vlanSize, b.packetVlan_of_typeAt htype]
  have hbytes : segment b.buf 12 2 = [0x81, 0x00] := by
    have htype : (b.buf 12).toNat * 256 + (b.buf 13).toNat = 0x8100 := htype
    have hhi : b.buf 12 = 0x81 := by bv_omega
    have hlo : b.buf 13 = 0x00 := by bv_omega
    simp [Memory.segment, List.range_succ, hhi, hlo]
  have hencap : b.encap = some snap8021H := by
    simp only [encap, encapType, hsw, Bool.false_eq_true, if_false, hbytes]
    decide
  have hpayload : b.payload = snap8021H ++ segment b.buf 16 2
      ++ segment b.buf 18 (b.SrcBufLen.toNat - 18) := by
    simp only [payload, llc, hencap, hvlan]
  simp only [hpayload, msdu, typeOffset, if_pos htype, List.append_left_inj]
  unfold extraLlcSnapEncap
  rw [beWord_segment]
  by_cases hlong : 1500 < typeAt b.buf 16
  · by_cases hbridge : segment b.buf 16 2 = ipx ∨ segment b.buf 16 2 = appleTalk
    · have hne : snap8021H ≠ snapBridgeTunnel := by decide
      simp [hlong, hbridge, hne]
    · simp [hlong, hbridge]
  · simp [hlong, snap8021H]

theorem payload_clear (hsw : b.bSwEncrypt = false) : b.payload = b.msdu ↔ b.TagFits := by
  unfold TagFits
  cases hv : packetVlan b.buf with
  | false => simp [b.payload_unmarked hv]
  | true =>
      by_cases htype : typeAt b.buf 12 = 0x8100
      · simpa [htype] using b.payload_tagged hsw htype
      · simpa [htype] using b.payload_untagged hsw hv htype

/-- Software encryption goes by the type behind the tag. -/
theorem payload_of_tagFits (h : b.TagFits) : b.payload = b.msdu := by
  cases hv : packetVlan b.buf with
  | false => exact b.payload_unmarked hv
  | true =>
      cases hsw : b.bSwEncrypt with
      | false => exact (b.payload_clear hsw).mpr h
      | true =>
          have hvlan : b.vlanSize = 4 := by simp [vlanSize, hv]
          have hencap : b.encap = extraLlcSnapEncap (segment b.buf 16 2) := by
            simp [encap, encapType, hsw, hvlan]
          simp only [payload, llc, hencap, hvlan, msdu, typeOffset, if_pos (h hv).1]
          rfl

/-! ### With the MIC -/

theorem length_mic : b.mic.length = b.sentMic.length := by
  rw [b.length_sentMic, mic]
  split_ifs <;> rfl

/-- What the hardware is given is what is hashed. -/
theorem sentMic_clear (hsw : b.bSwEncrypt = false) (h : b.TagFits) : b.sentMic = b.mic := by
  have hvlan : (if typeAt b.buf 12 = 0x8100 then 4 else 0) = b.vlanSize := by
    cases hv : packetVlan b.buf with
    | false =>
        have htype : typeAt b.buf 12 ≠ 0x8100 := by
          intro h8
          rw [b.packetVlan_of_typeAt h8] at hv
          cases hv
        simp [vlanSize, hv, htype]
    | true => simp [vlanSize, hv, (h hv).1]
  have hbuf : b.micBuf = b.buf := by
    unfold micBuf
    cases b.encap <;> simp [hsw]
  unfold sentMic mic
  split_ifs with ht
  · congr 1
    rw [← b.payload_of_tagFits h, hbuf]
    simp only [hashedOf, hvlan, payload, llc]
    cases he : b.encap with
    | none => simp
    | some snap => simp [length_extraLlcSnapEncap he]
  · rfl

theorem stream_eq_iff : b.stream = b.msdu ++ b.mic ↔ b.payload = b.msdu ∧ b.sentMic = b.mic := by
  constructor
  · intro h
    exact List.append_inj' h b.length_mic.symm
  · rintro ⟨hpayload, hmic⟩
    rw [stream, hpayload, hmic]

theorem stream_clear (hsw : b.bSwEncrypt = false) :
    b.stream = b.msdu ++ b.mic ↔ b.TagFits := by
  rw [b.stream_eq_iff, b.payload_clear hsw]
  exact and_iff_left_of_imp fun h => b.sentMic_clear hsw h

theorem stream_of_fits (htag : b.TagFits) (hmic : b.MicFits) : b.stream = b.msdu ++ b.mic := by
  refine b.stream_eq_iff.mpr ⟨b.payload_of_tagFits htag, ?_⟩
  cases hsw : b.bSwEncrypt with
  | false => exact b.sentMic_clear hsw htag
  | true =>
      by_cases ht : b.CipherAlg = .tkip
      · rw [sentMic, if_pos ht]
        exact hmic hsw ht
      · simp [sentMic, mic, ht]

theorem micFits_of_stream (h : b.stream = b.msdu ++ b.mic) : b.MicFits := by
  intro hsw ht
  have hmic := (b.stream_eq_iff.mp h).2
  rwa [sentMic, if_pos ht] at hmic

theorem length_lead_clear (hsw : b.bSwEncrypt = false) : b.lead.length = b.llcLen := by
  have hencap : b.encap.isSome ↔ 1500 < typeAt b.buf 12 := by
    simp only [encap, encapType, hsw, Bool.false_eq_true, if_false, extraLlcSnapEncap,
      beWord_segment]
    split_ifs with h1 h2 <;> simp [h1]
  rw [length_lead, llcLen]
  simp [hsw, hencap]

/-! ## The slices -/

/-- Pieces of `F` bytes, and what is left. -/
def cuts (F : Nat) : Nat → List Byte → List (List Byte)
  | 0, _ => []
  | n + 1, l => if l.length ≤ F then [l] else l.take F :: cuts F n (l.drop F)

variable {b}

theorem length_piece (j off len : Nat) : (b.piece j off len).length = (b.ahead j).length + len := by
  simp [piece]

/-- The fragments are the slices of the stream. -/
theorem Pieces.cuts {F : Nat} (hF : ∀ j, b.free j + (b.ahead j).length = F) {j off : Nat}
    {ws : List Written} (h : b.Pieces j off ws) {n : Nat} (hn : ws.length ≤ n) :
    ws.map (·.plain b.skip) = cuts F n (b.piece j off (b.size - off)) := by
  induction h generalizing n with
  | @last j off w hfree hw =>
      obtain ⟨n, rfl⟩ : ∃ k, n = k + 1 := ⟨n - 1, by simp at hn; omega⟩
      have hlen := length_piece (b := b) j off (b.size - off)
      have hfit := hF j
      rw [TxBlk.cuts, if_pos (by omega), List.map_singleton, hw.plain]
  | @more j off w ws hfree hw hws ih =>
      obtain ⟨n, rfl⟩ : ∃ k, n = k + 1 := ⟨n - 1, by simp at hn; omega⟩
      have hlen := length_piece (b := b) j off (b.size - off)
      have hfit := hF j
      have hsplit : b.piece j off (b.size - off)
          = b.piece j off (b.free j) ++ b.piece (j + 1) (off + b.free j)
              (b.size - (off + b.free j)) := by
        have hnext : b.ahead (j + 1) = [] := rfl
        rw [piece, piece, piece, hnext, List.nil_append, List.append_assoc, ← Nat.add_assoc,
          ← segment_add]
        congr 2
        omega
      have hfirst : (b.piece j off (b.free j)).length = F := by
        rw [length_piece]
        omega
      rw [TxBlk.cuts, if_neg (by omega), List.map_cons, hw.plain, ih (by simp at hn; omega), hsplit,
        List.take_left' hfirst, List.drop_left' hfirst]

/-! ## Without a cipher behind the text -/

theorem lead_le : b.lead.length ≤ b.llcLen := by
  cases hsw : b.bSwEncrypt with
  | false => exact Nat.le_of_eq (b.length_lead_clear hsw)
  | true => simp [TxBlk.lead, hsw]

theorem sizeFits_quiet (hq : b.extLen = 0) : b.SizeFits ↔
    4 + b.macHeaderLen + b.llcLen ≤ b.FragmentThreshold.toNat ∧
      (b.msdu ++ b.mic).length ≤ 16 * (b.FragmentThreshold.toNat - 4 - b.macHeaderLen) := by
  simp only [SizeFits, if_pos hq]

theorem sent_of_fits (hq : b.extLen = 0) (htag : b.TagFits) (hmic : b.MicFits)
    (hsize : b.SizeFits) : ∃ ws, Ends b.staFragmentFrameTx ws ∧ b.Partitions ws ∧
      ws.map (·.plain b.skip)
        = cuts (b.FragmentThreshold.toNat - 4 - b.macHeaderLen) 16 (b.msdu ++ b.mic) := by
  have hstream := b.stream_of_fits htag hmic
  have hlead := lead_le (b := b)
  have hiv := quiet_ivLen hq
  have hdata := Prepared.data b b.prepared
  rw [sizeFits_quiet hq] at hsize
  rw [hstream] at hdata
  have hahead : ∀ j, (b.ahead j).length ≤ b.lead.length := by
    intro j
    unfold ahead
    split_ifs
    · exact Nat.le_refl _
    · exact Nat.zero_le _
  have hF : ∀ j, b.free j + (b.ahead j).length
      = b.FragmentThreshold.toNat - 4 - b.macHeaderLen := by
    intro j
    have hj := hahead j
    have hhdr : b.hdrLen j = b.macHeaderLen + (b.ahead j).length := by
      rw [hdrLen, hiv, Nat.add_zero]
    rw [free_of_le (by omega), hhdr]
    omega
  have hall : b.lead.length + b.size ≤ 16 * (b.FragmentThreshold.toNat - 4 - b.macHeaderLen) := by
    unfold size
    omega
  obtain ⟨ws, hends, hws, hlen⟩ := ends_of_fits hq hF hall 15 start_sent rfl (by
    show 0 + b.lead.length = 0 * _ + b.lead.length
    omega)
  refine ⟨ws, hends, ?_, ?_⟩
  · constructor
    case payload => rw [hws.stream, hstream]
    case clear => exact fun _ => hws.source
    case numbered =>
      have hsmall : ∀ i ∈ List.range' 0 ws.length, i % 16 = id i := by
        intro i hi
        have hlt := List.mem_range'_1.mp hi
        exact Nat.mod_eq_of_lt (by omega)
      rw [hws.frags, List.map_congr_left hsmall, List.map_id, List.range_eq_range']
    case more => exact hws.moreFrags
    case short =>
      refine hws.short fun j => ?_
      have hj := hahead j
      rw [hdrLen, hiv]
      omega
  · rw [hws.cuts hF (n := 16) (by omega), ← hstream, ← b.prepared.stream]
    rfl

/-- The numbers are of four bits. -/
theorem Partitions.few {ws : List Written} (h : b.Partitions ws) : ws.length ≤ 16 := by
  by_contra hmany
  have h16 := congrArg (·[16]?) h.numbered
  obtain ⟨w, hw⟩ : ∃ w, ws[16]? = some w :=
    ⟨ws[16], List.getElem?_eq_getElem (by omega)⟩
  simp only [List.getElem?_map, hw, List.getElem?_range (show 16 < ws.length by omega),
    Option.map_some, Option.some.injEq] at h16
  have hlt := w.fragField_lt
  omega

theorem Pieces.first_le {j off : Nat} {ws : List Written} (h : b.Pieces j off ws) :
    ∃ w ∈ ws, b.hdrLen j + 4 ≤ w.mpduLen := by
  cases h with
  | @last _ _ w hfree hw =>
      have hlen := hw.mpdu
      exact ⟨w, by simp, by omega⟩
  | @more _ _ w ws hfree hw hws =>
      have hlen := hw.mpdu
      exact ⟨w, by simp, by omega⟩

theorem length_flatMap_le (f : Written → List Byte) {F : Nat} {ws : List Written}
    (h : ∀ w ∈ ws, (f w).length ≤ F) : (ws.flatMap f).length ≤ ws.length * F := by
  induction ws with
  | nil => simp
  | cons w ws ih =>
      have hw := h w (by simp)
      have hws := ih fun w' hw' => h w' (by simp [hw'])
      rw [List.flatMap_cons, List.length_append, List.length_cons, Nat.succ_mul]
      omega

/-- The fragments keep to the threshold: the first has its header, all have their share. -/
theorem room_of_partitions (hq : b.extLen = 0) {ws : List Written} (hws : b.Pieces 0 0 ws)
    (h : b.Partitions ws) :
    4 + b.macHeaderLen + b.lead.length ≤ b.FragmentThreshold.toNat ∧
      (b.msdu ++ b.mic).length ≤ 16 * (b.FragmentThreshold.toNat - 4 - b.macHeaderLen) := by
  have hiv := quiet_ivLen hq
  constructor
  · obtain ⟨w, hw, hfirst⟩ := hws.first_le
    have hshort := h.short w hw
    have hhdr : b.hdrLen 0 = b.macHeaderLen + b.ivLen + b.lead.length := rfl
    omega
  · have hshare : ∀ w ∈ ws, (w.plain b.skip).length
        ≤ b.FragmentThreshold.toNat - 4 - b.macHeaderLen := by
      intro w hw
      have hlen := hws.length w hw
      have hshort := h.short w hw
      omega
    have hall := length_flatMap_le (·.plain b.skip) hshare
    rw [h.payload] at hall
    exact Nat.le_trans hall (Nat.mul_le_mul_right _ h.few)

/-- The frame without software encryption is the same packet. -/
theorem unciphered_run {ws : List Written} (hfew : ws.length ≤ 16)
    (hends : Ends b.unciphered.staFragmentFrameTx ws)
    (hall : ws.flatMap (·.plain b.unciphered.skip) = b.msdu ++ b.mic) :
    b.TagFits ∧ b.unciphered.Pieces 0 0 ws := by
  have hws := pieces_of_run (b := b.unciphered) rfl hfew hends
  rw [hws.stream] at hall
  exact ⟨(b.unciphered.stream_clear rfl).mp hall, hws⟩

theorem llcLen_le (h : b.TagFits) : b.llcLen ≤ (b.msdu ++ b.mic).length := by
  have hstream := (b.unciphered.stream_clear rfl).mpr h
  have hdata := Prepared.data _ b.unciphered.prepared
  have hlead := b.unciphered.length_lead_clear rfl
  have hmsdu : b.unciphered.stream = b.msdu ++ b.mic := hstream
  have hllc : b.unciphered.llcLen = b.llcLen := rfl
  rw [hmsdu] at hdata
  omega

/-- What a partition without a cipher behind the text needs. -/
theorem fits_of_partition_quiet (hq : b.extLen = 0) (h : b.Partition) : b.Fits := by
  obtain ⟨ws, hends, hparts, hslices⟩ := h
  have hws := pieces_of_run hq hparts.few hends
  have hstream : b.stream = b.msdu ++ b.mic := by rw [← hws.stream, hparts.payload]
  obtain ⟨hroom, hcount⟩ := room_of_partitions hq hws hparts
  have hmic := b.micFits_of_stream hstream
  cases hsw : b.bSwEncrypt with
  | false =>
      have hlead := b.length_lead_clear hsw
      exact ⟨(b.stream_clear hsw).mp hstream, hmic,
        (sizeFits_quiet hq).mpr ⟨by omega, hcount⟩⟩
  | true =>
      obtain ⟨ws', hends', hsame⟩ := hslices hsw
      have hlen : ws'.length = ws.length := by simpa using congrArg List.length hsame
      have hall : ws'.flatMap (·.plain b.unciphered.skip) = b.msdu ++ b.mic := by
        rw [← hparts.payload, List.flatMap_def, List.flatMap_def, hsame]
      have hfew := hparts.few
      obtain ⟨htag, hws'⟩ := unciphered_run (by omega) hends' hall
      refine ⟨htag, hmic, (sizeFits_quiet hq).mpr ⟨?_, hcount⟩⟩
      rcases hws'.single_or with hone | hfit
      · -- the whole packet is in the one fragment, its LLC header with it
        obtain ⟨w, rfl⟩ : ∃ w, ws = [w] := List.length_eq_one_iff.mp (hlen.symm.trans hone)
        have hplain : w.plain b.skip = b.msdu ++ b.mic := by simpa using hparts.payload
        have hshort := hparts.short w (by simp)
        have hlength := hws.length w (by simp)
        have hiv := quiet_ivLen hq
        have hllc := llcLen_le htag
        rw [hplain] at hlength
        omega
      · have hhdr : b.unciphered.hdrLen 0 = b.macHeaderLen + 0 + b.unciphered.lead.length := rfl
        have hlead := b.unciphered.length_lead_clear rfl
        have hllc : b.unciphered.llcLen = b.llcLen := rfl
        have hthreshold : b.unciphered.FragmentThreshold = b.FragmentThreshold := rfl
        rw [hthreshold] at hfit
        omega

theorem partition_of_fits_quiet (hq : b.extLen = 0) (h : b.Fits) : b.Partition := by
  obtain ⟨ws, hends, hparts, hcuts⟩ := sent_of_fits hq h.tag h.mic h.size
  refine ⟨ws, hends, hparts, fun _ => ?_⟩
  have hsize : b.unciphered.SizeFits := (sizeFits_quiet rfl).mpr ((sizeFits_quiet hq).mp h.size)
  have hmic : b.unciphered.MicFits := by
    intro hsw
    cases hsw
  obtain ⟨ws', hends', -, hcuts'⟩ := sent_of_fits (b := b.unciphered) rfl h.tag hmic hsize
  exact ⟨ws', hends', hcuts'.trans hcuts.symm⟩

/-! ## With one -/

theorem rtmpSoftEncryptWep_frame (os : Wep.Allocated) (pIvHdr : Nat) (key : CipherKey) (o : Nat)
    {n : BitVec 32} (hn : n.toNat < 2147483668) (t : Tape) {i : Nat}
    (hi : i < o ∨ o + n.toNat + 8 ≤ i) :
    (Wep.rtmpSoftEncryptWep os pIvHdr key o n t).2.mem i = t.mem i := by
  unfold Wep.rtmpSoftEncryptWep
  cases os.ctx with
  | none => rfl
  | some ctx =>
      dsimp only
      split_ifs with hkey
      · rfl
      · have hinit : (Wep.rtmpInitWepEngine os.seed pIvHdr key ctx t).2.mem = t.mem := by
          unfold Wep.rtmpInitWepEngine
          split_ifs <;> rfl
        have hlen : (n + BitVec.ofNat 32 Wep.lenIcv).toNat = n.toNat + 4 := by
          show (n + 4#32).toNat = n.toNat + 4
          bv_omega
        have hicv (v : BitVec 32) : (LittleEndian.leBytes v).length = 4 := rfl
        rw [(Wep.arc4ComputeAt_ciphered _ (.inl (Nat.le_refl o)) _).rest i (by omega)]
        simp only [Tape.write_mem, Tape.read_snd, Tape.note_mem]
        rw [store_outside (by rw [hicv]; omega), hinit]

theorem rtmpSoftEncryptCcmp_frame (pHdr : Nat) (pn : List Byte) (key : Ccm.Block) (o : Nat)
    {n : BitVec 32} (m : Mem) {i : Nat} (hi : i < o ∨ o + n.toNat + 8 ≤ i) :
    (rtmpSoftEncryptCcmp rtAes128 pHdr pn key o n m).2 i = m i := by
  unfold rtmpSoftEncryptCcmp aesCcmEncrypt
  dsimp only
  split_ifs with hlen hroom
  · rfl
  · rfl
  · dsimp only
    rw [store_outside, (cipherLoop_all (E := rtAes128 key) [] 8 _ m (.inl (Nat.le_refl o))).rest i
      (by omega)]
    · simp
    · have hmac : ∀ l : List Byte, ∀ c : Ccm.Block,
          (List.zipWith (· ^^^ ·) l (prefixOf c lenCcmpMic)).length ≤ 8 := by
        intro l c
        rw [List.length_zipWith, length_prefixOf (by decide)]
        exact Nat.min_le_right _ _
      rcases hi with hi | hi
      · exact .inl (Nat.lt_add_right n.toNat hi)
      · exact .inr (Nat.le_trans (Nat.add_le_add_left (hmac _ _) _) hi)

/-- What enciphers the text writes to it and behind it. -/
theorem enciphered_frame (o : Nat) {n : BitVec 32} (hn : n.toNat < 2147483668) (m : Mem) {i : Nat}
    (hi : i < o ∨ o + n.toNat + 8 ≤ i) : (b.enciphered o n m).1 i = m i := by
  unfold enciphered rtmpSoftEncryptionAction
  split_ifs with hsw hwep haes
  · exact rtmpSoftEncryptWep_frame _ _ _ o hn _ hi
  · exact rtmpSoftEncryptCcmp_frame _ _ _ o m hi
  · rfl
  · rfl

theorem enciphered_ext (o : Nat) (n : BitVec 32) (m : Mem) :
    (b.enciphered o n m).2 = BitVec.ofNat 32 b.extLen := by
  unfold enciphered rtmpSoftEncryptionAction extLen
  split_ifs <;> rfl

theorem extLen_le : b.extLen ≤ 8 := b.ivLen_le

theorem swEncrypt_of_loud (hl : b.extLen ≠ 0) : b.bSwEncrypt = true := by
  by_contra h
  exact hl (if_neg h)

/-- The first fragment under a cipher that adds to its text. -/
structure IsFirst (b : TxBlk) (w : Written) (len : Nat) (more : Bool) : Prop where
  plain : w.plain b.skip = b.piece 0 0 len
  frag : w.fragField = 0
  more : w.moreFrag = more
  mpdu : w.mpduLen = b.hdrLen 0 + len + b.extLen + 4

/-- Whatever is left of the threshold for the text, what the cipher adds comes on top. -/
theorem loud_first (hl : b.extLen ≠ 0) {last : Bool} {len : BitVec 32}
    (hlast : lastLen (b := b) 0 (start b.ready) = (last, len)) (hlen : len.toNat ≤ b.size)
    {s : FragState} (hsend : b.sendFragment b.ready
      (segment b.ready.mem b.ready.pSrcBufData b.size) (start b.ready) = s) :
    s.SrcRemainingBytes = b.ready.SrcBufLen - len ∧
      ∃ w, s.written = [w] ∧ b.IsFirst w len.toNat (!last) := by
  have hs := start_sent (b := b)
  have hsize := size_lt (b := b)
  have hext := extLen_le (b := b)
  have hlead : b.lead = [] := by simp [TxBlk.lead, swEncrypt_of_loud hl]
  have hapart := b.data_apart
  obtain ⟨m, hm⟩ : ∃ m, m = (b.enciphered b.ready.pSrcBufData len
    (b.setMoreFrag (!last) b.ready.mem)).1 := ⟨_, rfl⟩
  have henc : b.enciphered (start b.ready).pSrcBufData len (b.setMoreFrag (!last) (start b.ready).mem)
      = (m, BitVec.ofNat 32 b.extLen) := by
    rw [hm]
    exact Prod.ext rfl (enciphered_ext _ _ _)
  have hframe : ∀ i, i < 48 →
      m (b.pHeader + i) = b.setMoreFrag (!last) b.ready.mem (b.pHeader + i) := by
    intro i hi
    rw [hm]
    exact enciphered_frame _ (by omega) _ (by omega)
  have hhdr : (start b.ready).MpduHeaderLen.toNat = b.hdrLen 0 := by rw [hs.hdr, hdr_toNat]
  have hskip : b.hdrLen 0 + b.hdrPadLen = b.skip := by
    rw [hdrLen, show (b.ahead 0).length = b.lead.length from rfl, hlead, List.length_nil, skip]
    omega
  have hat := b.payloadAt_mem
  have hbyte : ∀ i, i < 24 → (segment m b.pHeader
      ((start b.ready).MpduHeaderLen.toNat + b.hdrPadLen)).getD i 0 = m (b.pHeader + i) := by
    intro i hi
    have hle : 24 ≤ b.hdrLen 0 := by
      unfold hdrLen
      omega
    rw [List.getD_eq_getElem?_getD, getElem?_segment _ (by omega)]
    rfl
  rw [sendFragment_eq hs hlast (by omega) henc] at hsend
  subst hsend
  refine ⟨rfl, _, rfl, ?_⟩
  constructor
  case plain =>
    simp only [Written.plain]
    rw [hhdr, hskip, List.drop_of_length_le (by simp), hs.text _ (by omega), piece]
    show [] ++ _ = b.lead ++ _
    rw [hlead]
  case frag =>
    simp only [Written.fragField]
    rw [hbyte 22 (by omega), hframe 22 (by omega), b.setMoreFrag_same _ _ (by omega)]
    exact hs.frag
  case more =>
    simp only [Written.moreFrag]
    rw [hbyte 1 (by omega), hframe 1 (by omega)]
    exact b.setMoreFrag_at _ _
  case mpdu =>
    simp only [Written.mpduLen, hhdr, length_segment, BitVec.toNat_add, BitVec.toNat_ofNat]
    omega

/-- One fragment takes all. -/
theorem loud_once (hl : b.extLen ≠ 0) (hfit : b.size ≤ b.free 0) :
    ∃ w, Ends b.staFragmentFrameTx [w] ∧ b.IsFirst w b.size false := by
  have hlast : lastLen (b := b) 0 (start b.ready) = (true, b.ready.SrcBufLen) := by
    simp only [free, size] at hfit
    simp [lastLen, start, hfit]
  obtain ⟨s, hsend⟩ : ∃ s, b.sendFragment b.ready
    (segment b.ready.mem b.ready.pSrcBufData b.size) (start b.ready) = s := ⟨_, rfl⟩
  obtain ⟨hleft, w, hw, hfirst⟩ := loud_first hl hlast (Nat.le_refl _) hsend
  refine ⟨w, ?_, hfirst⟩
  have hturn : b.fragTurn b.ready (segment b.ready.mem b.ready.pSrcBufData b.size) (start b.ready)
      = .ret [w] := by
    simp [fragTurn, hsend, hleft, hw]
  exact (ends_of_ret hturn).mpr rfl

/-- More than one break the threshold. -/
theorem loud_more (hl : b.extLen ≠ 0) (hfit : b.free 0 < b.size) {ws : List Written}
    (hends : Ends b.staFragmentFrameTx ws) :
    ∃ w ∈ ws, b.FragmentThreshold.toNat < w.mpduLen := by
  have hlast : lastLen (b := b) 0 (start b.ready)
      = (false, b.freeMpduSize (BitVec.ofNat 8 (b.hdrLen 0))) := by
    have hnot : ¬ b.size ≤ b.free 0 := by omega
    simp only [free, size] at hnot
    simp [lastLen, start, hnot]
  obtain ⟨s, hsend⟩ : ∃ s, b.sendFragment b.ready
    (segment b.ready.mem b.ready.pSrcBufData b.size) (start b.ready) = s := ⟨_, rfl⟩
  obtain ⟨-, w, hw, hfirst⟩ := loud_first hl hlast (Nat.le_of_lt hfit) hsend
  obtain ⟨n, hn⟩ := hends
  have hprefix := written_initial (b := b) hn
  rw [hsend, hw] at hprefix
  refine ⟨w, hprefix.subset (by simp), ?_⟩
  have hhdr : 4 + b.hdrLen 0 ≤ b.FragmentThreshold.toNat := by
    by_contra hlt
    have hwrap := free_of_lt (b := b) (j := 0) (by omega)
    omega
  have hlen : (b.freeMpduSize (BitVec.ofNat 8 (b.hdrLen 0))).toNat
      = b.FragmentThreshold.toNat - 4 - b.hdrLen 0 := free_of_le hhdr
  have hmpdu := hfirst.mpdu
  omega

theorem length_stream_loud (hl : b.extLen ≠ 0) : b.stream.length = b.size := by
  have hlead : b.lead = [] := by simp [TxBlk.lead, swEncrypt_of_loud hl]
  have hdata := Prepared.data b b.prepared
  rw [← hdata, hlead]
  exact Nat.zero_add _

theorem piece_all : b.piece 0 0 b.size = b.stream := by
  rw [← b.prepared.stream]
  rfl

theorem sizeFits_loud (hl : b.extLen ≠ 0) : b.SizeFits ↔ 4 + b.macHeaderLen + b.ivLen
    + (b.msdu ++ b.mic).length + b.extLen ≤ b.FragmentThreshold.toNat := by
  simp only [SizeFits, if_neg hl]

theorem hdrLen_loud (hl : b.extLen ≠ 0) : b.hdrLen 0 = b.macHeaderLen + b.ivLen := by
  have hlead : b.lead = [] := by simp [TxBlk.lead, swEncrypt_of_loud hl]
  rw [hdrLen, show (b.ahead 0).length = b.lead.length from rfl, hlead]
  rfl

theorem micFits_loud (hl : b.extLen ≠ 0) : b.MicFits := by
  intro _ ht
  exact absurd (by simp [extLen, ht, CipherAlg.isWep]) hl

theorem fits_of_partition_loud (hl : b.extLen ≠ 0) (h : b.Partition) : b.Fits := by
  obtain ⟨ws, hends, hparts, hslices⟩ := h
  have hfit : b.size ≤ b.free 0 := by
    by_contra hmore
    obtain ⟨w, hw, hlong⟩ := loud_more hl (Nat.lt_of_not_le hmore) hends
    exact absurd (hparts.short w hw) (Nat.not_le.mpr hlong)
  obtain ⟨w, honce, hfirst⟩ := loud_once hl hfit
  have hsame : ws = [w] := by
    obtain ⟨n, hn⟩ := hends
    obtain ⟨k, hk⟩ := honce
    have h1 := iterate_stable (start b.ready) n (n + k) _ (Nat.le_add_right n k) hn
    have h2 := iterate_stable (start b.ready) k (n + k) _ (Nat.le_add_left k n) hk
    simpa using h1.symm.trans h2
  subst hsame
  have hall : w.plain b.skip = b.msdu ++ b.mic := by simpa using hparts.payload
  have hshort := hparts.short w (by simp)
  have hmpdu := hfirst.mpdu
  have hhdr := hdrLen_loud hl
  have hcount : b.size = (b.msdu ++ b.mic).length := by
    rw [← hall, hfirst.plain, piece_all, length_stream_loud hl]
  obtain ⟨ws', hends', hsame⟩ := hslices (swEncrypt_of_loud hl)
  have hlen : ws'.length = 1 := by simpa using congrArg List.length hsame
  have hall' : ws'.flatMap (·.plain b.unciphered.skip) = b.msdu ++ b.mic := by
    rw [← hparts.payload, List.flatMap_def, List.flatMap_def, hsame]
  have htag := (unciphered_run (by omega) hends' hall').1
  exact ⟨htag, micFits_loud hl, (sizeFits_loud hl).mpr (by omega)⟩

theorem partition_of_fits_loud (hl : b.extLen ≠ 0) (h : b.Fits) : b.Partition := by
  have hsize := (sizeFits_loud hl).mp h.size
  have hstream := b.stream_of_fits h.tag h.mic
  have hcount : b.size = (b.msdu ++ b.mic).length := by
    rw [← hstream, length_stream_loud hl]
  have hhdr := hdrLen_loud hl
  have hfree : b.free 0 = b.FragmentThreshold.toNat - 4 - b.hdrLen 0 := free_of_le (by omega)
  obtain ⟨w, hends, hfirst⟩ := loud_once hl (by omega)
  have hplain : w.plain b.skip = b.msdu ++ b.mic := by
    rw [hfirst.plain, piece_all, hstream]
  refine ⟨[w], hends, ?_, fun hsw => ?_⟩
  · constructor
    case payload => simpa using hplain
    case clear =>
      intro hclear
      rw [swEncrypt_of_loud hl] at hclear
      cases hclear
    case numbered => simp [hfirst.frag]
    case more => simp [hfirst.more]
    case short =>
      have hmpdu := hfirst.mpdu
      simp only [List.mem_singleton, forall_eq]
      omega
  · have hllc := llcLen_le h.tag
    have hsize' : b.unciphered.SizeFits := by
      refine (sizeFits_quiet rfl).mpr ?_
      show 4 + b.macHeaderLen + b.llcLen ≤ b.FragmentThreshold.toNat ∧
        (b.msdu ++ b.mic).length ≤ 16 * (b.FragmentThreshold.toNat - 4 - b.macHeaderLen)
      omega
    have hmic : b.unciphered.MicFits := by
      intro hsw
      cases hsw
    obtain ⟨ws', hends', -, hcuts'⟩ := sent_of_fits (b := b.unciphered) rfl h.tag hmic hsize'
    refine ⟨ws', hends', hcuts'.trans ?_⟩
    have hone : (b.unciphered.msdu ++ b.unciphered.mic).length
        ≤ b.unciphered.FragmentThreshold.toNat - 4 - b.unciphered.macHeaderLen := by
      show (b.msdu ++ b.mic).length ≤ b.FragmentThreshold.toNat - 4 - b.macHeaderLen
      omega
    rw [TxBlk.cuts, if_pos hone, List.map_singleton, hplain]
    rfl

/-! ## The packets that are partitioned -/

theorem fits_of_partition (h : b.Partition) : b.Fits := by
  by_cases hq : b.extLen = 0
  · exact fits_of_partition_quiet hq h
  · exact fits_of_partition_loud hq h

variable (b)

/-- **Fragmentation is a partition for exactly these frames.** -/
theorem partition_iff : b.Partition ↔ b.Fits := by
  constructor
  · exact fits_of_partition
  · intro h
    by_cases hq : b.extLen = 0
    · exact partition_of_fits_quiet hq h
    · exact partition_of_fits_loud hq h

end TxBlk

theorem length8023_le_sixty : length8023 ≤ (60 : BitVec 32).toNat := by decide

/-- A QoS frame of a packet in 802.3 format, in the clear, under a threshold that is just its header
and CRC. -/
def stuck : TxBlk where
  mem _ := 0
  pSrcBufHeader := 64
  SrcBufLen := 60
  pHeader := 0
  FragmentThreshold := 30
  bWMM := true
  bSwEncrypt := false
  UserPriority := 0
  CipherAlg := .none
  KeyIdx := 0
  pTxTsc := 0
  pKey := { KeyLen := 0, Key := fun _ => 0, TxMic := [] }
  Tx := ⟨0, 0, 0, 0, 0, 0, []⟩
  os := ⟨none, false⟩
  header := length8023_le_sixty
  tag h := absurd h (by decide)
  room := by decide
  apart := by decide
  firstFrag := rfl

/-- The threshold is one that is set, the packet is marked for fragments, and it is not
partitioned. -/
theorem stuck_broken : rtIoctlSiwfrag false 30 = some stuck.FragmentThreshold ∧
    1 < (numberOfFrag stuck.FragmentThreshold stuck.SrcBufLen).toNat ∧ ¬ stuck.Partition := by
  refine ⟨by decide, by decide, fun h => ?_⟩
  have hsize := (TxBlk.sizeFits_quiet rfl).mp (TxBlk.fits_of_partition h).size
  exact absurd hsize.2 (by decide)

end ExtDrv.Rt3370.Frag
