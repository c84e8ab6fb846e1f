import ExtDrv.Lib.Blocks
import ExtDrv.Rt3370.Fragment

/-!
# The stream that is fragmented

In front of its loop `STA_Fragment_Frame_Tx` has laid out one stream of bytes: its lead, behind
the 802.11 header, and the rest in the packet's buffer. `prepared` says so of both ways to lay it
out, the hardware's and the one of software encryption.
-/

namespace ExtDrv.Rt3370.Frag

open Memory Blocks Loop
open Ccm (Byte)
open Tkip

namespace TxBlk

variable (b : TxBlk)

/-! ## The stream -/

/-- The bytes of `iv_offset`. -/
def ivLen : Nat :=
  if b.bSwEncrypt then if b.CipherAlg.isWep then 4 else if b.CipherAlg = .aes then 8 else 0 else 0

/-- `ext_offset`. -/
def extLen : Nat :=
  if b.bSwEncrypt then if b.CipherAlg.isWep then 4 else if b.CipherAlg = .aes then 8 else 0 else 0

/-- The type that selects the encapsulation: the one in front of the data for software encryption,
the one in the Ethernet header else. -/
def encapType : List Byte :=
  if b.bSwEncrypt then segment b.buf (12 + b.vlanSize) 2 else segment b.buf 12 2

/-- `pExtraLlcSnapEncap`. -/
def encap : Option (List Byte) := extraLlcSnapEncap b.encapType

/-- The LLC header. -/
def llc : List Byte :=
  match b.encap with
  | some snap => snap ++ segment b.buf (12 + b.vlanSize) 2
  | none => []

/-- The header and the data. -/
def payload : List Byte :=
  b.llc ++ segment b.buf (14 + b.vlanSize) (b.SrcBufLen.toNat - (14 + b.vlanSize))

/-- The packet the MIC is calculated of. -/
def micBuf : Mem :=
  match b.encap with
  | some snap => if b.bSwEncrypt then store b.buf (6 + b.vlanSize) snap else b.buf
  | none => b.buf

/-- What `RTMPCalculateMICValue` hashes of a packet. -/
def hashedOf (buf : Mem) (len : Nat) (up : Byte) (pEncap : Option (List Byte)) : List Byte :=
  let vlanOffset := if typeAt buf 12 = 0x8100 then 4 else 0
  let llc := match pEncap with
    | some encap => encap.take 6 ++ segment buf (12 + vlanOffset) 2
    | none => []
  segment buf 0 6 ++ segment buf 6 6 ++ [up, 0, 0, 0] ++ llc
    ++ segment buf (14 + vlanOffset) (len - (14 + vlanOffset))

/-- The MIC of a message. -/
def micOf (msg : List Byte) : List Byte :=
  let s := michael (rtmpTkipGetUInt32 b.pKey.TxMic, rtmpTkipGetUInt32 (b.pKey.TxMic.drop 4)) msg
  rtmpTkipPutUInt32 s.1 ++ rtmpTkipPutUInt32 s.2

/-- The MIC behind the payload. -/
def sentMic : List Byte :=
  if b.CipherAlg = .tkip then
    b.micOf (hashedOf b.micBuf b.SrcBufLen.toNat b.UserPriority b.encap)
  else []

/-- The payload and its MIC. -/
def stream : List Byte := b.payload ++ b.sentMic

/-- What of the stream is in the header buffer. -/
def lead : List Byte := if b.bSwEncrypt then [] else b.llc

/-- **What is laid out**, of the bytes `s`. -/
structure Prepared (s : List Byte) (r : Ready) : Prop where
  hdr : r.MpduHeaderLen.toNat = b.macHeaderLen + b.ivLen + b.lead.length
  lead : segment r.mem (b.payloadAt + b.ivLen) b.lead.length = b.lead
  stream : b.lead ++ segment r.mem r.pSrcBufData r.SrcBufLen.toNat = s
  encap : r.pExtraLlcSnapEncap = b.encap
  start : b.pSrcBufHeader ≤ r.pSrcBufData
  ends : r.pSrcBufData + r.SrcBufLen.toNat + b.payload.length
    = b.pSrcBufHeader + b.SrcBufLen.toNat + s.length
  packet : ∀ i, i < b.SrcBufLen.toNat → r.mem (b.pSrcBufHeader + i) = b.micBuf i
  firstFrag : r.mem (b.pHeader + 22) &&& 0x0f = 0

end TxBlk

/-! ## Small facts -/

theorem length_extraLlcSnapEncap {type snap : List Byte} (h : extraLlcSnapEncap type = some snap) :
    snap.length = 6 := by
  unfold extraLlcSnapEncap at h
  split_ifs at h
  all_goals
    cases h
    rfl

theorem calculate_MIC (tx : TkipKeyInfo) (buf : Mem) (len : BitVec 32) (up : Byte)
    (pEncap : Option (List Byte)) (micKey : List Byte) (hlen : 14 ≤ len.toNat)
    (htag : typeAt buf 12 = 0x8100 → 18 ≤ len.toNat) :
    (rtmpCalculateMICValue tx buf len up pEncap micKey).MIC =
      let s := michael (rtmpTkipGetUInt32 micKey, rtmpTkipGetUInt32 (micKey.drop 4))
        (TxBlk.hashedOf buf len.toNat up pEncap)
      rtmpTkipPutUInt32 s.1 ++ rtmpTkipPutUInt32 s.2 := by
  rw [← getMIC_MIC tx]
  unfold rtmpCalculateMICValue TxBlk.hashedOf
  have hsub : (len - BitVec.ofNat 32 (14 + if typeAt buf 12 = 0x8100 then 4 else 0)).toNat
      = len.toNat - (14 + if typeAt buf 12 = 0x8100 then 4 else 0) := by
    split_ifs with h
    · have := htag h
      bv_omega
    · bv_omega
  have hinit : rtmpInitMICEngine tx (segment buf 0 6) (segment buf 6 6) up micKey
      = rtmpTkipAppend (rtmpTkipSetMICKey tx micKey)
          (segment buf 0 6 ++ segment buf 6 6 ++ [up, 0, 0, 0]) := by
    rw [rtmpInitMICEngine, append_append, append_append]
    rfl
  simp only [EthPacket.append_if_pos, hsub, hinit]
  cases pEncap with
  | none => simp only [append_append, List.append_nil]
  | some encap => simp only [append_append, List.append_assoc]

/-- Two packets that agree in their bytes are hashed alike. -/
theorem hashedOf_congr {buf buf' : Mem} {len : Nat} (h : ∀ i, i < len → buf i = buf' i)
    (hlen : 14 ≤ len) (htag : typeAt buf 12 = 0x8100 → 18 ≤ len) (up : Byte)
    (pEncap : Option (List Byte)) :
    TxBlk.hashedOf buf len up pEncap = TxBlk.hashedOf buf' len up pEncap := by
  have htype : typeAt buf 12 = typeAt buf' 12 := by
    rw [typeAt, typeAt, h 12 (by omega), h 13 (by omega)]
  have hseg : ∀ o n, o + n ≤ len → segment buf o n = segment buf' o n := by
    intro o n hn
    refine segment_congr fun i hi => h _ (by omega)
  obtain ⟨v, hv⟩ : ∃ v, v = if typeAt buf' 12 = 0x8100 then 4 else 0 := ⟨_, rfl⟩
  have hvlan : 14 + v ≤ len := by
    rw [hv]
    split_ifs with h8
    · have := htag (htype.trans h8)
      omega
    · omega
  simp only [TxBlk.hashedOf, htype, ← hv]
  rw [hseg 0 6 (by omega), hseg 6 6 (by omega), hseg (12 + v) 2 (by omega),
    hseg (14 + v) (len - (14 + v)) (by omega)]

namespace TxBlk

variable (b : TxBlk)

/-! ### Where things are -/

theorem vlanSize_le : 14 + b.vlanSize ≤ b.SrcBufLen.toNat := by
  have hheader : 14 ≤ b.SrcBufLen.toNat := b.header
  unfold vlanSize
  split_ifs with h
  · exact b.tag h
  · exact hheader

theorem dataLen_toNat : b.dataLen.toNat = b.SrcBufLen.toNat - (14 + b.vlanSize) := by
  have hle := b.vlanSize_le
  have hlt := b.room
  simp only [dataLen, length8023]
  bv_omega

/-- The header with its padding, and eight bytes behind it, are in the header buffer. -/
theorem payloadAt_mem : b.pHeader + b.macHeaderLen ≤ b.payloadAt ∧ 24 ≤ b.macHeaderLen ∧
    b.macHeaderLen ≤ 26 ∧ b.payloadAt + 8 ≤ b.pHeader + 48 := by
  have hmac : b.macHeaderLen = 24 ∨ b.macHeaderLen = 26 := by
    unfold macHeaderLen
    split_ifs
    · exact .inr rfl
    · exact .inl rfl
  unfold payloadAt hdrPadLen
  omega

/-- What is stored behind the header does not reach the packet. -/
theorem store_payloadAt (m : Mem) {bs : List Byte} (hbs : bs.length ≤ 8) {i : Nat}
    (hi : i < b.SrcBufLen.toNat + 16) :
    store m b.payloadAt bs (b.pSrcBufHeader + i) = m (b.pSrcBufHeader + i) := by
  have hat := b.payloadAt_mem
  have hapart := b.apart
  exact store_outside (by omega)

theorem withQos_packet {i : Nat} (hi : i < b.SrcBufLen.toNat + 16) :
    b.withQos (b.pSrcBufHeader + i) = b.buf i := by
  have hapart := b.apart
  unfold withQos
  split_ifs
  · exact store_outside (by simp only [List.length_cons, List.length_nil]; omega)
  · rfl

theorem withQos_firstFrag : b.withQos (b.pHeader + 22) &&& 0x0f = 0 := by
  rw [← b.firstFrag]
  unfold withQos
  split_ifs
  · rw [store_outside (by omega)]
  · rfl

theorem packetVlan_of_typeAt (h : typeAt b.buf 12 = 0x8100) : packetVlan b.buf = true :=
  (EthPacket.packetVlan_iff ⟨b.buf, b.SrcBufLen, b.header, b.tag⟩).mpr (.inl h)

theorem length_llc : b.llc.length = if b.encap.isSome then 8 else 0 := by
  unfold llc
  cases h : b.encap with
  | none => rfl
  | some snap => simp [length_extraLlcSnapEncap h]

theorem length_payload :
    b.payload.length = b.llc.length + (b.SrcBufLen.toNat - (14 + b.vlanSize)) := by
  simp [payload]

/-! ### The two ways to lay it out -/

theorem segment_withQos {o n : Nat} (h : o + n ≤ b.SrcBufLen.toNat) :
    segment b.withQos (b.pSrcBufHeader + o) n = segment b.buf o n := by
  refine segment_congr fun i hi => ?_
  rw [Nat.add_assoc]
  exact b.withQos_packet (by omega)

/-- Behind the 802.11 header. -/
theorem plainReady_prepared (h : b.bSwEncrypt = false) :
    b.Prepared b.payload (b.plainReady b.withQos) := by
  have hvlan := b.vlanSize_le
  have hat := b.payloadAt_mem
  have htype : segment b.withQos (b.pSrcBufHeader + 12) 2 = segment b.buf 12 2 :=
    b.segment_withQos (by omega)
  have hinner : segment b.withQos (b.pSrcBufHeader + 12 + b.vlanSize) 2
      = segment b.buf (12 + b.vlanSize) 2 := by
    rw [Nat.add_assoc]
    exact b.segment_withQos (by omega)
  have hencap : extraLlcSnapEncap (segment b.buf 12 2) = b.encap := by
    simp [encap, encapType, h]
  have hready : b.plainReady b.withQos =
      { mem := store b.withQos b.payloadAt b.llc
        pSrcBufData := b.dataStart
        SrcBufLen := b.dataLen
        MpduHeaderLen := BitVec.ofNat 8 (b.macHeaderLen + b.llc.length)
        pHeaderBufPtr := b.payloadAt + b.llc.length
        pExtraLlcSnapEncap := b.encap } := by
    simp only [plainReady, htype, hinner, hencap]
    rfl
  have hlen : b.llc.length ≤ 8 := by
    rw [b.length_llc]
    split_ifs <;> omega
  have hiv : b.ivLen = 0 := by simp [ivLen, h]
  have hlead : b.lead = b.llc := by simp [TxBlk.lead, h]
  have hpacket : ∀ i, i < b.SrcBufLen.toNat →
      store b.withQos b.payloadAt b.llc (b.pSrcBufHeader + i) = b.buf i := by
    intro i hi
    rw [b.store_payloadAt _ hlen (by omega), b.withQos_packet (by omega)]
  rw [hready]
  constructor <;> dsimp only
  case hdr =>
    rw [hiv, hlead, BitVec.toNat_ofNat]
    omega
  case lead =>
    rw [hiv, hlead]
    exact segment_store_self _ _ _
  case stream =>
    rw [hlead, b.dataLen_toNat, payload]
    congr 1
    refine segment_congr fun i hi => ?_
    rw [dataStart, length8023, Nat.add_assoc, Nat.add_assoc, hpacket _ (by omega), Nat.add_assoc]
  case start => exact Nat.le_trans (Nat.le_add_right _ 14) (Nat.le_add_right _ _)
  case ends =>
    simp only [b.dataLen_toNat, dataStart, length8023]
    omega
  case packet =>
    intro i hi
    rw [hpacket i hi, micBuf, h]
    cases b.encap <;> rfl
  case firstFrag =>
    rw [store_outside (by omega)]
    exact b.withQos_firstFrag

theorem length_rtmpSoftConstructIvHdr (h : b.bSwEncrypt = true) {txIv : List Byte}
    (hiv : txIv.length = 6) :
    (rtmpSoftConstructIvHdr b.CipherAlg b.KeyIdx txIv).length = b.ivLen := by
  simp only [rtmpSoftConstructIvHdr, ivLen, h, if_true]
  split_ifs
  · simp [Wep.rtmpConstructWepIvHdr, hiv]
  · rfl
  · rfl

theorem ivLen_le : b.ivLen ≤ 8 := by
  unfold ivLen
  split_ifs <;> omega

/-- With the encapsulation in front of it, the data is the payload. -/
theorem segment_micBuf (h : b.bSwEncrypt = true) :
    segment b.micBuf (14 + b.vlanSize - b.llc.length)
      (b.llc.length + (b.SrcBufLen.toNat - (14 + b.vlanSize))) = b.payload := by
  have hlen := b.length_llc
  unfold payload
  obtain ⟨n, hn⟩ : ∃ n, n = b.SrcBufLen.toNat - (14 + b.vlanSize) := ⟨_, rfl⟩
  rw [← hn]
  cases he : b.encap with
  | none =>
      have hllc : b.llc = [] := by simp [llc, he]
      simp [hllc, micBuf, he]
  | some snap =>
      have hsnap : snap.length = 6 := length_extraLlcSnapEncap he
      have hllc : b.llc = snap ++ segment b.buf (12 + b.vlanSize) 2 := by simp [llc, he]
      have hat : 14 + b.vlanSize - b.llc.length = 6 + b.vlanSize := by
        simp only [hlen, he, Option.isSome_some, if_true]
        omega
      have hcount : b.llc.length + n = snap.length + (2 + n) := by
        simp only [hlen, he, Option.isSome_some, if_true, hsnap]
        omega
      have hbehind : 6 + b.vlanSize + snap.length = 12 + b.vlanSize := by omega
      have hdata : 12 + b.vlanSize + 2 = 14 + b.vlanSize := by omega
      simp only [hat, hcount, micBuf, he, h, if_true]
      rw [segment_store_front, hbehind, segment_add, hdata, hllc, List.append_assoc]

/-- In front of the data. -/
theorem softReady_prepared (h : b.bSwEncrypt = true) :
    b.Prepared b.payload (b.softReady b.withQos) := by
  have hvlan := b.vlanSize_le
  have hat := b.payloadAt_mem
  have hroom := b.room
  have hivLen := b.ivLen_le
  have htype : segment b.withQos (b.dataStart - 2) 2 = segment b.buf (12 + b.vlanSize) 2 := by
    rw [show b.dataStart - 2 = b.pSrcBufHeader + (12 + b.vlanSize) by
      simp only [dataStart, length8023]; omega]
    exact b.segment_withQos (by omega)
  have hencap : extraLlcSnapEncap (segment b.buf (12 + b.vlanSize) 2) = b.encap := by
    simp [encap, encapType, h]
  have hlead : b.lead = [] := by simp [TxBlk.lead, h]
  obtain ⟨m, hm⟩ : ∃ m, m = (match b.encap with
    | some snap => store b.withQos (b.dataStart - 8) snap
    | none => b.withQos) := ⟨_, rfl⟩
  have hpacket : ∀ i, i < b.SrcBufLen.toNat → m (b.pSrcBufHeader + i) = b.micBuf i := by
    intro i hi
    have hqos := b.withQos_packet (i := i) (by omega)
    rw [hm, micBuf, h]
    cases b.encap with
    | none => exact hqos
    | some snap =>
        simp only [if_true, store, dataStart, length8023, hqos]
        congr 1
        · simp only [eq_iff_iff]
          omega
        · congr 1
          omega
  obtain ⟨iv, hiv⟩ : ∃ iv, iv = rtmpSoftConstructIvHdr b.CipherAlg b.KeyIdx
    (segment m b.pTxTsc 6) := ⟨_, rfl⟩
  have hlen : iv.length = b.ivLen := by
    rw [hiv]
    exact b.length_rtmpSoftConstructIvHdr h (length_segment _ _ _)
  have hready : b.softReady b.withQos =
      { mem := store m b.payloadAt iv
        pSrcBufData := b.dataStart - b.llc.length
        SrcBufLen := b.dataLen + BitVec.ofNat 32 b.llc.length
        MpduHeaderLen := BitVec.ofNat 8 (b.macHeaderLen + iv.length)
        pHeaderBufPtr := b.payloadAt + iv.length
        pExtraLlcSnapEncap := b.encap } := by
    rw [b.length_llc, hiv, hm]
    simp only [softReady, htype, hencap]
    rfl
  have hllc : b.llc.length ≤ 14 + b.vlanSize ∧ b.llc.length ≤ 8 := by
    rw [b.length_llc]
    split_ifs <;> omega
  have hstored : ∀ i, i < b.SrcBufLen.toNat →
      store m b.payloadAt iv (b.pSrcBufHeader + i) = b.micBuf i := by
    intro i hi
    rw [b.store_payloadAt _ (by omega) (by omega), hpacket i hi]
  have hfrom : b.dataStart - b.llc.length
      = b.pSrcBufHeader + (14 + b.vlanSize - b.llc.length) := by
    simp only [dataStart, length8023]
    omega
  have hdataLen : (b.dataLen + BitVec.ofNat 32 b.llc.length).toNat
      = b.llc.length + (b.SrcBufLen.toNat - (14 + b.vlanSize)) := by
    rw [BitVec.toNat_add, b.dataLen_toNat, BitVec.toNat_ofNat]
    omega
  rw [hready]
  constructor <;> dsimp only
  case hdr =>
    rw [hlead, hlen, BitVec.toNat_ofNat, List.length_nil]
    omega
  case lead => rw [hlead, List.length_nil, segment_zero]
  case stream =>
    rw [hlead, hfrom, hdataLen, List.nil_append, ← b.segment_micBuf h]
    refine segment_congr fun i hi => ?_
    rw [Nat.add_assoc, hstored _ (by omega)]
  case start =>
    rw [hfrom]
    exact Nat.le_add_right _ _
  case ends =>
    rw [hfrom, hdataLen]
    omega
  case packet => exact hstored
  case firstFrag =>
    rw [store_outside (by omega), ← b.withQos_firstFrag, hm]
    have hapart := b.apart
    cases he : b.encap with
    | none => rfl
    | some snap =>
        have hsnap : snap.length = 6 := length_extraLlcSnapEncap he
        simp only [dataStart, length8023]
        rw [store_outside (by omega)]

/-! ### The MIC -/

/-- A packet whose MIC is calculated holds the tag it is marked for. -/
theorem typeAt_micBuf (h : typeAt b.micBuf 12 = 0x8100) : 18 ≤ b.SrcBufLen.toNat := by
  have hvlan := b.vlanSize_le
  by_cases hv : packetVlan b.buf = true
  · exact b.tag hv
  · have hsize : b.vlanSize = 0 := if_neg hv
    have hsame : ∀ i, 12 ≤ i → b.micBuf i = b.buf i := by
      intro i hi
      unfold micBuf
      cases he : b.encap with
      | none => rfl
      | some snap =>
          have hsnap : snap.length = 6 := length_extraLlcSnapEncap he
          dsimp only
          split_ifs
          · exact store_outside (by omega)
          · rfl
    rw [typeAt, hsame 12 (Nat.le_refl _), hsame 13 (by omega)] at h
    exact absurd (b.packetVlan_of_typeAt h) hv

theorem length_sentMic : b.sentMic.length = if b.CipherAlg = .tkip then 8 else 0 := by
  unfold sentMic
  split_ifs <;> rfl

theorem Prepared.data {s : List Byte} {r : Ready} (h : b.Prepared s r) :
    b.lead.length + r.SrcBufLen.toNat = s.length := by
  rw [← h.stream, List.length_append, length_segment]

theorem withMic_prepared {r : Ready} (h : b.Prepared b.payload r) :
    b.Prepared b.stream (b.withMic r) := by
  by_cases ht : b.CipherAlg = .tkip
  · have hroom := b.room
    have hends := h.ends
    have hstart := h.start
    have hapart := b.apart
    have hat := b.payloadAt_mem
    have hiv : b.ivLen = 0 := by simp [ivLen, ht, CipherAlg.isWep]
    have hpacket : ∀ i, i < b.SrcBufLen.toNat →
        (fun i => r.mem (b.pSrcBufHeader + i)) i = b.micBuf i := h.packet
    have hmic : (rtmpCalculateMICValue b.Tx (fun i => r.mem (b.pSrcBufHeader + i)) b.SrcBufLen
        b.UserPriority r.pExtraLlcSnapEncap b.pKey.TxMic).MIC.take 8 = b.sentMic := by
      have htype : typeAt (fun i => r.mem (b.pSrcBufHeader + i)) 12 = typeAt b.micBuf 12 := by
        have hheader : 14 ≤ b.SrcBufLen.toNat := b.header
        rw [typeAt, typeAt, ← hpacket 12 (by omega), ← hpacket 13 (by omega)]
      have htag : typeAt (fun i => r.mem (b.pSrcBufHeader + i)) 12 = 0x8100 →
          18 ≤ b.SrcBufLen.toNat := by
        intro h8
        exact b.typeAt_micBuf (htype ▸ h8)
      rw [calculate_MIC _ _ _ _ _ _ b.header htag, hashedOf_congr hpacket b.header htag, h.encap,
        sentMic, if_pos ht]
      rfl
    have hlen : b.sentMic.length = 8 := by rw [b.length_sentMic, if_pos ht]
    have hmicLen : (r.SrcBufLen + 8).toNat = r.SrcBufLen.toNat + b.sentMic.length := by
      rw [hlen]
      bv_omega
    have hready : b.withMic r = { r with
        mem := store r.mem (r.pSrcBufData + r.SrcBufLen.toNat) b.sentMic
        SrcBufLen := r.SrcBufLen + 8 } := by
      simp only [withMic, if_pos ht, hmic]
    rw [hready]
    constructor <;> dsimp only
    case hdr => exact h.hdr
    case lead =>
      rw [← h.lead, length_segment]
      refine segment_congr fun i hi => ?_
      have hlead : b.lead.length ≤ 8 := by
        unfold TxBlk.lead
        split_ifs
        · exact Nat.zero_le 8
        · rw [b.length_llc]
          split_ifs <;> omega
      exact store_outside (by omega)
    case stream =>
      rw [hmicLen, segment_store_behind, ← List.append_assoc, h.stream, TxBlk.stream]
    case encap => exact h.encap
    case start => exact h.start
    case ends =>
      rw [TxBlk.stream, List.length_append, hmicLen]
      omega
    case packet =>
      intro i hi
      rw [store_outside (by omega)]
      exact h.packet i hi
    case firstFrag =>
      rw [store_outside (by omega)]
      exact h.firstFrag
  · have hstream : b.stream = b.payload := by simp [TxBlk.stream, sentMic, ht]
    rw [hstream, withMic, if_neg ht]
    exact h

/-- **Either way the stream is laid out.** -/
theorem prepared : b.Prepared b.stream b.ready := by
  unfold ready
  refine b.withMic_prepared ?_
  split_ifs with h
  · exact b.softReady_prepared h
  · exact b.plainReady_prepared (Bool.eq_false_iff.mpr h)

end TxBlk

end ExtDrv.Rt3370.Frag
