import ExtDrv.Rt3370.FragmentStream

/-!
# The loop of the fragments

One turn of the loop of `STA_Fragment_Frame_Tx` for a frame that is not enciphered behind the
text: the turn sends the next piece of the stream, and it is the last one exactly if what is left
fits `FreeMpduSize`. Whatever the threshold, the fragments of a loop that ends within sixteen turns
are the stream.
-/

namespace ExtDrv.Rt3370.Frag

open Memory Blocks Loop
open Ccm (Byte)

/-! ## What is seen of a fragment -/

namespace Written

variable (w : Written)

/-- `Frag`. -/
def fragField : Nat := (w.header.getD 22 0 &&& 0x0f).toNat

/-- `FC.MoreFrag`. -/
def moreFrag : Bool := w.header.getD 1 0 &&& 0x04 != 0

/-- The text, with what is in front of it behind the first `skip` bytes of the header. -/
def plain (skip : Nat) : List Byte := w.header.drop skip ++ w.text

/-- The length of the MPDU, with its CRC. -/
def mpduLen : Nat := w.MpduHeaderLen.toNat + w.source.length + 4

theorem fragField_lt : w.fragField < 16 := by
  rw [fragField, BitVec.toNat_and]
  exact Nat.lt_succ_of_le Nat.and_le_right

end Written

namespace TxBlk

variable (b : TxBlk)

/-- The 802.11 header, its padding and the IV header. -/
def skip : Nat := b.macHeaderLen + b.hdrPadLen + b.ivLen

/-- What is sent in front of the data by fragment `j`. -/
def ahead (j : Nat) : List Byte := if j = 0 then b.lead else []

/-- `MpduHeaderLen` of fragment `j`. -/
def hdrLen (j : Nat) : Nat := b.macHeaderLen + b.ivLen + (b.ahead j).length

/-- `FreeMpduSize` of fragment `j`. -/
def free (j : Nat) : Nat := (b.freeMpduSize (BitVec.ofNat 8 (b.hdrLen j))).toNat

/-- `len` bytes from `off` on, with what is ahead of fragment `j`. -/
def piece (j off len : Nat) : List Byte :=
  b.ahead j ++ segment b.ready.mem (b.ready.pSrcBufData + off) len

/-- The bytes of the data. -/
def size : Nat := b.ready.SrcBufLen.toNat

/-- The loop, from a state on. -/
def loop (s : FragState) : Running Empty (List Written) :=
  fun n => iterate (b.fragTurn b.ready (segment b.ready.mem b.ready.pSrcBufData b.size)) n s

/-- `j` fragments are sent, and `off` bytes of the data. -/
structure Sent (j off : Nat) (s : FragState) : Prop where
  few : j ≤ 16
  fragNum : s.fragNum = BitVec.ofNat 8 j
  data : s.pSrcBufData = b.ready.pSrcBufData + off
  offset : s.bufOffset.toNat = off
  remaining : s.SrcRemainingBytes.toNat + off = b.size
  hdr : s.MpduHeaderLen = BitVec.ofNat 8 (b.hdrLen j)
  mem : ∀ i, i ≠ b.pHeader + 1 → i ≠ b.pHeader + 22 → s.mem i = b.ready.mem i
  frag : (s.mem (b.pHeader + 22) &&& 0x0f).toNat = j % 16

/-- Fragment `j`, of `len` bytes from `off` on. -/
structure IsPiece (w : Written) (j off len : Nat) (more : Bool) : Prop where
  plain : w.plain b.skip = b.piece j off len
  source : w.source = w.text
  frag : w.fragField = j % 16
  more : w.moreFrag = more
  mpdu : w.mpduLen = b.hdrLen j + len + 4

/-! ## The header bits -/

theorem setMoreFrag_same (more : Bool) (m : Mem) {i : Nat} (h : i ≠ b.pHeader + 1) :
    b.setMoreFrag more m i = m i :=
  Function.update_of_ne h _ _

theorem setMoreFrag_at (more : Bool) (m : Mem) :
    (b.setMoreFrag more m (b.pHeader + 1) &&& 0x04 != 0) = more := by
  have hset : ∀ v : Byte, ((v ||| 0x04) &&& 0x04 != 0) = true := by decide +kernel
  have hclear : ∀ v : Byte, ((v &&& 0xfb) &&& 0x04 != 0) = false := by decide +kernel
  rw [setMoreFrag, Function.update_self]
  cases more
  · exact hclear _
  · exact hset _

theorem nextFrag_same (m : Mem) {i : Nat} (h : i ≠ b.pHeader + 22) : b.nextFrag m i = m i :=
  Function.update_of_ne h _ _

theorem nextFrag_at (m : Mem) :
    (b.nextFrag m (b.pHeader + 22) &&& 0x0f).toNat
      = ((m (b.pHeader + 22) &&& 0x0f).toNat + 1) % 16 := by
  have hnext : ∀ v : Byte, (((v &&& 0xf0) ||| ((v + 1) &&& 0x0f)) &&& 0x0f).toNat
      = ((v &&& 0x0f).toNat + 1) % 16 := by decide +kernel
  rw [nextFrag, Function.update_self]
  exact hnext _

/-- The data is away from the header. -/
theorem data_apart : b.pHeader + 48 ≤ b.ready.pSrcBufData ∨
    b.ready.pSrcBufData + b.size + 8 ≤ b.pHeader := by
  have h := b.prepared
  have hstart := h.start
  have hends := h.ends
  have hapart := b.apart
  have hmic := b.length_sentMic
  have hmicLen : b.sentMic.length ≤ 8 := by
    rw [hmic]
    split_ifs <;> omega
  rw [stream, List.length_append] at hends
  unfold size
  omega

/-! ## A turn -/

variable {b}

/-- The data that is still to send is as it was. -/
theorem Sent.text {j off : Nat} {s : FragState} (hs : b.Sent j off s) (more : Bool) {n : Nat}
    (hn : off + n ≤ b.size) :
    segment (b.setMoreFrag more s.mem) s.pSrcBufData n
      = segment b.ready.mem (b.ready.pSrcBufData + off) n := by
  have hapart := b.data_apart
  rw [hs.data]
  refine segment_congr fun i hi => ?_
  rw [b.setMoreFrag_same _ _ (by omega)]
  exact hs.mem _ (by omega) (by omega)

/-- What was stored of the frame is still in its place. -/
theorem Sent.restored {j off : Nat} {s : FragState} (hs : b.Sent j off s) (more : Bool) {n : Nat}
    (hn : off + n ≤ b.size) :
    store (b.setMoreFrag more s.mem) s.pSrcBufData
      (((segment b.ready.mem b.ready.pSrcBufData b.size).drop s.bufOffset.toNat).take n)
      = b.setMoreFrag more s.mem := by
  have hslice : ((segment b.ready.mem b.ready.pSrcBufData b.size).drop off).take n
      = segment b.ready.mem (b.ready.pSrcBufData + off) n := by
    obtain ⟨k, hk⟩ : ∃ k, b.size = off + (n + k) := ⟨b.size - off - n, by omega⟩
    rw [hk, segment_add, List.drop_left' (length_segment _ _ _), segment_add,
      List.take_left' (length_segment _ _ _)]
  rw [hs.offset, hslice, ← hs.text more hn, store_segment]

/-- The length of the next fragment, and whether it is the last. -/
def lastLen (j : Nat) (s : FragState) : Bool × BitVec 32 :=
  let free := b.freeMpduSize (BitVec.ofNat 8 (b.hdrLen j))
  let last : Bool := s.SrcRemainingBytes.toNat ≤ free.toNat
  (last, if last then s.SrcRemainingBytes else free)

/-- The memory with the text enciphered, and what that adds. -/
def enciphered (b : TxBlk) (o : Nat) (n : BitVec 32) (m : Mem) : Mem × BitVec 32 :=
  if b.bSwEncrypt then b.rtmpSoftEncryptionAction o n m else (m, 0)

theorem quiet_action (hq : b.extLen = 0) (h : b.bSwEncrypt = true) (o : Nat) (n : BitVec 32)
    (m : Mem) : b.rtmpSoftEncryptionAction o n m = (m, 0) := by
  simp only [extLen, h, if_true] at hq
  unfold rtmpSoftEncryptionAction
  split_ifs at hq ⊢; rfl

theorem quiet_nextIv (hq : b.extLen = 0) (h : b.bSwEncrypt = true) (o : Nat) (m : Mem) :
    b.nextIv o m = m := by
  simp only [extLen, h, if_true] at hq
  unfold nextIv
  split_ifs at hq ⊢; rfl

/-- What a turn does. -/
theorem sendFragment_eq {j off : Nat} {s : FragState}
    (hs : b.Sent j off s) {last : Bool} {len : BitVec 32} (hlast : lastLen (b := b) j s = (last, len))
    (hlen : off + len.toNat ≤ b.size) {m : Mem} {ext : BitVec 32}
    (henc : b.enciphered s.pSrcBufData len (b.setMoreFrag (!last) s.mem) = (m, ext)) :
    b.sendFragment b.ready (segment b.ready.mem b.ready.pSrcBufData b.size) s =
      { mem := b.nextFrag (if b.bSwEncrypt then b.nextIv b.ready.pHeaderBufPtr m else m)
        pSrcBufData := s.pSrcBufData + (len + ext).toNat
        SrcRemainingBytes := s.SrcRemainingBytes - len
        MpduHeaderLen := if b.bSwEncrypt = false ∧ s.fragNum = 0 ∧
            b.ready.pExtraLlcSnapEncap.isSome then s.MpduHeaderLen - 8 else s.MpduHeaderLen
        fragNum := s.fragNum + 1
        TotalFragNum := if last then s.fragNum.setWidth 16 else s.TotalFragNum
        bufOffset := s.bufOffset + len
        written := s.written ++ [
          { fragNum := s.fragNum
            TotalFragNum := if last then s.fragNum.setWidth 16 else s.TotalFragNum
            MpduHeaderLen := s.MpduHeaderLen
            header := segment m b.pHeader (s.MpduHeaderLen.toNat + b.hdrPadLen)
            text := segment (b.setMoreFrag (!last) s.mem) s.pSrcBufData len.toNat
            source := segment m s.pSrcBufData (len + ext).toNat }] } := by
  have hrestored := hs.restored (!last) hlen
  simp only [lastLen, ← hs.hdr, Prod.mk.injEq] at hlast
  obtain ⟨h1, h2⟩ := hlast
  subst h1
  simp only [enciphered] at henc
  simp only [sendFragment, h2, hrestored]
  cases h : b.bSwEncrypt with
  | false =>
      simp only [h, Bool.false_eq_true, if_false, Prod.mk.injEq] at henc
      obtain ⟨rfl, rfl⟩ := henc
      simp
  | true =>
      simp only [h, if_true] at henc
      simp [henc]

/-- A turn without a cipher. -/
theorem sendFragment_quiet (hq : b.extLen = 0) {j off : Nat} {s : FragState}
    (hs : b.Sent j off s) {last : Bool} {len : BitVec 32} (hlast : lastLen (b := b) j s = (last, len))
    (hlen : off + len.toNat ≤ b.size) :
    b.sendFragment b.ready (segment b.ready.mem b.ready.pSrcBufData b.size) s =
      { mem := b.nextFrag (b.setMoreFrag (!last) s.mem)
        pSrcBufData := s.pSrcBufData + len.toNat
        SrcRemainingBytes := s.SrcRemainingBytes - len
        MpduHeaderLen := if b.bSwEncrypt = false ∧ s.fragNum = 0 ∧
            b.ready.pExtraLlcSnapEncap.isSome then s.MpduHeaderLen - 8 else s.MpduHeaderLen
        fragNum := s.fragNum + 1
        TotalFragNum := if last then s.fragNum.setWidth 16 else s.TotalFragNum
        bufOffset := s.bufOffset + len
        written := s.written ++ [
          { fragNum := s.fragNum
            TotalFragNum := if last then s.fragNum.setWidth 16 else s.TotalFragNum
            MpduHeaderLen := s.MpduHeaderLen
            header := segment (b.setMoreFrag (!last) s.mem) b.pHeader
              (s.MpduHeaderLen.toNat + b.hdrPadLen)
            text := segment (b.setMoreFrag (!last) s.mem) s.pSrcBufData len.toNat
            source := segment (b.setMoreFrag (!last) s.mem) s.pSrcBufData len.toNat }] } := by
  have henc : b.enciphered s.pSrcBufData len (b.setMoreFrag (!last) s.mem)
      = (b.setMoreFrag (!last) s.mem, 0) := by
    unfold enciphered
    split_ifs with h
    · exact quiet_action hq h _ _ _
    · rfl
  rw [sendFragment_eq hs hlast hlen henc]
  cases h : b.bSwEncrypt with
  | false => simp
  | true => simp [quiet_nextIv hq h]

theorem quiet_ivLen (hq : b.extLen = 0) : b.ivLen = 0 := hq

theorem length_lead : b.lead.length = if b.bSwEncrypt = false ∧ b.encap.isSome then 8 else 0 := by
  unfold TxBlk.lead
  cases h : b.bSwEncrypt <;> simp [b.length_llc]

theorem length_ahead (j : Nat) : (b.ahead j).length ≤ 8 := by
  unfold ahead
  split_ifs
  · rw [length_lead]
    split_ifs <;> omega
  · exact Nat.zero_le 8

/-- The header is long enough for the fields. -/
theorem hdr_toNat (j : Nat) :
    (BitVec.ofNat 8 (b.hdrLen j)).toNat = b.hdrLen j := by
  have hat := b.payloadAt_mem
  have hahead := length_ahead (b := b) j
  have hiv := b.ivLen_le
  rw [BitVec.toNat_ofNat, hdrLen]
  omega

/-- What is ahead of a fragment is behind its header. -/
theorem segment_ahead (hq : b.extLen = 0) (j : Nat) :
    segment b.ready.mem b.payloadAt (b.ahead j).length = b.ahead j := by
  have hlead := b.prepared.lead
  rw [quiet_ivLen hq, Nat.add_zero] at hlead
  unfold ahead
  split_ifs
  · exact hlead
  · rfl

/-- What a turn writes. -/
theorem Sent.isPiece (hq : b.extLen = 0) {j off : Nat} {s : FragState} (hs : b.Sent j off s)
    (more : Bool) {n : Nat} (hn : off + n ≤ b.size) (total : BitVec 16) :
    b.IsPiece
      { fragNum := s.fragNum
        TotalFragNum := total
        MpduHeaderLen := s.MpduHeaderLen
        header := segment (b.setMoreFrag more s.mem) b.pHeader
          (s.MpduHeaderLen.toNat + b.hdrPadLen)
        text := segment (b.setMoreFrag more s.mem) s.pSrcBufData n
        source := segment (b.setMoreFrag more s.mem) s.pSrcBufData n } j off n more := by
  have hat := b.payloadAt_mem
  have hhdr : s.MpduHeaderLen.toNat = b.macHeaderLen + (b.ahead j).length := by
    rw [hs.hdr, hdr_toNat, hdrLen, quiet_ivLen hq, Nat.add_zero]
  have hbyte : ∀ i, i < b.macHeaderLen →
      (segment (b.setMoreFrag more s.mem) b.pHeader (s.MpduHeaderLen.toNat + b.hdrPadLen)).getD i 0
        = b.setMoreFrag more s.mem (b.pHeader + i) := by
    intro i hi
    rw [List.getD_eq_getElem?_getD, getElem?_segment _ (by omega)]
    rfl
  have hskip : b.skip = b.macHeaderLen + b.hdrPadLen := by
    rw [skip, quiet_ivLen hq, Nat.add_zero]
  constructor
  case plain =>
    have hlen : s.MpduHeaderLen.toNat + b.hdrPadLen = b.skip + (b.ahead j).length := by omega
    have hfrom : b.pHeader + b.skip = b.payloadAt := by
      rw [hskip, payloadAt, Nat.add_assoc]
    simp only [Written.plain, piece, hs.text more hn, hlen]
    congr 1
    rw [segment_add, List.drop_left' (length_segment _ _ _), hfrom]
    refine Eq.trans (segment_congr fun i hi => ?_) (segment_ahead hq j)
    rw [b.setMoreFrag_same _ _ (by omega)]
    exact hs.mem _ (by omega) (by omega)
  case source => rfl
  case frag =>
    simp only [Written.fragField]
    rw [hbyte 22 (by omega), b.setMoreFrag_same _ _ (by omega)]
    exact hs.frag
  case more =>
    simp only [Written.moreFrag]
    rw [hbyte 1 (by omega)]
    exact b.setMoreFrag_at more s.mem
  case mpdu =>
    simp only [Written.mpduLen, hs.hdr, hdr_toNat, length_segment]

/-- Behind the first fragment nothing is ahead of the data. -/
theorem Sent.nextHdr {j off : Nat} {s : FragState} (hs : b.Sent j off s) :
    (if b.bSwEncrypt = false ∧ s.fragNum = 0 ∧ b.ready.pExtraLlcSnapEncap.isSome
      then s.MpduHeaderLen - 8 else s.MpduHeaderLen)
      = BitVec.ofNat 8 (b.hdrLen (j + 1)) := by
  have hfew := hs.few
  have hfirst : s.fragNum = 0 ↔ j = 0 := by
    rw [hs.fragNum]
    bv_omega
  have hahead : b.hdrLen (j + 1) = b.macHeaderLen + b.ivLen := rfl
  simp only [b.prepared.encap, hfirst]
  rw [hs.hdr, hahead, hdrLen, ahead]
  by_cases hj : j = 0
  · rw [if_pos hj, length_lead]
    by_cases h : b.bSwEncrypt = false ∧ b.encap.isSome
    · rw [if_pos h, if_pos ⟨h.1, hj, h.2⟩, BitVec.ofNat_add]
      simp
    · rw [if_neg h, if_neg fun h' => h ⟨h'.1, h'.2.2⟩, Nat.add_zero]
  · rw [if_neg hj, if_neg fun h => hj h.2.1]
    rfl

/-- Another fragment is needed. -/
theorem Sent.next {j off n : Nat} {s s' : FragState} (hs : b.Sent j off s)
    {len : BitVec 32} (hn : len.toNat = n) (hle : off + n ≤ b.size) (hj : j < 16)
    (hmem : s'.mem = b.nextFrag (b.setMoreFrag true s.mem))
    (hdata : s'.pSrcBufData = s.pSrcBufData + len.toNat)
    (hremaining : s'.SrcRemainingBytes = s.SrcRemainingBytes - len)
    (hhdr : s'.MpduHeaderLen = BitVec.ofNat 8 (b.hdrLen (j + 1)))
    (hnum : s'.fragNum = s.fragNum + 1) (hoffset : s'.bufOffset = s.bufOffset + len) :
    b.Sent (j + 1) (off + n) s' := by
  have hold := hs.remaining
  have holdOffset := hs.offset
  have hlt : b.size < 2 ^ 32 := b.ready.SrcBufLen.isLt
  constructor
  case few => exact hj
  case fragNum =>
    rw [hnum, hs.fragNum, BitVec.ofNat_add]
    rfl
  case data => rw [hdata, hs.data, hn, Nat.add_assoc]
  case offset =>
    rw [hoffset, BitVec.toNat_add, hn, holdOffset]
    exact Nat.mod_eq_of_lt (by omega)
  case remaining =>
    have hsub : (s.SrcRemainingBytes - len).toNat = s.SrcRemainingBytes.toNat - n := by
      rw [← hn]
      exact BitVec.toNat_sub_of_le (BitVec.le_def.mpr (by omega))
    rw [hremaining, hsub]
    omega
  case hdr => exact hhdr
  case mem =>
    intro i h1 h22
    rw [hmem, b.nextFrag_same _ h22, b.setMoreFrag_same _ _ h1]
    exact hs.mem i h1 h22
  case frag =>
    rw [hmem, b.nextFrag_at, b.setMoreFrag_same _ _ (by omega), hs.frag]
    omega

/-- What a turn sends, of either kind. -/
theorem sendFragment_piece (hq : b.extLen = 0) {j off : Nat} {s : FragState}
    (hs : b.Sent j off s) {last : Bool} {len : BitVec 32} (hlast : lastLen (b := b) j s = (last, len))
    (hlen : off + len.toNat ≤ b.size) {s' : FragState}
    (hsend : b.sendFragment b.ready (segment b.ready.mem b.ready.pSrcBufData b.size) s = s') :
    s'.SrcRemainingBytes = s.SrcRemainingBytes - len ∧
      (∃ w, s'.written = s.written ++ [w] ∧ b.IsPiece w j off len.toNat (!last)) ∧
      (last = false → j < 16 → b.Sent (j + 1) (off + len.toNat) s') := by
  rw [sendFragment_quiet hq hs hlast hlen] at hsend
  subst hsend
  refine ⟨rfl, ⟨_, rfl, hs.isPiece hq (!last) hlen _⟩, ?_⟩
  intro hl hj
  subst hl
  exact hs.next rfl hlen hj rfl rfl rfl hs.nextHdr rfl rfl

/-- **A turn sends the next piece.** -/
theorem fragTurn_quiet (hq : b.extLen = 0) {j off : Nat} {s : FragState} (hs : b.Sent j off s) :
    (b.size - off ≤ b.free j ∧ ∃ w,
      b.fragTurn b.ready (segment b.ready.mem b.ready.pSrcBufData b.size) s = .ret (s.written ++ [w])
        ∧ b.IsPiece w j off (b.size - off) false) ∨
    (b.free j < b.size - off ∧ ∃ w s',
      b.fragTurn b.ready (segment b.ready.mem b.ready.pSrcBufData b.size) s = .next s'
        ∧ s'.written = s.written ++ [w] ∧ b.IsPiece w j off (b.free j) true
        ∧ (j < 16 → b.Sent (j + 1) (off + b.free j) s')) := by
  have hremaining := hs.remaining
  obtain ⟨s', hsend⟩ : ∃ s', b.sendFragment b.ready
    (segment b.ready.mem b.ready.pSrcBufData b.size) s = s' := ⟨_, rfl⟩
  by_cases hfit : s.SrcRemainingBytes.toNat ≤ b.free j
  · left
    have hlast : lastLen (b := b) j s = (true, s.SrcRemainingBytes) := by
      simp only [free] at hfit
      simp [lastLen, hfit]
    obtain ⟨hleft, ⟨w, hw, hpiece⟩, -⟩ := sendFragment_piece hq hs hlast (by omega) hsend
    refine ⟨by omega, w, ?_, ?_⟩
    · simp [fragTurn, hsend, hleft, hw]
    · rwa [show b.size - off = s.SrcRemainingBytes.toNat by omega]
  · right
    have hlast : lastLen (b := b) j s = (false,
        b.freeMpduSize (BitVec.ofNat 8 (b.hdrLen j))) := by
      simp only [free] at hfit
      simp [lastLen, hfit]
    have hle : off + b.free j ≤ b.size := by omega
    obtain ⟨hleft, ⟨w, hw, hpiece⟩, hnext⟩ := sendFragment_piece hq hs hlast hle hsend
    have hmore : 0 < s'.SrcRemainingBytes.toNat := by
      have hsub := BitVec.toNat_sub_of_le (x := s.SrcRemainingBytes)
        (y := b.freeMpduSize (BitVec.ofNat 8 (b.hdrLen j)))
        (BitVec.le_def.mpr (Nat.le_of_lt (Nat.lt_of_not_le hfit)))
      rw [hleft, hsub]
      exact Nat.sub_pos_of_lt (Nat.lt_of_not_le hfit)
    refine ⟨by omega, w, s', ?_, hw, hpiece, hnext rfl⟩
    simp [fragTurn, hsend, hmore]

/-- What is written stays. -/
theorem written_initial {ws : List Written} {n : Nat} :
    ∀ {s : FragState}, b.loop s n = some (.ok ws) →
      (b.sendFragment b.ready (segment b.ready.mem b.ready.pSrcBufData b.size) s).written <+: ws := by
  induction n with
  | zero =>
      intro s h
      cases h
  | succ n ih =>
      intro s h
      rw [loop, iterate, fragTurn] at h
      split_ifs at h with hmore
      · exact List.IsPrefix.trans (List.prefix_append _ _) (ih h)
      · cases h
        exact List.prefix_rfl

end TxBlk

end ExtDrv.Rt3370.Frag
