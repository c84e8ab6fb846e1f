import ExtDrv.Rt3370.SoftAesTape
import ExtDrv.Rt3370.SoftTkip

/-!
# Software decryption and short frames

Where `RTMPSoftDecryptWEP`, `RTMPSoftDecryptTKIP` and `RTMPSoftDecryptAES` stay inside the
bytes that were received, and refuse what is too short for its IV header, its MIC and its
ICV. Each of them takes these lengths from an unsigned count, in sixteen bits or in
thirty-two, before anything is compared with it.
-/

namespace ExtDrv.Rt3370.SoftDecrypt

open Memory Arc4 LittleEndian
open Wep (lenWepIvHdr lenIcv Allocated rtmpSoftDecryptWep)
open Ccm hiding Byte

/-- The `n` bytes from `a` on. -/
def Span (a n x : Nat) : Prop := a ≤ x ∧ x < a + n

/-! ## The calls -/

/-- A call of `RTMPSoftDecryptWEP`. -/
structure WepCall where
  mem : Mem
  key : CipherKey
  pData : Nat
  dataByteCnt : BitVec 16

/-- A call of `RTMPSoftDecryptTKIP`: the header stands in front of the body. -/
structure TkipCall where
  mem : Mem
  tx : Tkip.TkipKeyInfo
  key : Tkip.TkipCipherKey
  userPriority : Byte
  pHdr : Nat
  pData : Nat
  dataByteCnt : BitVec 16
  front : pHdr + (frameKind mem pHdr).headerLength ≤ pData

/-- A call of `RTMPSoftDecryptAES`: the count is of the whole frame. -/
structure AesCall where
  mem : Mem
  key : CipherKey
  pData : Nat
  dataByteCnt : BitVec 32

/-! ## What each has to do -/

namespace WepCall

variable (c : WepCall)

def run (os : Allocated) : Bool × Tape × BitVec 16 :=
  rtmpSoftDecryptWep os c.key c.pData c.dataByteCnt ⟨c.mem, []⟩

/-- Whatever is allocated: inside the body, and no body is taken that is too short. -/
def Safe : Prop := ∀ os, Within (Span c.pData c.dataByteCnt.toNat) (c.run os).2.1.log ∧
  (c.dataByteCnt.toNat < lenWepIvHdr + lenIcv → (c.run os).1 = false)

end WepCall

namespace TkipCall

variable (c : TkipCall)

def run : Bool × Tape × BitVec 16 × Tkip.TkipKeyInfo :=
  Tkip.rtmpSoftDecryptTkip c.tx c.pHdr c.userPriority c.key c.pData c.dataByteCnt ⟨c.mem, []⟩

/-- The bytes of the header and of the body. -/
def Received (x : Nat) : Prop :=
  Span c.pHdr (frameKind c.mem c.pHdr).headerLength x ∨ Span c.pData c.dataByteCnt.toNat x

def Safe : Prop := Within c.Received c.run.2.1.log ∧
  (c.dataByteCnt.toNat < Tkip.lenTkipIvHdr + Tkip.lenTkipMic + lenIcv → c.run.1 = false)

/-- The body behind the IV header, deciphered. -/
def text : List Byte :=
  xorStream (Wep.keyStream (Tkip.streamAt c.mem c.pHdr c.key.toCipherKey c.pData))
    (segment c.mem (c.pData + 8) (c.dataByteCnt.toNat - 8))

/-- Its last four bytes are the check of those before. -/
def IcvHolds : Prop :=
  Crc32.crc32 (c.text.take (c.dataByteCnt.toNat - 12))
    = leWord (c.text.drop (c.dataByteCnt.toNat - 12))

end TkipCall

namespace AesCall

variable (c : AesCall) (aes : Block → Block → Block)

def run : Bool × Tape :=
  AesTape.rtmpSoftDecryptAesAt aes c.pData c.dataByteCnt c.key ⟨c.mem, []⟩

/-- The header, by the first two bytes. -/
def headerLen : Nat := (frameKind c.mem c.pData).headerLength

def Safe : Prop := Within (Span c.pData c.dataByteCnt.toNat) (c.run aes).2.log ∧
  (c.dataByteCnt.toNat < c.headerLen + 8 + 8 → (c.run aes).1 = false)

end AesCall

/-! ## WEP -/

theorem within_span_reads {a n b k : Nat} :
    Within (Span a n) (Tape.reads b k) ↔ k = 0 ∨ a ≤ b ∧ b + k ≤ a + n := by
  rw [within_reads]
  constructor
  · intro h
    rcases Nat.eq_zero_or_pos k with h0 | hpos
    · exact .inl h0
    · have hfirst := h 0 hpos
      have hlast := h (k - 1) (by omega)
      unfold Span at hfirst hlast
      omega
  · intro h i hi
    unfold Span
    omega

theorem within_span_writes {a n b k : Nat} :
    Within (Span a n) (Tape.writes b k) ↔ k = 0 ∨ a ≤ b ∧ b + k ≤ a + n := by
  rw [within_writes, ← within_reads, within_span_reads]

theorem within_loopTouches {S : Nat → Prop} (src dst i n : Nat) :
    Within S (Wep.loopTouches src dst i n) ↔
      ∀ j, j < n → S (src + (i + j)) ∧ S (dst + (i + j)) := by
  induction n generalizing i with
  | zero => simp [Wep.loopTouches, within_nil]
  | succ n ih =>
    have hcons : Within S (Wep.loopTouches src dst i (n + 1)) ↔
        (S (src + i) ∧ S (dst + i)) ∧ Within S (Wep.loopTouches src dst (i + 1) n) := by
      rw [Wep.loopTouches, ← within_pair, ← within_append]
      rfl
    rw [hcons, ih]
    constructor
    · intro h j hj
      obtain ⟨hfirst, hrest⟩ := h
      cases j with
      | zero => exact hfirst
      | succ j =>
        have h := hrest j (by omega)
        rwa [Nat.add_assoc, Nat.add_comm 1 j] at h
    · intro h
      refine ⟨h 0 (Nat.succ_pos n), ?_⟩
      intro j hj
      have h' := h (j + 1) (by omega)
      rwa [Nat.add_assoc, Nat.add_comm 1 j]

/-- The text goes `k` bytes down, inside the body. -/
theorem within_loop_span {a n k m : Nat} (hk : 0 < k) :
    Within (Span a n) (Wep.loopTouches (a + k) a 0 m) ↔ m = 0 ∨ k + m ≤ n := by
  rw [within_loopTouches]
  constructor
  · intro h
    rcases Nat.eq_zero_or_pos m with h0 | hpos
    · exact .inl h0
    · have hlast := (h (m - 1) (by omega)).1
      unfold Span at hlast
      omega
  · intro h j hj
    unfold Span
    omega

namespace WepCall

variable {c : WepCall}

/-- The IV is read into the seed, if there is one. -/
def seedTouches (os : Allocated) (pIv : Nat) : List Touch :=
  if os.seed then Tape.reads pIv 3 else []

/-- What is touched once the context is allocated. -/
theorem run_log {os : Allocated} {ctx : Arc4Ctx} (hctx : os.ctx = some ctx)
    (hkey : c.key.KeyLen ≠ 0) :
    (c.run os).2.1.log = seedTouches os c.pData
      ++ Wep.loopTouches (c.pData + 4) c.pData 0 (c.dataByteCnt - BitVec.ofNat 16 4).toNat
      ++ Tape.reads (c.pData + (c.dataByteCnt - BitVec.ofNat 16 4 - BitVec.ofNat 16 4).toNat) 4
      ++ Tape.reads c.pData (c.dataByteCnt - BitVec.ofNat 16 4 - BitVec.ofNat 16 4).toNat := by
  have hopened : (Wep.openedTape os ctx c.key c.pData c.dataByteCnt ⟨c.mem, []⟩).log
      = seedTouches os c.pData
        ++ Wep.loopTouches (c.pData + 4) c.pData 0 (c.dataByteCnt - BitVec.ofNat 16 4).toNat := by
    rw [Wep.openedTape, Wep.arc4ComputeAt_log, Wep.rtmpInitWepEngine, seedTouches]
    split_ifs <;> rfl
  rw [run, Wep.rtmpSoftDecryptWep_eq hctx hkey c.pData c.dataByteCnt ⟨c.mem, []⟩ rfl rfl]
  split_ifs
  all_goals
    rw [Tape.note_log, Tape.note_log, hopened]

/-- **WEP**: without a key, or with room for IV and ICV. -/
theorem safe_iff : c.Safe ↔ c.key.KeyLen = 0 ∨ 8 ≤ c.dataByteCnt.toNat := by
  have hlt := c.dataByteCnt.isLt
  constructor
  · intro h
    by_contra hno
    obtain ⟨hkey, hshort⟩ := not_or.mp hno
    have hin := (h ⟨some (arc4Init []), true⟩).1
    rw [run_log rfl hkey] at hin
    simp only [within_append] at hin
    obtain ⟨⟨⟨-, hloop⟩, hicv⟩, -⟩ := hin
    rw [within_loop_span (by decide)] at hloop
    rw [within_span_reads] at hicv
    bv_omega
  · intro h os
    cases hctx : os.ctx with
    | none =>
      have hrun : c.run os = (false, ⟨c.mem, []⟩, c.dataByteCnt) := by
        rw [run, rtmpSoftDecryptWep, hctx]
      rw [hrun]
      exact ⟨within_nil _, fun _ => rfl⟩
    | some ctx =>
      by_cases hkey : c.key.KeyLen = 0
      · have hrun : c.run os = (false, ⟨c.mem, []⟩, c.dataByteCnt) := by
          rw [run, rtmpSoftDecryptWep, hctx]
          exact if_pos hkey
        rw [hrun]
        exact ⟨within_nil _, fun _ => rfl⟩
      · have h8 : 8 ≤ c.dataByteCnt.toNat := h.resolve_left hkey
        refine ⟨?_, fun hshort => absurd hshort (Nat.not_lt.mpr h8)⟩
        rw [run_log hctx hkey]
        simp only [within_append]
        refine ⟨⟨⟨?_, ?_⟩, ?_⟩, ?_⟩
        · rw [seedTouches]
          split_ifs
          · rw [within_span_reads]
            omega
          · exact within_nil _
        · rw [within_loop_span (by decide)]
          bv_omega
        · rw [within_span_reads]
          bv_omega
        · rw [within_span_reads]
          bv_omega

end WepCall

/-! ## TKIP -/

namespace TkipCall

variable {c : TkipCall}

/-- The count of the ciphertext. -/
def ciphertextLen (c : TkipCall) : BitVec 32 := c.dataByteCnt.setWidth 32 - BitVec.ofNat 32 8

/-- The touches up to the comparison of the check. -/
def checkTouches (c : TkipCall) : List Touch :=
  Tkip.frontTouches c.pHdr c.pData (Tkip.addressesAt c.mem c.pHdr)
    ++ Wep.loopTouches (c.pData + 8) c.pData 0 c.ciphertextLen.toNat
    ++ (Tape.reads (c.pData + (c.ciphertextLen - 4).toNat) 4
      ++ Tape.reads c.pData (c.ciphertextLen - 4).toNat)

/-- Those of the comparison of the MIC. -/
def micTouches (c : TkipCall) : List Touch :=
  Tape.reads (c.pData + (c.ciphertextLen - 4 - 8).toNat) 8
    ++ Tape.reads c.pData (c.ciphertextLen - 4 - 8).toNat

theorem compared_log : (Tkip.compared (Tkip.openedTape c.pHdr c.key.toCipherKey c.pData
    c.dataByteCnt ⟨c.mem, []⟩) c.pData (c.ciphertextLen - 4)).log = c.checkTouches := by
  rw [Tkip.compared, Tape.note_log, Tkip.openedTape, Wep.arc4ComputeAt_log]
  rfl

/-- The bytes that are compared are those of the input. -/
theorem icvHolds_iff (h : 12 ≤ c.dataByteCnt.toNat) :
    Crc32.crc32 (segment (Tkip.openedTape c.pHdr c.key.toCipherKey c.pData c.dataByteCnt
        ⟨c.mem, []⟩).mem c.pData (c.ciphertextLen - 4).toNat)
      = leWord (segment (Tkip.openedTape c.pHdr c.key.toCipherKey c.pData c.dataByteCnt
        ⟨c.mem, []⟩).mem (c.pData + (c.ciphertextLen - 4).toNat) lenIcv) ↔ c.IcvHolds := by
  obtain ⟨n, hn⟩ : ∃ n, c.dataByteCnt.toNat = n + 12 := ⟨_, (Nat.sub_add_cancel h).symm⟩
  have hlt := c.dataByteCnt.isLt
  have hclen : c.ciphertextLen.toNat = n + 4 := by
    unfold ciphertextLen
    bv_omega
  have hplen : (c.ciphertextLen - 4).toNat = n := by
    bv_omega
  have hciphered := Wep.arc4ComputeAt_ciphered
    (Tkip.streamAt c.mem c.pHdr c.key.toCipherKey c.pData)
    (show c.pData ≤ c.pData + 8 ∨ c.pData + 8 + (n + 4) ≤ c.pData from .inl (Nat.le_add_right _ _))
    (Tape.note ⟨c.mem, []⟩
      (Tkip.frontTouches c.pHdr c.pData (Tkip.addressesAt c.mem c.pHdr)))
  obtain ⟨opened, hopened⟩ : ∃ t, Tkip.openedTape c.pHdr c.key.toCipherKey c.pData c.dataByteCnt
      ⟨c.mem, []⟩ = t := ⟨_, rfl⟩
  have hrun : Wep.arc4ComputeAt (Tkip.streamAt c.mem c.pHdr c.key.toCipherKey c.pData)
      (c.pData + 8) (n + 4) c.pData (Tape.note ⟨c.mem, []⟩
        (Tkip.frontTouches c.pHdr c.pData (Tkip.addressesAt c.mem c.pHdr))) = opened := by
    rw [← hopened, ← hclen]
    rfl
  rw [hrun] at hciphered
  have htext : segment opened.mem c.pData n ++ segment opened.mem (c.pData + n) 4 = c.text := by
    rw [← segment_add, hciphered.segment, text, hn]
    rfl
  rw [IcvHolds, hopened, hplen, ← htext, hn, Nat.add_sub_cancel,
    List.take_left' (length_segment _ _ _), List.drop_left' (length_segment _ _ _)]

/-- The header is read inside the header. -/
theorem within_header {m : Mem} {p q n : Nat} :
    Within (fun x => Span p (frameKind m p).headerLength x ∨ Span q n x)
      (Tape.reads p 2 ++ Tape.reads (p + (Tkip.addressesAt m p).DA) macAddrLen
        ++ Tape.reads (p + (Tkip.addressesAt m p).TA) macAddrLen
        ++ Tape.reads (p + (Tkip.addressesAt m p).SA) macAddrLen) := by
  have hle := (FrameKind.headerLength_le (frameKind m p)).1
  have hspan (o k : Nat) (h : o + k ≤ (frameKind m p).headerLength) :
      Within (fun x => Span p (frameKind m p).headerLength x ∨ Span q n x)
        (Tape.reads (p + o) k) := by
    rw [within_reads]
    intro i hi
    unfold Span
    omega
  have haddr : (Tkip.addressesAt m p).DA + 6 ≤ 24 ∧ (Tkip.addressesAt m p).TA + 6 ≤ 24 ∧
      (Tkip.addressesAt m p).SA + 6 ≤ (frameKind m p).headerLength := by
    unfold Tkip.addressesAt Tkip.addressesOf
    cases htoDs : (m (p + 1)).getLsbD 0
    case true =>
      cases hfromDs : (m (p + 1)).getLsbD 1
      case true =>
        have hfour : 30 ≤ (frameKind m p).headerLength := by
          simp only [FrameKind.headerLength, frameKind, htoDs, hfromDs]
          simp
        simpa using hfour
      case false => simp; omega
    case false =>
      cases hfromDs : (m (p + 1)).getLsbD 1 <;> simp <;> omega
  simp only [within_append]
  exact ⟨⟨⟨hspan 0 2 (by omega), hspan _ 6 (by omega)⟩, hspan _ 6 (by omega)⟩,
    hspan _ 6 haddr.2.2⟩

/-- What is outside the body and not in front of it was not received. -/
theorem within_received_reads {b k : Nat} (hb : c.pData ≤ b) :
    Within c.Received (Tape.reads b k) ↔ k = 0 ∨ b + k ≤ c.pData + c.dataByteCnt.toNat := by
  have hfront := c.front
  rw [within_reads]
  constructor
  · intro h
    rcases Nat.eq_zero_or_pos k with h0 | hpos
    · exact .inl h0
    · have hlast := h (k - 1) (by omega)
      unfold Received Span at hlast
      omega
  · intro h i hi
    unfold Received Span
    omega

theorem within_received_loop {m : Nat} :
    Within c.Received (Wep.loopTouches (c.pData + 8) c.pData 0 m) ↔
      m = 0 ∨ 8 + m ≤ c.dataByteCnt.toNat := by
  have hfront := c.front
  rw [within_loopTouches]
  constructor
  · intro h
    rcases Nat.eq_zero_or_pos m with h0 | hpos
    · exact .inl h0
    · have hlast := (h (m - 1) (by omega)).1
      unfold Received Span at hlast
      omega
  · intro h j hj
    unfold Received Span
    omega

/-- The check is compared inside the body where there is room for IV and ICV. -/
theorem within_checkTouches : Within c.Received c.checkTouches ↔ 12 ≤ c.dataByteCnt.toNat := by
  have hlt := c.dataByteCnt.isLt
  have hclen : c.ciphertextLen = c.dataByteCnt.setWidth 32 - BitVec.ofNat 32 8 := rfl
  have hheader : Within c.Received (Tape.reads c.pHdr 2
      ++ Tape.reads (c.pHdr + (Tkip.addressesAt c.mem c.pHdr).DA) macAddrLen
      ++ Tape.reads (c.pHdr + (Tkip.addressesAt c.mem c.pHdr).TA) macAddrLen
      ++ Tape.reads (c.pHdr + (Tkip.addressesAt c.mem c.pHdr).SA) macAddrLen) := within_header
  unfold checkTouches Tkip.frontTouches
  simp only [within_append] at hheader ⊢
  simp only [hheader, true_and, within_received_loop, within_received_reads (Nat.le_refl c.pData),
    within_received_reads (Nat.le_add_right c.pData _)]
  constructor
  · intro h
    bv_omega
  · intro h
    bv_omega

/-- The MIC is, where there is room for it besides. -/
theorem within_micTouches (h : 12 ≤ c.dataByteCnt.toNat) :
    Within c.Received c.micTouches ↔ 20 ≤ c.dataByteCnt.toNat := by
  have hlt := c.dataByteCnt.isLt
  have hclen : c.ciphertextLen = c.dataByteCnt.setWidth 32 - BitVec.ofNat 32 8 := rfl
  unfold micTouches
  rw [within_append, within_received_reads (Nat.le_add_right _ _),
    within_received_reads (Nat.le_refl _)]
  constructor
  · intro h
    bv_omega
  · intro h
    bv_omega

/-- The MIC is read in both of its outcomes. -/
theorem checkMic_log (da sa rxMic : List Byte) (t : Tape) :
    (Tkip.checkMic c.tx da sa c.userPriority rxMic c.pData (c.ciphertextLen - 4) c.dataByteCnt
      t).2.1.log = t.log ++ c.micTouches := by
  unfold Tkip.checkMic micTouches
  simp only [Tape.read_fst, Tape.read_snd, Tape.note_note]
  split_ifs <;> rfl

/-- What is touched with a key, by the comparison of the check. -/
theorem run_log (hkey : c.key.KeyLen ≠ 0) :
    (c.run.1 = false ∧ c.run.2.1.log = c.checkTouches ∧
        (12 ≤ c.dataByteCnt.toNat → ¬ c.IcvHolds)) ∨
      (c.run.2.1.log = c.checkTouches ++ c.micTouches ∧
        (12 ≤ c.dataByteCnt.toNat → c.IcvHolds)) := by
  have hlen : c.dataByteCnt.setWidth 32 - BitVec.ofNat 32 Tkip.lenTkipIvHdr
      - BitVec.ofNat 32 lenIcv = c.ciphertextLen - 4 := rfl
  by_cases hcheck : Crc32.crc32 (segment (Tkip.openedTape c.pHdr c.key.toCipherKey c.pData
      c.dataByteCnt ⟨c.mem, []⟩).mem c.pData (c.ciphertextLen - 4).toNat)
    = leWord (segment (Tkip.openedTape c.pHdr c.key.toCipherKey c.pData c.dataByteCnt
      ⟨c.mem, []⟩).mem (c.pData + (c.ciphertextLen - 4).toNat) lenIcv)
  · right
    rw [run, Tkip.rtmpSoftDecryptTkip_eq hkey rfl hlen, if_neg (not_not.mpr hcheck)]
    constructor
    · rw [checkMic_log, compared_log]
    · intro h12
      exact (icvHolds_iff h12).mp hcheck
  · left
    rw [run, Tkip.rtmpSoftDecryptTkip_eq hkey rfl hlen, if_pos hcheck]
    refine ⟨rfl, compared_log, ?_⟩
    intro h12 hicv
    exact hcheck ((icvHolds_iff h12).mpr hicv)

/-- **TKIP**: without a key, with room for IV, MIC and ICV, or with room for IV and ICV where
the check does not hold. -/
theorem safe_iff : c.Safe ↔ c.key.KeyLen = 0 ∨ 20 ≤ c.dataByteCnt.toNat ∨
    12 ≤ c.dataByteCnt.toNat ∧ ¬ c.IcvHolds := by
  by_cases hkey : c.key.KeyLen = 0
  · have hrun : c.run = (false, ⟨c.mem, []⟩, c.dataByteCnt, c.tx) := by
      rw [run, Tkip.rtmpSoftDecryptTkip, if_pos hkey]
    rw [Safe, hrun]
    simp [hkey, within_nil]
  have hshort : Tkip.lenTkipIvHdr + Tkip.lenTkipMic + lenIcv = 20 := rfl
  rw [Safe, hshort]
  rcases run_log hkey with ⟨hrefused, hlog, hicv⟩ | ⟨hlog, hicv⟩
  · -- the check does not hold, and nothing more is read
    rw [hlog, within_checkTouches]
    constructor
    · intro h
      exact .inr (.inr ⟨h.1, hicv h.1⟩)
    · intro h
      have h12 : 12 ≤ c.dataByteCnt.toNat := by
        rcases h with h0 | h20 | hchecked
        · exact absurd h0 hkey
        · exact Nat.le_trans (by decide) h20
        · exact hchecked.1
      exact ⟨h12, fun _ => hrefused⟩
  · rw [hlog, within_append, within_checkTouches]
    constructor
    · intro h
      obtain ⟨⟨h12, hmic⟩, -⟩ := h
      exact .inr (.inl ((within_micTouches h12).mp hmic))
    · intro h
      have h20 : 20 ≤ c.dataByteCnt.toNat := by
        rcases h with h0 | h20 | ⟨h12, hno⟩
        · exact absurd h0 hkey
        · exact h20
        · exact absurd (hicv h12) hno
      have h12 : 12 ≤ c.dataByteCnt.toNat := Nat.le_trans (by decide) h20
      exact ⟨⟨h12, (within_micTouches h12).mpr h20⟩, fun hlt => absurd hlt (Nat.not_lt.mpr h20)⟩

end TkipCall

/-! ## AES -/

namespace AesCall

variable {c : AesCall} {aes : Block → Block → Block} {k : FrameKind} {p n : Nat}

theorem within_span_read {a : Nat} :
    Within (Span p n) [.read a] ↔ p ≤ a ∧ a < p + n := by
  unfold Within
  rw [List.forall_mem_singleton]
  rfl

/-- The blocks of counter and nonce are made of the header. -/
theorem within_ivTouches (h : k.headerLength ≤ n) :
    Within (Span p n) (AesTape.ivTouches k p) := by
  have hle := (FrameKind.headerLength_le k).1
  unfold AesTape.ivTouches
  rw [within_append, within_span_reads]
  constructor
  · unfold FrameKind.headerLength at h
    unfold AesTape.qosTouches
    cases hqc : k.qcExists
    case false => exact within_nil _
    case true =>
      cases ha4 : k.a4Exists <;> simp [hqc, ha4, within_span_read] at h ⊢
      all_goals omega
  · omega

theorem within_header1Touches (h : k.headerLength ≤ n) :
    Within (Span p n) (AesTape.header1Touches p) := by
  have hle := (FrameKind.headerLength_le k).1
  unfold AesTape.header1Touches
  rw [within_append, within_span_reads, within_span_reads]
  omega

theorem within_header2Touches (h : k.headerLength ≤ n) :
    Within (Span p n) (AesTape.header2Touches k p) := by
  unfold FrameKind.headerLength at h
  unfold AesTape.header2Touches
  simp only [within_append]
  refine ⟨⟨⟨?_, ?_⟩, ?_⟩, ?_⟩
  · rw [within_span_reads]
    omega
  all_goals
    cases hqc : k.qcExists <;> cases ha4 : k.a4Exists <;>
      simp [hqc, ha4, within_nil, within_span_reads] at h ⊢
    try omega

/-- The first loop, in blocks of which the last ends inside. -/
theorem within_loopTouches (hhdr : k.headerLength ≤ n) {blocks i : Nat} (hi : 8 ≤ i)
    (h : i + 16 * blocks ≤ n) : Within (Span p n) (AesTape.loopTouches p k blocks i) := by
  induction blocks generalizing i with
  | zero => exact within_nil _
  | succ blocks ih =>
    have hrest := ih (i := i + 16) (by omega) (by omega)
    rw [AesTape.loopTouches]
    simp only [within_append, within_span_reads, within_span_writes]
    exact ⟨⟨⟨within_ivTouches hhdr, by omega⟩, by omega⟩, hrest⟩

theorem within_restTouches (hhdr : k.headerLength ≤ n) {r i : Nat} (hi : 8 ≤ i)
    (h : i + r ≤ n) : Within (Span p n) (AesTape.restTouches p k r i) := by
  unfold AesTape.restTouches
  split_ifs
  · simp only [within_append, within_span_reads, within_span_writes]
    exact ⟨⟨within_ivTouches hhdr, by omega⟩, by omega⟩
  · exact within_nil _

theorem within_micTouches {blocks a : Nat} (ha : p ≤ a) (h : a + 16 * blocks ≤ p + n) :
    Within (Span p n) (AesTape.micTouches blocks a) := by
  induction blocks generalizing a with
  | zero => exact within_nil _
  | succ blocks ih =>
    have hrest := ih (a := a + 16) (by omega) (by omega)
    rw [AesTape.micTouches, within_append, within_span_reads]
    exact ⟨by omega, hrest⟩

theorem within_micRestTouches {r a : Nat} (ha : p ≤ a) (h : a + r ≤ p + n) :
    Within (Span p n) (AesTape.micRestTouches a r) := by
  unfold AesTape.micRestTouches
  split_ifs
  · rw [within_span_reads]
    omega
  · exact within_nil _

/-- A payload between the two headers and the MIC. -/
theorem within_touches {len : Nat} (h : k.headerLength + len + 16 = n) :
    Within (Span p n) (AesTape.touches p k len) := by
  have hhdr : k.headerLength ≤ n := by omega
  have hle := (FrameKind.headerLength_le k).1
  have hdiv := Nat.div_add_mod len 16
  unfold AesTape.touches
  simp only [within_append, within_span_reads]
  refine ⟨⟨⟨⟨⟨⟨⟨⟨⟨⟨⟨?_, ?_⟩, ?_⟩, ?_⟩, ?_⟩, ?_⟩, ?_⟩, ?_⟩, ?_⟩, ?_⟩, ?_⟩, ?_⟩
  · omega
  · omega
  · exact within_loopTouches hhdr (by omega) (by omega)
  · exact within_restTouches hhdr (by omega) (by omega)
  · exact within_ivTouches hhdr
  · omega
  · rw [within_pair]
    unfold Span
    omega
  · exact within_ivTouches hhdr
  · exact within_header1Touches hhdr
  · exact within_header2Touches hhdr
  · exact within_micTouches (by omega) (by omega)
  · exact within_micRestTouches (by omega) (by omega)

/-- The first block of sixteen bytes or more. -/
theorem block_of_touches {len : Nat} (hlen : 16 ≤ len)
    (h : Within (Span p n) (AesTape.touches p k len)) : k.headerLength + 24 ≤ n := by
  obtain ⟨blocks, hblocks⟩ : ∃ b, len / 16 = b + 1 := ⟨len / 16 - 1, by omega⟩
  unfold AesTape.touches at h
  simp only [within_append, hblocks, AesTape.loopTouches, within_span_reads] at h
  omega

/-- **AES**: the frame control field, and without a key, or with room for both headers and
the MIC. -/
theorem safe_iff : c.Safe aes ↔ 2 ≤ c.dataByteCnt.toNat ∧
    (c.key.KeyLen = 0 ∨ c.headerLen + 16 ≤ c.dataByteCnt.toNat) := by
  have hlt := c.dataByteCnt.isLt
  have hle : 24 ≤ c.headerLen ∧ c.headerLen ≤ 32 := FrameKind.headerLength_le _
  obtain ⟨len, hlen⟩ : ∃ l, (c.dataByteCnt - BitVec.ofNat 32 c.headerLen - 8 - 8).toNat = l :=
    ⟨_, rfl⟩
  have hlog : (c.run aes).2.log = (Tape.reads c.pData 2 ++ Tape.reads c.pData 2)
      ++ if c.key.KeyLen = 0 then []
        else AesTape.touches c.pData (frameKind c.mem c.pData) len := by
    rw [run, AesTape.rtmpSoftDecryptAesAt_eq, ← hlen]
    rfl
  rw [Safe, hlog, within_append, within_append, within_span_reads]
  constructor
  · intro h
    obtain ⟨⟨hfc, htouches⟩, -⟩ := h
    refine ⟨by omega, ?_⟩
    by_contra hno
    obtain ⟨hkey, hshort⟩ := not_or.mp hno
    rw [if_neg hkey] at htouches
    have hblock := block_of_touches (by bv_omega) htouches
    have hheader : (frameKind c.mem c.pData).headerLength = c.headerLen := rfl
    omega
  · intro hroom
    obtain ⟨h2, h⟩ := hroom
    refine ⟨⟨by omega, ?_⟩, ?_⟩
    · split_ifs with hkey
      · exact within_nil _
      · have hroom := h.resolve_left hkey
        apply within_touches
        show c.headerLen + len + 16 = c.dataByteCnt.toNat
        bv_omega
    · intro hshort
      rcases h with hkey | hroom
      · rw [run, AesTape.rtmpSoftDecryptAesAt, if_pos hkey]
      · omega

end AesCall

/-! ## The three of them -/

/-- **Which calls stay inside**: each takes its lengths from the count before it has
compared it with anything. -/
theorem softDecrypts_inside_iff (wep : WepCall) (tkip : TkipCall) (ccmp : AesCall)
    (aes : Block → Block → Block) :
    (wep.Safe ↔ wep.key.KeyLen = 0 ∨ lenWepIvHdr + lenIcv ≤ wep.dataByteCnt.toNat) ∧
    (tkip.Safe ↔ tkip.key.KeyLen = 0 ∨
      Tkip.lenTkipIvHdr + Tkip.lenTkipMic + lenIcv ≤ tkip.dataByteCnt.toNat ∨
      Tkip.lenTkipIvHdr + lenIcv ≤ tkip.dataByteCnt.toNat ∧ ¬ tkip.IcvHolds) ∧
    (ccmp.Safe aes ↔ 2 ≤ ccmp.dataByteCnt.toNat ∧
      (ccmp.key.KeyLen = 0 ∨ ccmp.headerLen + 8 + 8 ≤ ccmp.dataByteCnt.toNat)) :=
  ⟨WepCall.safe_iff, TkipCall.safe_iff, AesCall.safe_iff⟩

/-- Eleven bytes for TKIP, behind a header of 24. -/
def runtTkip : TkipCall where
  mem := fun _ => 0
  tx := ⟨0, 0, 0, 0, 0, 0, []⟩
  key := ⟨{ KeyLen := 16, Key := fun _ => 0 }, []⟩
  userPriority := 0
  pHdr := 0
  pData := 24
  dataByteCnt := 11
  front := by decide

example : ¬ runtTkip.Safe := by
  intro hsafe
  rcases TkipCall.safe_iff.mp hsafe with hkey | hlong | ⟨hlong, -⟩
  · exact absurd hkey (by decide)
  · exact absurd hlong (by decide)
  · exact absurd hlong (by decide)

/-- Seven bytes for WEP, with a key of five. -/
def runtCall : WepCall where
  mem := fun _ => 0
  key := { KeyLen := 5, Key := fun _ => 0 }
  pData := 0
  dataByteCnt := 7

/-- The length of its text wraps to 65535, and its check is read behind as many bytes. -/
theorem runtCall_leaves : ¬ ((∀ c : WepCall, c.Safe) ∧ (∀ c : TkipCall, c.Safe) ∧
    (∀ (aes : Block → Block → Block) (c : AesCall), c.Safe aes)) := by
  intro ⟨hwep, _⟩
  have hsafe := WepCall.safe_iff.mp (hwep runtCall)
  revert hsafe
  decide

end ExtDrv.Rt3370.SoftDecrypt
