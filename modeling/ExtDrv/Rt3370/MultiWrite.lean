import ExtDrv.Lib.Loop
import ExtDrv.Lib.Endian
import ExtDrv.Lib.Memory
import Mathlib.Data.Nat.Find

/-!
# Register writes over USB

`RTUSBMultiWrite_nBytes` and `RTUSBMultiWrite` (`rtusb_io.c`). Both count a 16-bit remainder
down, the first by the batch length whatever is left, the second by two after rounding the length
up. Either loop comes to an end when the remainder is zero modulo 2^16, and by then it has gone
through a whole number of batches.
-/

namespace ExtDrv.Rt3370.MultiWrite

open Loop Memory

abbrev UShort := BitVec 16

/-- What `RTUSB_VendorRequest` is called with; `TransferBuffer` is counted from `pData`. -/
structure VendorRequest where
  Request : BitVec 8
  Value : UShort
  Index : UShort
  TransferBuffer : Nat
  TransferBufferLength : Nat

/-- A byte of the buffer is read by the routine itself, or a vendor request is issued. -/
inductive Event
  | read (i : Nat)
  | request (r : VendorRequest)

/-- The bytes of the buffer that are read. -/
def Event.reads : Event → List Nat
  | .read i => [i]
  | .request r => (List.range r.TransferBufferLength).map fun i => r.TransferBuffer + i

/-- What the device does: request 6 puts the bytes transferred at `Index` and behind it, request 2
puts `Value` there, its low byte first. -/
def Event.writes (m : Mem) : Event → List (UShort × BitVec 8)
  | .read _ => []
  | .request r =>
      if r.Request = 0x6 then
        (List.range r.TransferBufferLength).map fun i =>
          (r.Index + BitVec.ofNat 16 i, m (r.TransferBuffer + i))
      else
        [(r.Index, r.Value.setWidth 8), (r.Index + 1, (r.Value >>> 8).setWidth 8)]

/-- The status a routine returns, and what it did. -/
structure Issued where
  Status : Bool
  events : List Event

def Issued.reads (r : Issued) : List Nat := r.events.flatMap Event.reads
def Issued.writes (r : Issued) (m : Mem) : List (UShort × BitVec 8) :=
  r.events.flatMap (Event.writes m)

/-! ## The routines -/

/-- The variables of `RTUSBMultiWrite_nBytes`, with what was done. -/
structure BytesLoop where
  index : UShort
  actLen : UShort
  leftLen : UShort
  pSrc : Nat
  events : List Event

/-- One turn of the loop. `succeeds` says of a request whether it does. -/
def bytesTurn (succeeds : VendorRequest → Bool) (batchLen : UShort) (s : BytesLoop) :
    Turn BytesLoop Issued Empty :=
  let actLen := if s.actLen > batchLen then batchLen else s.actLen
  let request : VendorRequest := ⟨0x6, 0, s.index, s.pSrc, actLen.toNat⟩
  let events := s.events ++ [.request request]
  if succeeds request = false then .ret ⟨false, events⟩
  else
    let leftLen := s.leftLen - actLen
    if leftLen > 0 then
      .next ⟨s.index + actLen, actLen, leftLen, s.pSrc + actLen.toNat, events⟩
    else .ret ⟨true, events⟩

/-- `RTUSBMultiWrite_nBytes`. -/
def rtusbMultiWriteNBytes (succeeds : VendorRequest → Bool) (Offset length batchLen : UShort) :
    Running Empty Issued :=
  fun n => iterate (bytesTurn succeeds batchLen) n ⟨Offset, batchLen, length, 0, []⟩

/-- `RTUSBSingleWrite`. -/
def rtusbSingleWrite (Offset Value : UShort) : VendorRequest := ⟨0x2, Value, Offset, 0, 0⟩

/-- The variables of `RTUSBMultiWrite`, with what was done. -/
structure WordsLoop where
  index : UShort
  length : UShort
  pSrc : Nat
  events : List Event

def wordsTurn (succeeds : VendorRequest → Bool) (m : Mem) (Offset : UShort) (s : WordsLoop) :
    Turn WordsLoop Issued Empty :=
  let Value : UShort := (m s.pSrc).setWidth 16 ||| (m (s.pSrc + 1)).setWidth 16 <<< 8
  let request := rtusbSingleWrite (Offset + s.index) Value
  let events := s.events ++ [.read s.pSrc, .read (s.pSrc + 1), .request request]
  -- the status of every request is overwritten by the next one's
  let Status := succeeds request
  let length := s.length - 2
  if length > 0 then .next ⟨s.index + 2, length, s.pSrc + 2, events⟩
  else .ret ⟨Status, events⟩

/-- `RTUSBMultiWrite`. -/
def rtusbMultiWrite (succeeds : VendorRequest → Bool) (m : Mem) (Offset length : UShort) :
    Running Empty Issued :=
  let resude := length % 2
  fun n => iterate (wordsTurn succeeds m Offset) n ⟨0, length + resude, 0, []⟩

/-! ## What is wanted -/

/-- The routine ends, the bytes of the buffer have been written to `Offset`, `Offset + 1`, ..,
and nothing else has been read or written. -/
def Covers (m : Mem) (Offset length : UShort) (f : Running Empty Issued) : Prop :=
  ∃ r, Ends f r ∧ r.Status = true ∧
    r.writes m = (List.range length.toNat).map (fun i => (Offset + BitVec.ofNat 16 i, m i)) ∧
    ∀ i ∈ r.reads, i < length.toNat

/-! ## When the remainder is zero -/

/-- After batch number `k` nothing is left of a remainder that was `left` at first. -/
def UsedUp (left batch k : Nat) : Prop := (k + 1) * batch ≡ left [MOD 2 ^ 16]

section

variable {length left batch k : Nat}

/-- Batches that stay inside the buffer have gone through all that was left. -/
theorem UsedUp.eq (h : UsedUp left batch k) (hbatch : 0 < batch) (hle : left ≤ 2 ^ 16)
    (hin : (k + 1) * batch ≤ left) : (k + 1) * batch = left := by
  have hpos : 0 < (k + 1) * batch := Nat.mul_pos (Nat.succ_pos k) hbatch
  have hmod : (k + 1) * batch % 2 ^ 16 = left % 2 ^ 16 := h
  omega

/-- **Where the loop stops inside the buffer**: nothing was rounded up, and the length is a number
of batches. -/
theorem usedUp_inside_iff (hbatch : 0 < batch) (hlength : 0 < length) (hle : length ≤ left)
    (hleft : left ≤ 2 ^ 16) :
    (∃ k, UsedUp left batch k ∧ (∀ j, j < k → ¬ UsedUp left batch j) ∧ (k + 1) * batch ≤ length)
      ↔ left = length ∧ batch ∣ length := by
  classical
  constructor
  · rintro ⟨k, hk, -, hin⟩
    have heq := hk.eq hbatch hleft (hin.trans hle)
    obtain rfl : left = length := by omega
    exact ⟨rfl, k + 1, by rw [← heq, Nat.mul_comm]⟩
  · rintro ⟨rfl, q, hq⟩
    have hqpos : 0 < q := by
      rcases Nat.eq_zero_or_pos q with rfl | h
      · omega
      · exact h
    have hlast : UsedUp left batch (q - 1) := by
      rw [UsedUp, Nat.sub_add_cancel hqpos, Nat.mul_comm, ← hq]
    have hsome : ∃ k, UsedUp left batch k := ⟨q - 1, hlast⟩
    refine ⟨Nat.find hsome, Nat.find_spec hsome, fun j hj => Nat.find_min hsome hj, ?_⟩
    have hfirst : Nat.find hsome + 1 ≤ q := by
      have hmin := Nat.find_min' hsome hlast
      omega
    have hle := Nat.mul_le_mul_right batch hfirst
    rwa [Nat.mul_comm q, ← hq] at hle

end

/-! ## What the batches do -/

/-- The device does not fail. -/
def allSucceed : VendorRequest → Bool := fun _ => true

theorem flatMap_batches {α : Type} (f : Nat → α) (b k : Nat) :
    (List.range k).flatMap (fun j => (List.range b).map fun i => f (j * b + i))
      = (List.range (k * b)).map f := by
  induction k with
  | zero => simp
  | succ k ih =>
    rw [List.range_succ, List.flatMap_append, ih, Nat.succ_mul, List.range_add, List.map_append]
    simp [Function.comp_def]

section

variable (Offset length batchLen : UShort) (k : Nat)

theorem ofNat_next : BitVec.ofNat 16 ((k + 1) * batchLen.toNat)
    = BitVec.ofNat 16 (k * batchLen.toNat) + batchLen := by
  rw [Nat.succ_mul, BitVec.ofNat_add, BitVec.ofNat_toNat, BitVec.setWidth_eq]

theorem pos_iff_not_usedUp :
    length - BitVec.ofNat 16 (k * batchLen.toNat) - batchLen > 0
      ↔ ¬ UsedUp length.toNat batchLen.toNat k := by
  rw [gt_iff_lt, BitVec.lt_def, BitVec.sub_sub, ← ofNat_next, UsedUp, Nat.ModEq, BitVec.toNat_sub,
    BitVec.toNat_ofNat]
  have hlt := length.isLt
  show 0 < _ ↔ _
  omega

/-- The batches of `RTUSBMultiWrite_nBytes`. -/
def bytesEvents : List Event :=
  (List.range k).map fun j => .request
    ⟨0x6, 0, Offset + BitVec.ofNat 16 (j * batchLen.toNat), j * batchLen.toNat, batchLen.toNat⟩

theorem bytesEvents_reads :
    (bytesEvents Offset batchLen k).flatMap Event.reads = List.range (k * batchLen.toNat) := by
  have h := flatMap_batches id batchLen.toNat k
  rw [List.map_id] at h
  rw [← h, bytesEvents, List.flatMap_map]
  rfl

theorem bytesEvents_writes (m : Mem) :
    (bytesEvents Offset batchLen k).flatMap (Event.writes m)
      = (List.range (k * batchLen.toNat)).map fun i => (Offset + BitVec.ofNat 16 i, m i) := by
  rw [← flatMap_batches, bytesEvents, List.flatMap_map]
  simp [Event.writes, BitVec.ofNat_add, BitVec.add_assoc]

/-- The loop before batch number `k`. -/
def bytesAt : BytesLoop where
  index := Offset + BitVec.ofNat 16 (k * batchLen.toNat)
  actLen := batchLen
  leftLen := length - BitVec.ofNat 16 (k * batchLen.toNat)
  pSrc := k * batchLen.toNat
  events := bytesEvents Offset batchLen k

theorem bytesEvents_next : bytesEvents Offset batchLen (k + 1) = bytesEvents Offset batchLen k
    ++ [.request ⟨0x6, 0, Offset + BitVec.ofNat 16 (k * batchLen.toNat), k * batchLen.toNat,
      batchLen.toNat⟩] := by
  rw [bytesEvents, List.range_succ, List.map_append]
  rfl

theorem bytesAt_next : bytesAt Offset length batchLen (k + 1)
    = ⟨(bytesAt Offset length batchLen k).index + batchLen, batchLen,
      (bytesAt Offset length batchLen k).leftLen - batchLen, k * batchLen.toNat + batchLen.toNat,
      bytesEvents Offset batchLen (k + 1)⟩ := by
  have hindex : Offset + BitVec.ofNat 16 ((k + 1) * batchLen.toNat)
      = Offset + BitVec.ofNat 16 (k * batchLen.toNat) + batchLen := by
    rw [ofNat_next, BitVec.add_assoc]
  have hleft : length - BitVec.ofNat 16 ((k + 1) * batchLen.toNat)
      = length - BitVec.ofNat 16 (k * batchLen.toNat) - batchLen := by
    rw [ofNat_next, BitVec.sub_sub]
  rw [bytesAt, hindex, hleft, Nat.succ_mul]
  rfl

theorem bytesTurn_at : bytesTurn allSucceed batchLen (bytesAt Offset length batchLen k)
    = if length - BitVec.ofNat 16 (k * batchLen.toNat) - batchLen > 0 then
        .next (bytesAt Offset length batchLen (k + 1))
      else .ret ⟨true, bytesEvents Offset batchLen (k + 1)⟩ := by
  have hact : (if (bytesAt Offset length batchLen k).actLen > batchLen then batchLen
      else (bytesAt Offset length batchLen k).actLen) = batchLen := ite_self batchLen
  rw [bytesTurn, hact, bytesAt_next, bytesEvents_next]
  rfl

/-- The batches of two of `RTUSBMultiWrite`. -/
def wordsEvents (m : Mem) : List Event :=
  (List.range k).flatMap fun j => [.read (j * 2), .read (j * 2 + 1),
    .request (rtusbSingleWrite (Offset + BitVec.ofNat 16 (j * 2))
      ((m (j * 2)).setWidth 16 ||| (m (j * 2 + 1)).setWidth 16 <<< 8))]

theorem wordsEvents_reads (m : Mem) :
    (wordsEvents Offset k m).flatMap Event.reads = List.range (k * 2) := by
  have h := flatMap_batches id 2 k
  rw [List.map_id] at h
  rw [← h, wordsEvents, List.flatMap_assoc]
  rfl

/-- The byte a word is written with last is the one read last. -/
theorem word_high (low high : BitVec 8) :
    ((low.setWidth 16 ||| high.setWidth 16 <<< 8 : UShort) >>> 8).setWidth 8 = high := by
  ext i hi
  have hin : 8 + i < 16 := by omega
  have hbehind : ¬ 8 + i < 8 := by omega
  have hword : i < 16 := by omega
  simp [hin, hbehind, hword, BitVec.getLsbD_eq_getElem hi]

theorem wordsEvents_writes (m : Mem) :
    (wordsEvents Offset k m).flatMap (Event.writes m)
      = (List.range (k * 2)).map fun i => (Offset + BitVec.ofNat 16 i, m i) := by
  rw [← flatMap_batches, wordsEvents, List.flatMap_assoc]
  simp [Event.writes, rtusbSingleWrite, word_high, List.range_succ, BitVec.ofNat_add,
    BitVec.add_assoc]

theorem wordsEvents_next (m : Mem) : wordsEvents Offset (k + 1) m = wordsEvents Offset k m
    ++ [.read (k * 2), .read (k * 2 + 1),
      .request (rtusbSingleWrite (Offset + BitVec.ofNat 16 (k * 2))
        ((m (k * 2)).setWidth 16 ||| (m (k * 2 + 1)).setWidth 16 <<< 8))] := by
  rw [wordsEvents, List.range_succ, List.flatMap_append]
  rfl

/-- The loop before word number `k`. -/
def wordsAt (m : Mem) : WordsLoop where
  index := BitVec.ofNat 16 (k * 2)
  length := length + length % 2 - BitVec.ofNat 16 (k * 2)
  pSrc := k * 2
  events := wordsEvents Offset k m

theorem wordsTurn_at (m : Mem) : wordsTurn allSucceed m Offset (wordsAt Offset length k m)
    = if length + length % 2 - BitVec.ofNat 16 (k * 2) - 2 > 0 then
        .next (wordsAt Offset length (k + 1) m)
      else .ret ⟨true, wordsEvents Offset (k + 1) m⟩ := by
  have hnext : wordsAt Offset length (k + 1) m
      = ⟨(wordsAt Offset length k m).index + 2, (wordsAt Offset length k m).length - 2, k * 2 + 2,
        wordsEvents Offset (k + 1) m⟩ := by
    have hindex : BitVec.ofNat 16 ((k + 1) * 2) = BitVec.ofNat 16 (k * 2) + 2 := ofNat_next 2 k
    rw [wordsAt, hindex, ← BitVec.sub_sub, Nat.succ_mul]
    rfl
  rw [wordsTurn, hnext, wordsEvents_next]
  rfl

end

/-! ## When exactly the buffer is written -/

section

variable {m : Mem} {Offset length batchLen : UShort}

/-- A loop that goes through batches of the buffer and stops as soon as nothing is left covers it
if and only if nothing was rounded up and the length is a number of batches. -/
theorem covers_iff {f : Running Empty Issued} {events : Nat → List Event} {left batch : Nat}
    (hends : ∀ r, Ends f r ↔ ∃ k, UsedUp left batch k ∧ (∀ j, j < k → ¬ UsedUp left batch j) ∧
      (⟨true, events (k + 1)⟩ : Issued) = r)
    (hwrites : ∀ k, (events k).flatMap (Event.writes m)
      = (List.range (k * batch)).map fun i => (Offset + BitVec.ofNat 16 i, m i))
    (hreads : ∀ k, (events k).flatMap Event.reads = List.range (k * batch))
    (hbatch : 0 < batch) (hlength : length ≠ 0) (hle : length.toNat ≤ left)
    (hleft : left ≤ 2 ^ 16) :
    Covers m Offset length f ↔ left = length.toNat ∧ batch ∣ length.toNat := by
  have hpos : 0 < length.toNat :=
    Nat.pos_of_ne_zero fun h => hlength (BitVec.eq_of_toNat_eq h)
  rw [← usedUp_inside_iff hbatch hpos hle hleft]
  constructor
  · rintro ⟨r, hr, -, hall, -⟩
    obtain ⟨k, hused, hfirst, rfl⟩ := (hends r).mp hr
    have hlen := congrArg List.length ((hwrites (k + 1)).symm.trans hall)
    rw [List.length_map, List.length_map, List.length_range, List.length_range] at hlen
    exact ⟨k, hused, hfirst, hlen.le⟩
  · rintro ⟨k, hused, hfirst, hin⟩
    have heq : (k + 1) * batch = length.toNat := by
      have hall := hused.eq hbatch hleft (hin.trans hle)
      omega
    refine ⟨⟨true, events (k + 1)⟩, (hends _).mpr ⟨k, hused, hfirst, rfl⟩, rfl, ?_, ?_⟩
    · rw [Issued.writes, hwrites, heq]
    · intro i hi
      rw [Issued.reads, hreads, heq, List.mem_range] at hi
      exact hi

theorem rtusbMultiWriteNBytes_ends (r : Issued) :
    Ends (rtusbMultiWriteNBytes allSucceed Offset length batchLen) r ↔
      ∃ k, UsedUp length.toNat batchLen.toNat k ∧
        (∀ j, j < k → ¬ UsedUp length.toNat batchLen.toNat j) ∧
        ⟨true, bytesEvents Offset batchLen (k + 1)⟩ = r := by
  have hstart : (⟨Offset, batchLen, length, 0, []⟩ : BytesLoop)
      = bytesAt Offset length batchLen 0 := by
    simp [bytesAt, bytesEvents]
  unfold rtusbMultiWriteNBytes
  rw [hstart]
  refine ends_counted_iff (fun k hk => ?_) fun k hk => ?_
  · rw [bytesTurn_at, if_neg fun h => (pos_iff_not_usedUp length batchLen k).mp h hk]
  · rw [bytesTurn_at, if_pos ((pos_iff_not_usedUp length batchLen k).mpr hk)]

/-- **The routine that takes a batch length** covers the buffer if and only if the length is a
number of batches. -/
theorem rtusbMultiWriteNBytes_covers (hlength : length ≠ 0) (hbatch : batchLen ≠ 0) :
    Covers m Offset length (rtusbMultiWriteNBytes allSucceed Offset length batchLen)
      ↔ batchLen.toNat ∣ length.toNat := by
  have hpos : 0 < batchLen.toNat :=
    Nat.pos_of_ne_zero fun h => hbatch (BitVec.eq_of_toNat_eq h)
  have hiff := covers_iff (m := m) rtusbMultiWriteNBytes_ends
    (fun k => bytesEvents_writes Offset batchLen k m) (bytesEvents_reads Offset batchLen) hpos
    hlength (Nat.le_refl _) (Nat.le_of_lt length.isLt)
  simpa using hiff

/-- The length rounded up may be zero modulo 2^16. -/
theorem usedUp_rounded (k : Nat) :
    UsedUp (length + length % 2).toNat 2 k ↔ UsedUp (length.toNat + length.toNat % 2) 2 k := by
  simp [UsedUp, Nat.ModEq]

theorem rtusbMultiWrite_ends (r : Issued) :
    Ends (rtusbMultiWrite allSucceed m Offset length) r ↔
      ∃ k, UsedUp (length.toNat + length.toNat % 2) 2 k ∧
        (∀ j, j < k → ¬ UsedUp (length.toNat + length.toNat % 2) 2 j) ∧
        ⟨true, wordsEvents Offset (k + 1) m⟩ = r := by
  have hstart : (⟨0, length + length % 2, 0, []⟩ : WordsLoop) = wordsAt Offset length 0 m := by
    simp [wordsAt, wordsEvents]
  have hpos (k : Nat) : length + length % 2 - BitVec.ofNat 16 (k * 2) - 2 > 0
      ↔ ¬ UsedUp (length.toNat + length.toNat % 2) 2 k := by
    rw [← usedUp_rounded]
    exact pos_iff_not_usedUp (length + length % 2) 2 k
  have hret (k : Nat) (hk : UsedUp (length.toNat + length.toNat % 2) 2 k) :
      wordsTurn allSucceed m Offset (wordsAt Offset length k m)
        = .ret ⟨true, wordsEvents Offset (k + 1) m⟩ := by
    rw [wordsTurn_at, if_neg fun h => (hpos k).mp h hk]
  have hnext (k : Nat) (hk : ¬ UsedUp (length.toNat + length.toNat % 2) 2 k) :
      wordsTurn allSucceed m Offset (wordsAt Offset length k m)
        = .next (wordsAt Offset length (k + 1) m) := by
    rw [wordsTurn_at, if_pos ((hpos k).mpr hk)]
  unfold rtusbMultiWrite
  dsimp only
  rw [hstart]
  exact ends_counted_iff hret hnext

/-- **The routine that writes words** covers the buffer if and only if the length is even. -/
theorem rtusbMultiWrite_covers (hlength : length ≠ 0) :
    Covers m Offset length (rtusbMultiWrite allSucceed m Offset length) ↔ 2 ∣ length.toNat := by
  have hlt := length.isLt
  rw [covers_iff rtusbMultiWrite_ends (fun k => wordsEvents_writes Offset k m)
    (fun k => wordsEvents_reads Offset k m) Nat.two_pos hlength (Nat.le_add_right _ _) (by omega)]
  omega

end

/-- **Exactly when the data is covered**: by the one routine where the length is a number of
batches, by the other where it is even. -/
theorem multiWrite_covers_iff (m : Mem) (Offset length batchLen : UShort) (hlength : length ≠ 0)
    (hbatch : batchLen ≠ 0) :
    (Covers m Offset length (rtusbMultiWriteNBytes allSucceed Offset length batchLen)
      ↔ batchLen.toNat ∣ length.toNat) ∧
    (Covers m Offset length (rtusbMultiWrite allSucceed m Offset length) ↔ 2 ∣ length.toNat) :=
  ⟨rtusbMultiWriteNBytes_covers hlength hbatch, rtusbMultiWrite_covers hlength⟩

/-- Six bytes in batches of three, and in words. -/
theorem multiWrite_covers_six :
    Covers (fun _ => 0) 0x1000 6 (rtusbMultiWriteNBytes allSucceed 0x1000 6 3) ∧
    Covers (fun _ => 0) 0x1000 6 (rtusbMultiWrite allSucceed (fun _ => 0) 0x1000 6) := by
  obtain ⟨hbytes, hwords⟩ :=
    multiWrite_covers_iff (fun _ => 0) 0x1000 6 3 (by decide) (by decide)
  exact ⟨hbytes.mpr (by decide), hwords.mpr (by decide)⟩

/-- Three bytes are not covered in batches of two, nor in words. -/
theorem multiWrite_three :
    ¬ Covers (fun _ => 0) 0x1000 3 (rtusbMultiWriteNBytes allSucceed 0x1000 3 2) ∧
    ¬ Covers (fun _ => 0) 0x1000 3 (rtusbMultiWrite allSucceed (fun _ => 0) 0x1000 3) := by
  rw [rtusbMultiWriteNBytes_covers (by decide) (by decide), rtusbMultiWrite_covers (by decide)]
  decide

end ExtDrv.Rt3370.MultiWrite
