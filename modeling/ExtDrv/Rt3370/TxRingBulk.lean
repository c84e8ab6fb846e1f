import ExtDrv.Rt3370.TxRing
import Mathlib.Data.List.GetD

/-!
# What a bulk-out takes from the ring

The loop of RTUSBBulkOutDataPacket over frames that stand in the buffer one behind the other:
it takes some of them off the front, and changes nothing of them but two flags of their TXINFO.
-/

namespace ExtDrv.Rt3370.TxRing

open Memory Blocks

/-! ## Frames -/

/-- The frame without the two flags of its TXINFO that a transfer sets anew. -/
def plain (bytes : List Byte) : List Byte := bytes.modify 3 (· &&& 0xb7)

/-- `USBDMATxPktLen`, of the TXINFO at the front of the bytes. -/
def pktLen (bytes : List Byte) : Nat := (bytes.getD 0 0).toNat + 256 * (bytes.getD 1 0).toNat

/-- The bytes of a frame: a TXINFO with the length of what follows, and `FIFO_EDCA`. -/
structure Formed (bytes : List Byte) : Prop where
  long : 20 ≤ bytes.length
  length : pktLen bytes + 4 = bytes.length
  queue : bytes.getD 3 0 &&& 0x06 = 0x04

/-- `SwUseLastRound`. -/
def endsLap (bytes : List Byte) : Prop := bytes.getD 3 0 &&& swUseLastRound ≠ 0

instance (bytes : List Byte) : Decidable (endsLap bytes) :=
  inferInstanceAs (Decidable (bytes.getD 3 0 &&& swUseLastRound ≠ 0))

theorem getD_plain {bytes : List Byte} {i : Nat} (hi : i ≠ 3) :
    (plain bytes).getD i 0 = bytes.getD i 0 := by
  simp only [plain, List.getD_eq_getElem?_getD, List.getElem?_modify, if_neg (Ne.symm hi)]
  simp

@[simp] theorem pktLen_plain (bytes : List Byte) : pktLen (plain bytes) = pktLen bytes := by
  simp only [pktLen, getD_plain (show (0 : Nat) ≠ 3 by decide),
    getD_plain (show (1 : Nat) ≠ 3 by decide)]

theorem pktLen_append {bytes rest : List Byte} (h : 2 ≤ bytes.length) :
    pktLen (bytes ++ rest) = pktLen bytes := by
  rw [pktLen, pktLen, List.getD_append _ _ _ _ (by omega), List.getD_append _ _ _ _ (by omega)]

/-! ## Marks -/

/-- `m'` has the bytes of `m`, but for the two flags in the TXINFOs of the frames. -/
def Marked (frames : List Block) (m m' : Mem) : Prop :=
  ∀ a, m' a = m a ∨ (∃ f ∈ frames, a = f.pos + 3) ∧ m' a &&& 0xb7 = m a &&& 0xb7

theorem Marked.refl (frames : List Block) (m : Mem) : Marked frames m m := fun _ => .inl rfl

theorem Marked.trans {frames frames' : List Block} {m m' m'' : Mem} (h : Marked frames m m')
    (h' : Marked frames' m' m'') : Marked (frames ++ frames') m m'' := by
  intro a
  rcases h a with heq | ⟨⟨f, hf, hpos⟩, hmask⟩
  · rcases h' a with heq' | ⟨⟨f, hf, hpos⟩, hmask'⟩
    · exact .inl (heq'.trans heq)
    · exact .inr ⟨⟨f, List.mem_append_right _ hf, hpos⟩, hmask'.trans (by rw [heq])⟩
  · refine .inr ⟨⟨f, List.mem_append_left _ hf, hpos⟩, ?_⟩
    rcases h' a with heq' | ⟨_, hmask'⟩
    · rw [heq', hmask]
    · rw [hmask', hmask]

theorem Marked.subset {frames frames' : List Block} {m m' : Mem} (h : Marked frames m m')
    (hsub : frames ⊆ frames') : Marked frames' m m' := fun a =>
  (h a).imp_right fun ⟨⟨f, hf, hpos⟩, hmask⟩ => ⟨⟨f, hsub hf, hpos⟩, hmask⟩

/-- A byte behind the TXINFOs of a tiling, or in front of it, has no mark. -/
theorem Marked.outside {frames : List Block} {m m' : Mem} {p q a : Nat} (h : Marked frames m m')
    (htiles : Tiles p frames q) (hlong : ∀ f ∈ frames, 20 ≤ f.bytes.length)
    (ha : a < p ∨ q ≤ a) : m' a = m a := by
  rcases h a with heq | ⟨⟨f, hf, hpos⟩, _⟩
  · exact heq
  · have hin := htiles.bounds hf
    have hlen := hlong f hf
    omega

/-- Two memories that differ in the flags only hold the same frame but for the flags. -/
theorem plain_segment_congr {m m' : Mem} {o n : Nat}
    (h : ∀ i, i < n → i ≠ 3 → m' (o + i) = m (o + i))
    (h3 : m' (o + 3) &&& 0xb7 = m (o + 3) &&& 0xb7) :
    plain (segment m' o n) = plain (segment m o n) := by
  refine List.ext_getElem? fun i => ?_
  simp only [plain, List.getElem?_modify]
  by_cases hi : i < n
  · rw [getElem?_segment _ hi, getElem?_segment _ hi]
    by_cases hi3 : i = 3
    · subst hi3
      simpa using h3
    · rw [h i hi hi3]
  · rw [List.getElem?_eq_none (by simpa using hi), List.getElem?_eq_none (by simpa using hi)]

/-- A frame in a marked memory is the frame but for the flags. -/
theorem Marked.plain_segment {frames : List Block} {m m' : Mem} {p q : Nat}
    (h : Marked frames m m') (htiles : Tiles p frames q)
    (hlong : ∀ f ∈ frames, 20 ≤ f.bytes.length) {f : Block} (hf : f ∈ frames)
    (hst : f.Standing m) : plain (segment m' f.pos f.bytes.length) = plain f.bytes := by
  have hbytes : segment m f.pos f.bytes.length = f.bytes := hst
  refine (plain_segment_congr (fun i hi hi3 => ?_) ?_).trans (congrArg plain hbytes)
  · rcases h (f.pos + i) with heq | ⟨⟨g, hg, hpos⟩, _⟩
    · exact heq
    · have hapart := htiles.apart hf hg
      have hlen := hlong g hg
      omega
  · rcases h (f.pos + 3) with heq | ⟨_, hmask⟩
    · rw [heq]
    · exact hmask

/-! ## The loop -/

/-- The frames from `p` on that the loop may come to: they follow one another up to
`CurWritePosition`, or up to one that ends the lap. -/
def Lap (curWritePosition : Nat) : Nat → List Block → Prop
  | p, [] => p = curWritePosition
  | p, f :: fs =>
      f.pos = p ∧ p ≠ curWritePosition ∧
        if endsLap f.bytes then fs = [] else Lap curWritePosition (p + f.bytes.length) fs

theorem Lap.le {cw p : Nat} {fs : List Block} (h : Lap cw p fs) {f : Block} (hf : f ∈ fs) :
    p ≤ f.pos := by
  induction fs generalizing p with
  | nil => cases hf
  | cons g fs ih =>
      obtain ⟨rfl, _, hnext⟩ := h
      rcases List.mem_cons.mp hf with rfl | hmem
      · exact Nat.le_refl _
      · split at hnext
        · subst hnext
          cases hmem
        · exact Nat.le_trans (Nat.le_add_right _ _) (ih hnext hmem)

/-- What the loop has done from `p` on: it took `taken`, and left `rest`. -/
structure Took (curWritePosition p size : Nat) (m : Mem) (taken rest : List Block) (e : BulkEnd) :
    Prop where
  tiles : Tiles p taken e.tmpBulkEndPos
  marked : Marked taken m e.buffer
  size : e.thisBulkSize = size + (e.tmpBulkEndPos - p)
  round : e.bTxQLastRound = true → rest = [] ∧ ∃ f ∈ taken, endsLap f.bytes
  goesOn : e.bTxQLastRound = false →
    Lap curWritePosition e.tmpBulkEndPos rest ∧ ∀ f ∈ taken, ¬ endsLap f.bytes
  complete : e.tooShort = false

/-- Nothing is taken. -/
theorem Took.none {cw p size : Nat} {m : Mem} {last : Option Nat} {fs : List Block}
    (hlap : Lap cw p fs) : Took cw p size m [] fs ⟨m, p, size, last, false, false⟩ where
  tiles := rfl
  marked := .refl _ _
  size := by simp
  round := by simp
  goesOn := fun _ => ⟨hlap, by simp⟩
  complete := rfl

/-- A frame in front of those that are taken. -/
theorem Took.cons {cw size : Nat} {m m' : Mem} {f : Block} {taken rest : List Block} {e : BulkEnd}
    (h : Took cw (f.pos + f.bytes.length) (size + f.bytes.length) m' taken rest e)
    (hmarked : Marked [f] m m') (hlast : ¬ endsLap f.bytes) :
    Took cw f.pos size m (f :: taken) rest e where
  tiles := ⟨rfl, h.tiles⟩
  marked := hmarked.trans h.marked
  size := by
    have hle := h.tiles.le
    rw [h.size]
    omega
  round := fun hround => by
    obtain ⟨hrest, g, hg, hends⟩ := h.round hround
    exact ⟨hrest, g, List.mem_cons_of_mem _ hg, hends⟩
  goesOn := fun hround => by
    obtain ⟨hlap, hnone⟩ := h.goesOn hround
    exact ⟨hlap, List.forall_mem_cons.mpr ⟨hlast, hnone⟩⟩
  complete := h.complete

/-- The flags of a frame are set. -/
theorem Marked.of_flags {m : Mem} {f : Block} {marked : Byte}
    (hmask : marked &&& 0xb7 = m (f.pos + 3) &&& 0xb7) :
    Marked [f] m (store m (f.pos + 3) [marked]) := by
  intro a
  by_cases ha : a = f.pos + 3
  · subst ha
    exact .inr ⟨⟨f, List.mem_singleton_self f, rfl⟩, by simpa [store] using hmask⟩
  · exact .inl (store_outside (by rw [List.length_singleton]; omega))

theorem markTxInfo_mask {flags : Byte} (hqueue : flags &&& 0x06 = 0x04) (atWrite wrapped : Bool) :
    markTxInfo flags atWrite wrapped &&& 0xb7 = flags &&& 0xb7 := by
  revert flags atWrite wrapped
  decide +kernel

/-- A frame in front of everything else is taken without regard to the size. -/
theorem bulkSizeReached_zero (bulkOutMaxPacketSize : Nat) (m : Mem) (p : Nat) :
    bulkSizeReached bulkOutMaxPacketSize m p 0 = false := by
  simp [bulkSizeReached]

theorem usbDMATxPktLen_standing {m : Mem} {f : Block} (h : f.Standing m) (hf : Formed f.bytes) :
    usbDMATxPktLen m f.pos = pktLen f.bytes := by
  have hlong := hf.long
  have h0 := h.getD (i := 0) (by omega)
  have h1 := h.getD (i := 1) (by omega)
  rw [Nat.add_zero] at h0
  rw [usbDMATxPktLen, pktLen, h0, h1]

/-- A turn of the loop that comes to a frame and takes it. -/
theorem bulkLoop_frame {bulkOutMaxPacketSize cw size : Nat} (fuel : Nat) {m : Mem}
    (last : Option Nat) {f : Block} (hst : f.Standing m) (hf : Formed f.bytes) (hcw : f.pos ≠ cw)
    (hgoes : bulkSizeReached bulkOutMaxPacketSize m f.pos size = false) :
    ∃ marked : Byte, marked &&& 0xb7 = m (f.pos + 3) &&& 0xb7 ∧
      bulkLoop bulkOutMaxPacketSize cw (fuel + 1) m f.pos size last =
        if endsLap f.bytes then
          some ⟨store m (f.pos + 3) [marked], f.pos + f.bytes.length, size + f.bytes.length,
            some f.pos, true, false⟩
        else
          bulkLoop bulkOutMaxPacketSize cw fuel (store m (f.pos + 3) [marked])
            (f.pos + f.bytes.length) (size + f.bytes.length) (some f.pos) := by
  have hlong := hf.long
  have hflags : m (f.pos + 3) = f.bytes.getD 3 0 := hst.getD (by omega)
  refine ⟨markTxInfo (m (f.pos + 3)) (f.pos + f.bytes.length = cw) (cw = 8), ?_, ?_⟩
  · refine markTxInfo_mask ?_ _ _
    rw [hflags]
    exact hf.queue
  · have hlen := usbDMATxPktLen_standing hst hf
    have hstop : ¬ (bulkSizeReached bulkOutMaxPacketSize m f.pos size = true ∨ f.pos = cw) := by
      simp [hgoes, hcw]
    have hlong' : ¬ pktLen f.bytes ≤ 8 := by
      have hsum := hf.length
      omega
    simp only [bulkLoop, if_neg hstop, hlen, if_neg hlong', hf.length, endsLap, hflags]
    exact (ite_not ..).symm

theorem bulkLoop_took (bulkOutMaxPacketSize : Nat) {cw p fuel : Nat} (size : Nat) {m : Mem}
    (last : Option Nat) {fs : List Block} (hlap : Lap cw p fs) (hst : ∀ f ∈ fs, f.Standing m)
    (hf : ∀ f ∈ fs, Formed f.bytes) (hfuel : fs.length < fuel) :
    ∃ taken rest e, bulkLoop bulkOutMaxPacketSize cw fuel m p size last = some e ∧
      fs = taken ++ rest ∧ Took cw p size m taken rest e ∧
      (taken = [] ∧ e.pLastTxInfo = last ∨ ∃ f ∈ taken, e.pLastTxInfo = some f.pos) ∧
      (size = 0 → fs ≠ [] → taken ≠ []) := by
  induction fs generalizing p size fuel m last with
  | nil =>
      obtain ⟨fuel, rfl⟩ := Nat.exists_eq_succ_of_ne_zero (Nat.ne_zero_of_lt hfuel)
      refine ⟨[], [], ⟨m, p, size, last, false, false⟩, ?_, rfl, ?_, .inl ⟨rfl, rfl⟩, ?_⟩
      · have hp : p = cw := hlap
        rw [bulkLoop, if_pos (Or.inr hp)]
      · exact .none hlap
      · exact fun _ hne => absurd rfl hne
  | cons f fs ih =>
      obtain ⟨fuel, rfl⟩ := Nat.exists_eq_succ_of_ne_zero (Nat.ne_zero_of_lt hfuel)
      obtain ⟨rfl, hcw, hnext⟩ := hlap
      obtain ⟨hstf, hstfs⟩ := List.forall_mem_cons.mp hst
      obtain ⟨hff, hffs⟩ := List.forall_mem_cons.mp hf
      cases hreached : bulkSizeReached bulkOutMaxPacketSize m f.pos size with
      | true =>
          refine ⟨[], f :: fs, ⟨m, f.pos, size, last, false, false⟩, ?_, rfl, ?_,
            .inl ⟨rfl, rfl⟩, ?_⟩
          · rw [bulkLoop, if_pos (Or.inl hreached)]
          · exact .none ⟨rfl, hcw, hnext⟩
          · rintro rfl
            rw [bulkSizeReached_zero] at hreached
            cases hreached
      | false =>
          obtain ⟨marked, hmask, hturn⟩ := bulkLoop_frame fuel last hstf hff hcw hreached
          rw [hturn]
          have hmarked := Marked.of_flags hmask
          by_cases hlast : endsLap f.bytes
          · rw [if_pos hlast] at hnext ⊢
            subst hnext
            refine ⟨[f], [], _, rfl, rfl, ?_, .inr ⟨f, List.mem_singleton_self f, rfl⟩, by simp⟩
            exact
              { tiles := ⟨rfl, rfl⟩, marked := hmarked, size := by simp,
                round := fun _ => ⟨rfl, f, List.mem_singleton_self f, hlast⟩,
                goesOn := by simp, complete := rfl }
          · rw [if_neg hlast] at hnext ⊢
            have hst' : ∀ g ∈ fs, g.Standing (store m (f.pos + 3) [marked]) := fun g hg =>
              (hstfs g hg).congr fun a ha _ => store_outside (.inr (by
                have hbehind := hnext.le hg
                have hlong := hff.long
                rw [List.length_singleton]
                omega))
            obtain ⟨taken, rest, e, hrun, rfl, htook, hlastInfo, -⟩ :=
              ih (size + f.bytes.length) (some f.pos) hnext hst' hffs
                (Nat.lt_of_succ_lt_succ hfuel)
            refine ⟨f :: taken, rest, e, hrun, rfl, htook.cons hmarked hlast, .inr ?_, by simp⟩
            · rcases hlastInfo with ⟨-, hinfo⟩ | ⟨g, hg, hinfo⟩
              · exact ⟨f, List.mem_cons_self, hinfo⟩
              · exact ⟨g, List.mem_cons_of_mem _ hg, hinfo⟩

/-! ## The transfer -/

/-- The frames at the front of the bytes, by the lengths in their TXINFOs, down to the padding of
four bytes. -/
def unpack : Nat → List Byte → List (List Byte)
  | 0, _ => []
  | n + 1, bytes =>
      if bytes.length ≤ 4 then []
      else bytes.take (pktLen bytes + 4) :: unpack n (bytes.drop (pktLen bytes + 4))

/-- The frames a transfer carries. -/
def carried (transfer : List Byte) : List (List Byte) := unpack transfer.length transfer

theorem unpack_flatten {frames : List (List Byte)}
    (h : ∀ g ∈ frames, 20 ≤ g.length ∧ pktLen g + 4 = g.length) {n : Nat}
    (hn : frames.length ≤ n) : unpack n (frames.flatten ++ zeros 4) = frames := by
  induction frames generalizing n with
  | nil =>
      cases n with
      | zero => rfl
      | succ n => exact if_pos (Nat.le_refl 4)
  | cons g frames ih =>
      obtain ⟨n, rfl⟩ := Nat.exists_eq_succ_of_ne_zero (Nat.ne_zero_of_lt hn)
      obtain ⟨⟨hlong, hlen⟩, htail⟩ := List.forall_mem_cons.mp h
      have hpkt : pktLen (g ++ (frames.flatten ++ zeros 4)) + 4 = g.length := by
        rw [pktLen_append (by omega), hlen]
      have hmore : ¬ (g ++ (frames.flatten ++ zeros 4)).length ≤ 4 := by
        rw [List.length_append]
        omega
      rw [List.flatten_cons, List.append_assoc, unpack, if_neg hmore, hpkt, List.take_left,
        List.drop_left, ih htail (Nat.le_of_succ_le_succ hn)]

/-- The bytes of frames that were marked, with the padding behind them, carry these frames. -/
theorem carried_marked {frames : List Block} {m m' : Mem} {p q : Nat} (htiles : Tiles p frames q)
    (hmarked : Marked frames m m') (hst : ∀ f ∈ frames, f.Standing m)
    (hf : ∀ f ∈ frames, Formed f.bytes) :
    (carried (segment (store m' q (zeros 8)) p (q - p + 4))).map plain =
      frames.map fun f => plain f.bytes := by
  have hle := htiles.le
  have hplain : ∀ f ∈ frames, plain (segment m' f.pos f.bytes.length) = plain f.bytes :=
    fun f hmem => hmarked.plain_segment htiles (fun g hg => (hf g hg).long) hmem (hst f hmem)
  have hpad : segment (store m' q (zeros 8)) q 4 = zeros 4 := segment_store_take _ _ (by decide)
  have hbytes : segment (store m' q (zeros 8)) p (q - p + 4) =
      (frames.map fun f => segment m' f.pos f.bytes.length).flatten ++ zeros 4 := by
    rw [segment_add, segment_store_of_le (by omega), htiles.segment_eq,
      show p + (q - p) = q by omega, hpad]
  have hformed : ∀ g ∈ frames.map fun f => segment m' f.pos f.bytes.length,
      20 ≤ g.length ∧ pktLen g + 4 = g.length := by
    intro g hg
    obtain ⟨f, hmem, rfl⟩ := List.mem_map.mp hg
    have hpkt := congrArg pktLen (hplain f hmem)
    rw [pktLen_plain, pktLen_plain] at hpkt
    rw [length_segment, hpkt]
    exact ⟨(hf f hmem).long, (hf f hmem).length⟩
  have hcount : frames.length ≤ q - p + 4 := by
    have hsize := htiles.size_le (n := 1) fun f hmem => by
      have hlong := (hf f hmem).long
      omega
    omega
  rw [carried, length_segment, hbytes, unpack_flatten hformed (by rwa [List.length_map]),
    List.map_map]
  exact List.map_congr_left hplain

/-- What a bulk-out does to the ring: it takes the frames `taken`, and leaves `rest` of the
lap. -/
structure TakesOut (c c' : HtTxContext) (taken rest : List Block) : Prop where
  nonempty : taken ≠ []
  curWritePosition : c'.curWritePosition = c.curWritePosition
  curWriteRealPos : c'.curWriteRealPos = c.curWriteRealPos
  bCurWriting : c'.bCurWriting = c.bCurWriting
  nextBulkOutPosition : c'.nextBulkOutPosition = c.eNextBulkOutPosition
  carries : (carried c'.transfer).map plain = taken.map fun f => plain f.bytes
  ends : ∃ stop, Tiles c.eNextBulkOutPosition taken stop ∧
    c'.bulkOutSize = stop - c.eNextBulkOutPosition + 4 ∧
    (∀ a, a < c.eNextBulkOutPosition ∨ stop ≤ a → c'.bCopySavePad = true ∨ a < stop ∨ stop + 8 ≤ a →
      c'.restored a = c.restored a) ∧
    (c'.eNextBulkOutPosition = 8 ∧ c'.bCopySavePad = false ∧ rest = [] ∧
        (∃ f ∈ taken, endsLap f.bytes) ∨
      c'.eNextBulkOutPosition = stop ∧ Lap c.curWritePosition stop rest ∧
        (∀ f ∈ taken, ¬ endsLap f.bytes) ∧
        (c'.bCopySavePad = true ↔
          stop ≠ c.curWritePosition ∨ c.curWritePosition < c.curWriteRealPos))

/-- The bytes that are saved in front of the zeroes are not lost. -/
theorem makeUp_restored {c : HtTxContext} {e : BulkEnd} {a : Nat}
    (h : (c.makeUp e).bCopySavePad = true ∨ a < e.tmpBulkEndPos ∨ e.tmpBulkEndPos + 8 ≤ a) :
    (c.makeUp e).restored a = clearLast e.buffer e.pLastTxInfo a := by
  cases hcopy : (c.makeUp e).bCopySavePad with
  | false =>
      have hout : a < e.tmpBulkEndPos ∨ e.tmpBulkEndPos + 8 ≤ a := by simpa [hcopy] using h
      rw [HtTxContext.restored, hcopy]
      exact store_outside (by rwa [length_zeros])
  | true =>
      have hround : e.bTxQLastRound = false := by
        simp only [HtTxContext.makeUp, Bool.and_eq_true, Bool.not_eq_true'] at hcopy
        exact hcopy.1
      have hsaved : (c.makeUp e).savedPad = store c.savedPad 0
          (segment (clearLast e.buffer e.pLastTxInfo) e.tmpBulkEndPos 8) := by
        simp only [HtTxContext.makeUp] at hcopy ⊢
        rw [if_pos hcopy, hround]
        rfl
      have hnext : (c.makeUp e).eNextBulkOutPosition = e.tmpBulkEndPos := by
        simp only [HtTxContext.makeUp, hround]
        rfl
      have hpad : segment (store c.savedPad 0
          (segment (clearLast e.buffer e.pLastTxInfo) e.tmpBulkEndPos 8)) 0 8 =
          segment (clearLast e.buffer e.pLastTxInfo) e.tmpBulkEndPos (zeros 8).length := by
        rw [segment_store_take _ _ (by rw [length_segment]), List.take_of_length_le
          (by rw [length_segment]), length_zeros]
      rw [HtTxContext.restored, if_pos hcopy, hnext, hsaved, hpad]
      exact congrFun (store_segment_undo _ _ _) a

theorem marked_clearLast {frames : List Block} {m : Mem} {p : Nat}
    (h : ∃ f ∈ frames, p = f.pos) : Marked frames m (clearLast m (some p)) := by
  obtain ⟨f, hf, rfl⟩ := h
  intro a
  by_cases ha : a = f.pos + 3
  · subst ha
    refine .inr ⟨⟨f, hf, rfl⟩, ?_⟩
    have hclear : clearLast m (some f.pos) (f.pos + 3) = m (f.pos + 3) &&& ~~~usbDMANextVLD := by
      simp [clearLast, store]
    rw [hclear, BitVec.and_assoc]
    rfl
  · exact .inl (store_outside (by rw [List.length_singleton]; omega))

theorem takesOut_of_bulkLoop (bulkOutMaxPacketSize : Nat) {c : HtTxContext} {fs : List Block}
    (hlap : Lap c.curWritePosition c.eNextBulkOutPosition fs)
    (hst : ∀ f ∈ fs, f.Standing c.restored) (hf : ∀ f ∈ fs, Formed f.bytes) (hne : fs ≠ [])
    (hfuel : fs.length < bulkFuel) :
    ∃ e taken rest, bulkLoop bulkOutMaxPacketSize c.curWritePosition bulkFuel c.restored
        c.eNextBulkOutPosition 0 none = some e ∧ e.tooShort = false ∧ fs = taken ++ rest ∧
      TakesOut c (c.makeUp e) taken rest := by
  obtain ⟨taken, rest, e, hrun, rfl, htook, hlast, htaken⟩ :=
    bulkLoop_took bulkOutMaxPacketSize 0 none hlap hst hf hfuel
  have hnonempty : taken ≠ [] := htaken rfl hne
  have hf' : ∀ f ∈ taken, Formed f.bytes := fun f h => hf f (List.mem_append_left _ h)
  have hst' : ∀ f ∈ taken, f.Standing c.restored := fun f h => hst f (List.mem_append_left _ h)
  have hmarked : Marked taken c.restored (clearLast e.buffer e.pLastTxInfo) := by
    rcases hlast with ⟨hnil, -⟩ | ⟨f, hmem, hinfo⟩
    · exact absurd hnil hnonempty
    · rw [hinfo]
      exact (htook.marked.trans (marked_clearLast ⟨f, hmem, rfl⟩)).subset
        (List.append_subset.mpr ⟨List.Subset.refl _, List.Subset.refl _⟩)
  have hsize : e.thisBulkSize = e.tmpBulkEndPos - c.eNextBulkOutPosition := by
    rw [htook.size, Nat.zero_add]
  refine ⟨e, taken, rest, hrun, htook.complete, rfl, ?_⟩
  exact
    { nonempty := hnonempty
      curWritePosition := rfl
      curWriteRealPos := rfl
      bCurWriting := rfl
      nextBulkOutPosition := rfl
      carries := by
        have hcarried := carried_marked htook.tiles hmarked hst' hf'
        rw [← hsize] at hcarried
        exact hcarried
      ends := by
        refine ⟨e.tmpBulkEndPos, htook.tiles, by rw [← hsize]; rfl, fun a hout hkeep => ?_, ?_⟩
        · rw [makeUp_restored hkeep]
          exact hmarked.outside htook.tiles (fun f h => (hf' f h).long) hout
        · cases hround : e.bTxQLastRound with
          | true =>
              obtain ⟨hrest, hends⟩ := htook.round hround
              refine .inl ⟨?_, ?_, hrest, hends⟩
              · simp [HtTxContext.makeUp, hround]
              · simp [HtTxContext.makeUp, hround]
          | false =>
              obtain ⟨hnext, hnone⟩ := htook.goesOn hround
              refine .inr ⟨?_, hnext, hnone, ?_⟩
              · simp [HtTxContext.makeUp, hround]
              · simp [HtTxContext.makeUp, hround] }

end ExtDrv.Rt3370.TxRing
