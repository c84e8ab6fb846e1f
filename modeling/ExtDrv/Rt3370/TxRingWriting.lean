import ExtDrv.Rt3370.TxRingLaid

/-!
# A batch in the ring

The frames of a batch are laid behind `CurWritePosition`, one part after the other, while what
was written before is sent. What was copied so far, and what is still to be copied, are the
frames of the batch.
-/

namespace ExtDrv.Rt3370.TxRing

open Memory Blocks Run

/-! ## Lengths -/

/-- The bytes an aggregate of `priv` bytes takes up with its padding. -/
def aligned (priv : Nat) : Nat := priv + padding (priv - txinfoSize)

/-- Where the first frame of a batch will stand. -/
def HtTxContext.startsAt (c : HtTxContext) : Nat :=
  if c.eNextBulkOutPosition = c.curWritePosition then c.curWritePosition + 8
  else c.curWritePosition

/-- A batch of `size` bytes from `start` on stays in the buffer with the zeroes behind it, and in
front of `NextBulkOutPosition` where that lies ahead. -/
def Fits (c : HtTxContext) (start size : Nat) : Prop :=
  start + size + 8 ≤ maxTxbulkSize ∧
    (start < c.nextBulkOutPosition → start + size + 8 ≤ c.nextBulkOutPosition)

instance (c : HtTxContext) (start size : Nat) : Decidable (Fits c start size) :=
  inferInstanceAs (Decidable (_ ∧ (_ → _)))

/-! ## A batch that is being written -/

/-- What is zeroed behind a frame, before another is written there. -/
def Stage.behind : Stage → Nat
  | .aggregate => 0
  | _ => 8

/-- The bytes of a batch with its padding. -/
def TxBlk.size (b : TxBlk) : Nat :=
  match b.stage with
  | .aggregate => aligned b.priv
  | _ => b.priv

/-- The frames of a batch, as far as it is written. -/
def TxBlk.Frames (b : TxBlk) (curWritePosition : Nat) : Prop :=
  match b.stage with
  | .fragments => ∀ f ∈ b.frames, Formed f.bytes ∧ ¬ endsLap f.bytes
  | .lastFragment =>
      (∀ f ∈ b.frames, Formed f.bytes) ∧
        (∃ init l, b.frames = init ++ [l] ∧ (∀ f ∈ init, ¬ endsLap f.bytes) ∧
          (endsLap l.bytes ↔ b.txQLastRound = true)) ∧
        b.txQLastRound = decide (120832 < curWritePosition + b.priv + 3906)
  | .aggregate =>
      ∃ bytes, b.frames = [⟨curWritePosition, bytes⟩] ∧ 20 ≤ bytes.length ∧
        bytes.getD 3 0 = 0x04

/-- The writer with a batch: what it copied so far, and what it has still to copy, are its
frames. -/
structure Writing (c : HtTxContext) (b : TxBlk) : Prop where
  bCurWriting : c.bCurWriting = true
  real : c.curWritePosition < c.curWriteRealPos ∧
    c.curWriteRealPos ≤ c.curWritePosition + b.priv
  place : c.curWritePosition + 20 ≤ b.pWirelessPacket
  tiles : Tiles c.curWritePosition b.frames (c.curWritePosition + b.priv)
  bytes : segment c.restored c.curWritePosition (b.pWirelessPacket - c.curWritePosition) ++ b.todo =
    (b.frames.map Block.bytes).flatten ++ zeros b.stage.behind
  frames : b.Frames c.curWritePosition
  fits : Fits c c.curWritePosition b.size
  short : b.stage = .aggregate → b.size ≤ 65539

variable {c : HtTxContext} {b : TxBlk} {numberRequired : Nat} {waiting flying : List Block}

theorem le_aligned (priv : Nat) : priv ≤ aligned priv := Nat.le_add_right _ _

/-- A batch with one frame is as long as this frame. -/
theorem Writing.priv_eq (h : Writing c b) {bytes : List Byte}
    (hsingle : b.frames = [⟨c.curWritePosition, bytes⟩]) : b.priv = bytes.length := by
  obtain ⟨-, hend⟩ : Tiles c.curWritePosition [⟨c.curWritePosition, bytes⟩]
      (c.curWritePosition + b.priv) := hsingle ▸ h.tiles
  exact (Nat.add_left_cancel hend).symm

/-- An aggregate is one frame so far. -/
theorem Writing.aggregate (h : Writing c b) (hstage : b.stage = .aggregate) :
    ∃ bytes, b.frames = [⟨c.curWritePosition, bytes⟩] ∧ b.priv = bytes.length ∧
      20 ≤ bytes.length ∧ bytes.getD 3 0 = 0x04 := by
  have hframes := h.frames
  rw [TxBlk.Frames, hstage] at hframes
  obtain ⟨bytes, hsingle, hlong, hflags⟩ := hframes
  exact ⟨bytes, hsingle, h.priv_eq hsingle, hlong, hflags⟩

/-- The bytes that are still to be copied end in the place of the batch. -/
theorem Writing.length_todo (h : Writing c b) :
    b.pWirelessPacket + b.todo.length = c.curWritePosition + b.priv + b.stage.behind := by
  have hlen := congrArg List.length h.bytes
  have htiles := h.tiles.length_flatten
  have hplace := h.place
  simp only [List.length_append, length_segment, length_zeros] at hlen
  omega

theorem TxBlk.end_le (b : TxBlk) : b.priv + b.stage.behind ≤ b.size + 8 := by
  have hle := le_aligned b.priv
  unfold TxBlk.size Stage.behind
  cases b.stage <;> simp only <;> omega

/-- The zone of a batch. -/
theorem Writing.zone (h : Writing c b)
    (hring : Ring c (numberRequired + 2040) waiting flying) {lo : Nat}
    (hlo : c.curWritePosition ≤ lo)
    (hsaved : c.eNextBulkOutPosition = c.curWritePosition → c.bCopySavePad = true →
      c.curWritePosition + 8 ≤ lo) :
    Zone c waiting flying lo (c.curWritePosition + (b.size + 8)) := by
  obtain ⟨hin, hroom⟩ := h.fits
  exact hring.zone (by omega) h.bCurWriting (by simpa [Nat.add_assoc] using hin)
    (by simpa [Nat.add_assoc] using hroom) hlo hsaved

/-! ## The frames that are laid -/

/-- A TXINFO with the length of what follows it. -/
theorem formed_txInfo {flags : Byte} {rest : List Byte} (hlong : 16 ≤ rest.length)
    (hshort : rest.length ≤ 65535) (hqueue : flags &&& 0x06 = 0x04) :
    Formed ([BitVec.ofNat 8 rest.length, BitVec.ofNat 8 (rest.length / 256), 0, flags] ++ rest) :=
  { long := by
      simp only [List.length_append, List.length_cons, List.length_nil]
      omega
    length := by
      simp only [pktLen, List.cons_append, List.getD_cons_zero, List.getD_cons_succ,
        BitVec.toNat_ofNat, List.length_cons, List.nil_append]
      omega
    queue := hqueue }

/-- The TXINFO of a fragment: the queue, and `SwUseLastRound` in the last round. -/
theorem fragTxInfo_eq (hdr src : List Byte) (isLast lastRound : Bool) :
    ∃ flags : Byte, flags &&& 0x06 = 0x04 ∧
      (flags &&& swUseLastRound ≠ 0 ↔ lastRound = true) ∧
      fragTxInfo hdr src isLast lastRound =
        [BitVec.ofNat 8 (hdr.length + src.length + padding (hdr.length + src.length)),
          BitVec.ofNat 8 ((hdr.length + src.length + padding (hdr.length + src.length)) / 256),
          0, flags] := by
  cases isLast <;> cases lastRound <;> exact ⟨_, by decide, by decide, rfl⟩

theorem length_fragTxInfo (hdr src : List Byte) (isLast lastRound : Bool) :
    (fragTxInfo hdr src isLast lastRound).length = 4 := by
  obtain ⟨flags, -, -, heq⟩ := fragTxInfo_eq hdr src isLast lastRound
  rw [heq]
  rfl

/-- The bytes of a fragment. -/
def fragBytes (hdr src : List Byte) (isLast lastRound : Bool) : List Byte :=
  fragTxInfo hdr src isLast lastRound ++ hdr ++ src ++ zeros (padding (hdr.length + src.length))

theorem length_fragBytes (hdr src : List Byte) (isLast lastRound : Bool) :
    (fragBytes hdr src isLast lastRound).length = frameSize hdr src := by
  simp only [fragBytes, frameSize, txinfoSize, List.length_append, length_fragTxInfo, length_zeros]
  omega

theorem fragBytes_formed {hdr src : List Byte} (hlong : 16 ≤ hdr.length)
    (hshort : frameSize hdr src ≤ 65539) (isLast lastRound : Bool) :
    Formed (fragBytes hdr src isLast lastRound) ∧
      (endsLap (fragBytes hdr src isLast lastRound) ↔ lastRound = true) := by
  obtain ⟨flags, hqueue, hround, heq⟩ := fragTxInfo_eq hdr src isLast lastRound
  have hlen : (hdr ++ src ++ zeros (padding (hdr.length + src.length))).length =
      hdr.length + src.length + padding (hdr.length + src.length) := by
    simp only [List.length_append, length_zeros]
  have hbytes : fragBytes hdr src isLast lastRound =
      fragTxInfo hdr src isLast lastRound ++
        (hdr ++ src ++ zeros (padding (hdr.length + src.length))) := by
    simp only [fragBytes, List.append_assoc]
  have hsize : hdr.length + src.length + padding (hdr.length + src.length) ≤ 65535 := by
    simp only [frameSize, txinfoSize] at hshort
    omega
  rw [hbytes, heq, ← hlen]
  exact ⟨formed_txInfo (by omega) (by omega) hqueue, hround⟩

/-! ## Laying a part of a batch -/

/-- The state but for the ring and the batch. -/
structure SameRest (s s' : State) : Prop where
  bulkOutPending : s'.bulkOutPending = s.bulkOutPending
  bulkOutReset : s'.bulkOutReset = s.bulkOutReset
  transfers : s'.transfers = s.transfers

/-- What a step of the writer leaves: the ring as it was, its batch so far, and the bytes stored
in the zone of the batch. -/
structure Lays (s : State) (c : HtTxContext) (s' : State) (numberRequired : Nat)
    (waiting flying : List Block) : Prop where
  rest : SameRest s s'
  granted : s'.numberRequired = s.numberRequired
  accepted : s'.accepted = s.accepted
  ring : Ring s'.ctx (numberRequired + 2040) waiting flying
  writing : ∃ b', s'.blk = some b' ∧ Writing s'.ctx b'
  zone : ∃ lo hi, Zone c waiting flying lo hi ∧
    ∀ w ∈ s'.written, lo ≤ w.pos ∧ w.pos + w.bytes.length ≤ hi

/-- Bytes are stored behind the `priv` bytes of the batch that are there. -/
theorem Ring.lays (hring : Ring c (numberRequired + 2040) waiting flying)
    (hw : c.bCurWriting = true) (priv real : Nat) (bs : List Byte) (b' : TxBlk)
    {old : List Byte} {s s' : State} (hrest : SameRest s s')
    (hreq : s'.numberRequired = s.numberRequired) (haccepted : s'.accepted = s.accepted)
    (hold : segment c.restored c.curWritePosition priv = old)
    (hfirst : c.eNextBulkOutPosition = c.curWritePosition → c.bCopySavePad = true → 8 ≤ priv)
    (hctx : s'.ctx = { c.put [⟨c.curWritePosition + priv, bs⟩] with curWriteRealPos := real })
    (hblk : s'.blk = some b') (hwritten : s'.written = [⟨c.curWritePosition + priv, bs⟩])
    (hplace : b'.pWirelessPacket = c.curWritePosition + (priv + bs.length))
    (hlong : 20 ≤ priv + bs.length)
    (hreal : c.curWritePosition < real ∧ real ≤ c.curWritePosition + b'.priv)
    (htiles : Tiles c.curWritePosition b'.frames (c.curWritePosition + b'.priv))
    (hbytes : old ++ bs ++ b'.todo =
      (b'.frames.map Block.bytes).flatten ++ zeros b'.stage.behind)
    (hframes : b'.Frames c.curWritePosition)
    (hfits : Fits c c.curWritePosition b'.size)
    (hshort : b'.stage = .aggregate → b'.size ≤ 65539) :
    Lays s c s' numberRequired waiting flying := by
  have hlen := congrArg List.length hbytes
  have hflat := htiles.length_flatten
  have hold' := congrArg List.length hold
  rw [length_segment] at hold'
  simp only [List.length_append, length_zeros] at hlen
  have hend := b'.end_le
  have hzone : Zone c waiting flying (c.curWritePosition + priv)
      (c.curWritePosition + (b'.size + 8)) := by
    obtain ⟨hin, hroom⟩ := hfits
    exact hring.zone (by omega) hw (by simpa [Nat.add_assoc] using hin)
      (by simpa [Nat.add_assoc] using hroom)
      (Nat.le_add_right _ _)
      (fun heq hcopy => Nat.add_le_add_left (hfirst heq hcopy) _)
  have hin : ∀ w ∈ [(⟨c.curWritePosition + priv, bs⟩ : Block)], c.curWritePosition + priv ≤ w.pos ∧
      w.pos + w.bytes.length ≤ c.curWritePosition + (b'.size + 8) := by
    intro w hmem
    rw [List.mem_singleton.mp hmem]
    refine ⟨Nat.le_refl _, ?_⟩
    show c.curWritePosition + priv + bs.length ≤ _
    omega
  have hput := hring.put hzone hin
  have hrestored := hzone.restored_put hin
  have hcopied : segment (c.put [⟨c.curWritePosition + priv, bs⟩]).restored c.curWritePosition
      (b'.pWirelessPacket - c.curWritePosition) ++ b'.todo =
      (b'.frames.map Block.bytes).flatten ++ zeros b'.stage.behind := by
    rw [hrestored, storeAll_cons, storeAll_nil, hplace, Nat.add_sub_cancel_left,
      segment_store_behind, hold, hbytes]
  refine
    { rest := hrest
      granted := hreq
      accepted := haccepted
      ring := ?_
      writing := ⟨b', hblk, ?_⟩
      zone := ⟨_, _, hzone, by rwa [hwritten]⟩ }
  · rw [hctx]
    exact { hput with standing := hput.standing, carries := hput.carries, place := hput.place }
  · rw [hctx]
    exact
      { bCurWriting := hw
        real := hreal
        place := by rw [hplace]; exact Nat.add_le_add_left hlong _
        tiles := htiles
        bytes := hcopied
        frames := hframes
        fits := hfits
        short := hshort }

/-- Another fragment behind the ones that are laid. -/
theorem writeFragment_lays (s : State) (hring : Ring c (numberRequired + 2040) waiting flying)
    (hw : c.bCurWriting = true) (priv : Nat) (frames : List Block) {hdr src : List Byte}
    (isLast : Bool)
    (hold : segment c.restored c.curWritePosition priv = (frames.map Block.bytes).flatten)
    (hfirst : c.eNextBulkOutPosition = c.curWritePosition → c.bCopySavePad = true → 8 ≤ priv)
    (htiles : Tiles c.curWritePosition frames (c.curWritePosition + priv))
    (hframes : ∀ f ∈ frames, Formed f.bytes ∧ ¬ endsLap f.bytes) (hlong : 16 ≤ hdr.length)
    (hreal : c.curWritePosition ≤ c.curWriteRealPos ∧
      c.curWriteRealPos ≤ c.curWritePosition + priv)
    (hshort : frameSize hdr src ≤ 65539)
    (hfits : Fits c c.curWritePosition (priv + frameSize hdr src)) :
    Lays s c (writeFragment s c priv frames hdr src isLast) numberRequired waiting flying := by
  generalize hround : (isLast && decide (maxTxbulkLimit < c.curWritePosition +
    (priv + frameSize hdr src) + aggregateReserve)) = lastRound
  obtain ⟨hformed, hends⟩ := fragBytes_formed hlong hshort isLast lastRound
  have hheader : (fragTxInfo hdr src isLast lastRound ++ hdr).length = 4 + hdr.length := by
    rw [List.length_append, length_fragTxInfo]
  have hsize : frameSize hdr src = 4 + (hdr.length + src.length +
    padding (hdr.length + src.length)) := rfl
  have htiles' : Tiles c.curWritePosition
      (frames ++ [⟨c.curWritePosition + priv, fragBytes hdr src isLast lastRound⟩])
      (c.curWritePosition + (priv + frameSize hdr src)) := by
    have hnext := tiles_singleton (c.curWritePosition + priv) (fragBytes hdr src isLast lastRound)
    rw [length_fragBytes, Nat.add_assoc] at hnext
    exact htiles.append hnext
  have hbytes : (frames.map Block.bytes).flatten ++ (fragTxInfo hdr src isLast lastRound ++ hdr) ++
      (src ++ zeros (padding (hdr.length + src.length) + 8)) =
      ((frames ++ [(⟨c.curWritePosition + priv, fragBytes hdr src isLast lastRound⟩ : Block)]).map
        Block.bytes).flatten ++ zeros 8 := by
    simp [fragBytes, zeros, List.replicate_add]
  have hwrite : writeFragment s c priv frames hdr src isLast =
      { s with
        ctx := { c.put
            [⟨c.curWritePosition + priv, fragTxInfo hdr src isLast lastRound ++ hdr⟩] with
          curWriteRealPos :=
            c.curWriteRealPos + (fragTxInfo hdr src isLast lastRound ++ hdr).length },
        blk := some
          { stage := if isLast then .lastFragment else .fragments,
            priv := priv + frameSize hdr src,
            pWirelessPacket := c.curWritePosition + priv +
              (fragTxInfo hdr src isLast lastRound ++ hdr).length,
            todo := src ++ zeros (padding (hdr.length + src.length) + 8),
            txQLastRound := lastRound,
            frames := frames ++
              [⟨c.curWritePosition + priv, fragBytes hdr src isLast lastRound⟩] },
        written := [⟨c.curWritePosition + priv, fragTxInfo hdr src isLast lastRound ++ hdr⟩] } := by
    rw [← hround]
    rfl
  rw [hwrite]
  refine hring.lays hw priv _ _ _ ⟨rfl, rfl, rfl⟩ rfl rfl hold hfirst rfl rfl rfl
    (Nat.add_assoc ..) (by omega) ⟨by omega, ?_⟩ htiles' ?_ ?_ ?_ ?_
  · show _ ≤ c.curWritePosition + (priv + frameSize hdr src)
    omega
  · cases isLast <;> exact hbytes
  · cases isLast with
    | false =>
        intro f hf
        rcases List.mem_append.mp hf with hmem | hmem
        · exact hframes f hmem
        · rw [List.mem_singleton.mp hmem]
          refine ⟨hformed, ?_⟩
          rw [hends, ← hround]
          simp
    | true =>
        refine ⟨fun f hf => ?_, ⟨frames, _, rfl, fun f hf => (hframes f hf).2, hends⟩, ?_⟩
        · rcases List.mem_append.mp hf with hmem | hmem
          · exact (hframes f hmem).1
          · rw [List.mem_singleton.mp hmem]
            exact hformed
        · have hdecide : lastRound = decide (120832 < c.curWritePosition +
              (priv + frameSize hdr src) + 3906) := by rw [← hround, Bool.true_and]
          exact hdecide
  · cases isLast <;> exact hfits
  · intro hstage
    cases isLast <;> cases hstage

/-- Once everything is copied the frames are laid. -/
theorem Writing.laid (h : Writing c b) (htodo : b.todo = []) :
    segment c.restored c.curWritePosition b.priv = (b.frames.map Block.bytes).flatten := by
  have hlen := h.length_todo
  have hbytes := h.bytes
  have hflat := h.tiles.length_flatten
  rw [htodo, List.append_nil] at hbytes
  rw [htodo, List.length_nil, Nat.add_zero, Nat.add_assoc] at hlen
  rw [hlen, Nat.add_sub_cancel_left, segment_add] at hbytes
  exact List.append_inj_left hbytes (by rw [length_segment]; omega)

/-- The first part of an aggregate. -/
theorem writeMulti_lays {s : State} {hdr src : List Byte}
    (hring : Ring s.ctx.beginWriting (numberRequired + 2040) waiting flying)
    (hunsaved : s.ctx.beginWriting.eNextBulkOutPosition = s.ctx.beginWriting.curWritePosition →
      s.ctx.bCopySavePad = false)
    (hblk : s.blk = none) (hreq : s.numberRequired = some numberRequired)
    (hcan : rtmpUSBCanDoWrite s.ctx = true) (hlong : 16 ≤ hdr.length)
    (hshort : aligned (txinfoSize + hdr.length + src.length) ≤ 65539)
    (hfits : Fits s.ctx.beginWriting s.ctx.beginWriting.curWritePosition
      (aligned (txinfoSize + hdr.length + src.length))) :
    Lays s s.ctx.beginWriting (rtmpUSBWriteMultiTxResource s hdr src) numberRequired waiting
      flying := by
  have hwrite : rtmpUSBWriteMultiTxResource s hdr src =
      { s with
        ctx := { s.ctx.beginWriting.put [⟨s.ctx.beginWriting.curWritePosition,
            rtmpWriteTxInfo (txinfoSize + hdr.length) false fifoEdca false ++ hdr⟩] with
          curWriteRealPos := s.ctx.beginWriting.curWriteRealPos + (txinfoSize + hdr.length) },
        blk := some
          { stage := .aggregate,
            priv := txinfoSize + hdr.length + src.length,
            pWirelessPacket := s.ctx.beginWriting.curWritePosition + (txinfoSize + hdr.length),
            todo := src,
            txQLastRound := false,
            frames := [⟨s.ctx.beginWriting.curWritePosition,
              rtmpWriteTxInfo (txinfoSize + hdr.length) false fifoEdca false ++ hdr ++ src⟩] },
        written := [⟨s.ctx.beginWriting.curWritePosition,
          rtmpWriteTxInfo (txinfoSize + hdr.length) false fifoEdca false ++ hdr⟩] } := by
    rw [rtmpUSBWriteMultiTxResource, hblk, hreq]
    simp only [Option.isSome_some, if_true, hcan]
  have hlen : (rtmpWriteTxInfo (txinfoSize + hdr.length) false fifoEdca false ++ hdr).length =
      4 + hdr.length := by
    rw [List.length_append]
    rfl
  have hreal : s.ctx.beginWriting.curWriteRealPos = s.ctx.beginWriting.curWritePosition := rfl
  rw [hwrite]
  refine hring.lays rfl 0 _ _ _ ⟨rfl, rfl, rfl⟩ rfl rfl rfl (fun heq hcopy => ?_) rfl rfl rfl ?_
    (by omega) ?_ ?_ ?_ ?_ hfits (fun _ => hshort)
  · have hfalse : s.ctx.bCopySavePad = true := hcopy
    rw [hunsaved heq] at hfalse
    cases hfalse
  · rw [hlen, Nat.zero_add]
  · rw [hreal]
    show _ < _ + (4 + hdr.length) ∧ _ + (4 + hdr.length) ≤ _ + (4 + hdr.length + src.length)
    omega
  · refine ⟨rfl, ?_⟩
    show _ + (_ ++ src).length = _ + (4 + hdr.length + src.length)
    rw [List.length_append, hlen]
  · simp [Stage.behind, zeros]
  · refine ⟨_, rfl, ?_, rfl⟩
    rw [List.length_append, hlen]
    omega

/-- Another part of an aggregate. -/
theorem writeMultiNext_lays {s : State} {hdr src : List Byte}
    (hring : Ring s.ctx (numberRequired + 2040) waiting flying)
    (hw : Writing s.ctx b) (hblk : s.blk = some b)
    (hstage : b.stage = .aggregate) (htodo : b.todo = [])
    (hshort : aligned (b.priv + hdr.length + src.length) ≤ 65539)
    (hfits : Fits s.ctx s.ctx.curWritePosition
      (aligned (b.priv + hdr.length + src.length))) :
    Lays s s.ctx (rtmpUSBWriteMultiNext s hdr src) numberRequired waiting flying := by
  obtain ⟨bytes, hsingle, hpriv, hlong, hflags⟩ := hw.aggregate hstage
  have hwrite : rtmpUSBWriteMultiNext s hdr src =
      { s with
        ctx := s.ctx.put [⟨s.ctx.curWritePosition + b.priv, hdr⟩],
        blk := some
          { b with
            priv := b.priv + hdr.length + src.length,
            pWirelessPacket := s.ctx.curWritePosition + b.priv + hdr.length,
            todo := src,
            frames := [⟨s.ctx.curWritePosition, bytes ++ (hdr ++ src)⟩] },
        written := [⟨s.ctx.curWritePosition + b.priv, hdr⟩] } := by
    rw [rtmpUSBWriteMultiNext, hblk]
    simp only [hstage, htodo, hw.bCurWriting, and_self, if_true, hsingle, extend, List.map_cons,
      List.map_nil]
  have hreal := hw.real
  rw [hwrite]
  refine hring.lays hw.bCurWriting b.priv s.ctx.curWriteRealPos hdr _ ⟨rfl, rfl, rfl⟩
    rfl rfl (hw.laid htodo)
    (fun _ _ => by omega) rfl rfl rfl (Nat.add_assoc ..) (by omega) ?_ ?_ ?_ ?_ ?_ ?_
  · show _ ∧ _ ≤ _ + (b.priv + hdr.length + src.length)
    omega
  · refine ⟨rfl, ?_⟩
    show _ + (bytes ++ (hdr ++ src)).length = _ + (b.priv + hdr.length + src.length)
    simp only [List.length_append]
    omega
  · simp [hstage, hsingle, Stage.behind, zeros]
  · rw [TxBlk.Frames]
    simp only [hstage]
    refine ⟨_, rfl, ?_, ?_⟩
    · rw [List.length_append]
      omega
    · rw [List.getD_append _ _ _ _ (by omega)]
      exact hflags
  · simp only [TxBlk.size, hstage]
    exact hfits
  · intro _
    simp only [TxBlk.size, hstage]
    exact hshort

/-- Some of the bytes of a batch are copied. -/
theorem copy_lays {s : State} {n : Nat} (hring : Ring s.ctx (numberRequired + 2040) waiting flying)
    (hw : Writing s.ctx b) (hblk : s.blk = some b) :
    Lays s s.ctx (copy s n) numberRequired waiting flying := by
  have hplace := hw.place
  have hpos : s.ctx.curWritePosition + (b.pWirelessPacket - s.ctx.curWritePosition) =
      b.pWirelessPacket := Nat.add_sub_cancel' (by omega)
  have hcopy : copy s n =
      { s with
        ctx := s.ctx.put [⟨s.ctx.curWritePosition +
          (b.pWirelessPacket - s.ctx.curWritePosition), b.todo.take n⟩],
        blk := some
          { b with
            pWirelessPacket := b.pWirelessPacket + (b.todo.take n).length,
            todo := b.todo.drop n },
        written := [⟨s.ctx.curWritePosition +
          (b.pWirelessPacket - s.ctx.curWritePosition), b.todo.take n⟩] } := by
    rw [copy, hblk, hpos]
  rw [hcopy]
  refine hring.lays hw.bCurWriting (b.pWirelessPacket - s.ctx.curWritePosition)
    s.ctx.curWriteRealPos (b.todo.take n) _ ⟨rfl, rfl, rfl⟩ rfl rfl rfl (fun _ _ => by omega)
    rfl rfl rfl ?_ (by omega) hw.real hw.tiles ?_ hw.frames hw.fits hw.short
  · rw [← Nat.add_assoc, hpos]
  · rw [List.append_assoc, List.take_append_drop]
    exact hw.bytes

/-! ## The end of a batch -/

/-- What the end of a batch leaves: its frames wait with the others. -/
structure Ends (s s' : State) (waiting flying frames : List Block) : Prop where
  rest : SameRest s s'
  ring : Ring s'.ctx 0 (waiting ++ frames) flying
  idle : s'.ctx.bCurWriting = false ∧ s'.ctx.curWriteRealPos = s'.ctx.curWritePosition
  blk : s'.blk = none
  numberRequired : s'.numberRequired = none
  accepted : s'.accepted = s.accepted ++ frames
  formed : ∀ f ∈ frames, Formed f.bytes
  zone : ∃ lo hi, Zone s.ctx waiting flying lo hi ∧
    ∀ w ∈ s'.written, lo ≤ w.pos ∧ w.pos + w.bytes.length ≤ hi

/-- A batch that is laid ends, in this lap or as the last of it. -/
theorem Ring.endWriting {frames : List Block} {size : Nat} {lastRound : Bool}
    (hring : Ring c (numberRequired + 2040) waiting flying) (hw : c.bCurWriting = true)
    (hbatch : Batch c frames size lastRound)
    (hround : lastRound = decide (120832 < c.curWritePosition + size + 3906))
    (hfits : Fits c c.curWritePosition size)
    (hturn : lastRound = true → 0 < c.nextBulkOutPosition ∧
      c.nextBulkOutPosition ≤ c.curWritePosition) :
    Ring (c.endWriting (c.curWritePosition + size) lastRound) 0 (waiting ++ frames) flying := by
  obtain ⟨hin, hroom⟩ := hfits
  rw [show maxTxbulkSize = 122880 from rfl] at hin
  cases lastRound with
  | false =>
      have hnot := of_decide_eq_false hround.symm
      exact hring.endWriting_goesOn (by omega) hw hbatch (by omega) hroom
  | true => exact hring.endWriting_lastRound (by omega) hbatch hin (hturn rfl)

theorem finishWriting_ends {s : State} (hring : Ring s.ctx (numberRequired + 2040) waiting flying)
    (hw : Writing s.ctx b) (hblk : s.blk = some b)
    (hstage : b.stage = .lastFragment) (htodo : b.todo = [])
    (hturn : b.txQLastRound = true → 0 < s.ctx.nextBulkOutPosition ∧
      s.ctx.nextBulkOutPosition ≤ s.ctx.curWritePosition) :
    Ends s (finishWriting s) waiting flying b.frames := by
  have hframes := hw.frames
  rw [TxBlk.Frames, hstage] at hframes
  obtain ⟨hformed, hlast, hround⟩ := hframes
  have hfits := hw.fits
  simp only [TxBlk.size, hstage] at hfits
  have hbatch : Batch s.ctx b.frames b.priv b.txQLastRound :=
    { tiles := hw.tiles
      standing := hw.tiles.standing (by rw [Nat.add_sub_cancel_left, hw.laid htodo])
      formed := hformed
      last := hlast }
  have hfinish : finishWriting s =
      { s with
        ctx := s.ctx.endWriting (s.ctx.curWritePosition + b.priv) b.txQLastRound,
        numberRequired := none,
        blk := none,
        written := [],
        accepted := s.accepted ++ b.frames } := by
    rw [finishWriting, hblk]
    simp only [hstage, htodo, and_self, if_true]
  rw [hfinish]
  exact
    { rest := ⟨rfl, rfl, rfl⟩
      ring := hring.endWriting hw.bCurWriting hbatch hround hfits hturn
      idle := ⟨rfl, rfl⟩
      blk := rfl
      numberRequired := rfl
      accepted := rfl
      formed := hformed
      zone := ⟨_, _, hw.zone hring (Nat.le_add_right _ 8) (fun _ _ => Nat.le_refl _),
        fun w hmem => by cases hmem⟩ }

/-! ## The end of an aggregate -/

theorem modify_eq_set {l : List Byte} {i : Nat} {v : Byte} (h : l[i]? = some v) (f : Byte → Byte) :
    l.modify i f = l.set i (f v) := by
  refine List.ext_getElem? fun j => ?_
  rw [List.getElem?_modify, List.getElem?_set]
  by_cases hij : i = j
  · subst hij
    have hlt := (List.getElem?_eq_some_iff.mp h).1
    rw [if_pos rfl, if_pos hlt, h]
    simp
  · rw [if_neg hij]
    simp [hij]

/-- The stores of RtmpUSB_FinalWriteTxResource make the frame what it is to be. -/
theorem segment_finalWrites (m : Mem) (o : Nat) {n : Nat} (hn : 12 ≤ n)
    (usbDMApktLen totalMPDUSize : Nat) (lastRound : Bool) :
    segment (storeAll m (finalWrites m o usbDMApktLen totalMPDUSize lastRound)) o n =
      finalFrame (segment m o n) usbDMApktLen totalMPDUSize lastRound := by
  have hfirst := segment_store_set m o (n := n) (i := 0) (BitVec.ofNat 8 usbDMApktLen)
  rw [Nat.add_zero] at hfirst
  have hcount : ((((segment m o n).set 0 (BitVec.ofNat 8 usbDMApktLen)).set 1
      (BitVec.ofNat 8 (usbDMApktLen / 256))).set 10 (byteCountLow totalMPDUSize)).modify 11
        (byteCountHigh totalMPDUSize) =
      ((((segment m o n).set 0 (BitVec.ofNat 8 usbDMApktLen)).set 1
        (BitVec.ofNat 8 (usbDMApktLen / 256))).set 10 (byteCountLow totalMPDUSize)).set 11
          (byteCountHigh totalMPDUSize (m (o + 11))) := by
    refine modify_eq_set ?_ _
    simp only [List.getElem?_set, getElem?_segment m (o := o) (show 11 < n by omega)]
    rfl
  rw [finalFrame, hcount, finalWrites, storeAll_append]
  cases lastRound with
  | false =>
      simp only [storeAll_cons, storeAll_nil, segment_store_set, hfirst, if_neg Bool.false_ne_true]
  | true =>
      simp only [storeAll_cons, storeAll_nil, segment_store_set, hfirst, if_true]
      refine (modify_eq_set (v := m (o + 3)) ?_ (· ||| swUseLastRound)).symm
      simp only [List.getElem?_set, getElem?_segment m (o := o) (show 3 < n by omega)]
      rfl

/-- The stores are to the TXINFO and the first words of the TXWI. -/
theorem finalWrites_bounds {m : Mem} {o usbDMApktLen totalMPDUSize : Nat} {lastRound : Bool}
    {w : Block} (h : w ∈ finalWrites m o usbDMApktLen totalMPDUSize lastRound) :
    o ≤ w.pos ∧ w.pos + w.bytes.length ≤ o + 12 := by
  rcases List.mem_append.mp h with hmem | hmem
  · simp only [List.mem_cons, List.not_mem_nil, or_false] at hmem
    rcases hmem with rfl | rfl | rfl | rfl <;> simp only [List.length_singleton] <;> omega
  · split at hmem
    · rw [List.mem_singleton.mp hmem]
      simp only [List.length_singleton]
      omega
    · cases hmem

theorem finalWrites_congr {m m' : Mem} {o : Nat} (h : ∀ a, o ≤ a → a < o + 20 → m a = m' a)
    (usbDMApktLen totalMPDUSize : Nat) (lastRound : Bool) :
    finalWrites m o usbDMApktLen totalMPDUSize lastRound =
      finalWrites m' o usbDMApktLen totalMPDUSize lastRound := by
  rw [finalWrites, finalWrites, h (o + 11) (by omega) (by omega), h (o + 3) (by omega) (by omega)]

theorem length_finalFrame (bytes : List Byte) (usbDMApktLen totalMPDUSize : Nat)
    (lastRound : Bool) :
    (finalFrame bytes usbDMApktLen totalMPDUSize lastRound).length = bytes.length := by
  cases lastRound <;> simp [finalFrame]

/-- An aggregate with its length is a frame. -/
theorem finalFrame_formed {bytes : List Byte} (hlong : 20 ≤ bytes.length)
    (hflags : bytes.getD 3 0 = 0x04) {pad usbDMApktLen : Nat}
    (hlen : usbDMApktLen + 4 = bytes.length + pad) (hshort : usbDMApktLen ≤ 65535)
    (totalMPDUSize : Nat) (lastRound : Bool) :
    Formed (finalFrame bytes usbDMApktLen totalMPDUSize lastRound ++ zeros pad) ∧
      (endsLap (finalFrame bytes usbDMApktLen totalMPDUSize lastRound ++ zeros pad) ↔
        lastRound = true) := by
  have hlength := length_finalFrame bytes usbDMApktLen totalMPDUSize lastRound
  have h0 : (finalFrame bytes usbDMApktLen totalMPDUSize lastRound).getD 0 0 =
      BitVec.ofNat 8 usbDMApktLen := by
    cases lastRound with
    | false => simp [finalFrame, List.getD_eq_getElem?_getD, show 0 < bytes.length by omega]
    | true => simp [finalFrame, List.getD_eq_getElem?_getD, show 0 < bytes.length by omega]
  have h1 : (finalFrame bytes usbDMApktLen totalMPDUSize lastRound).getD 1 0 =
      BitVec.ofNat 8 (usbDMApktLen / 256) := by
    cases lastRound with
    | false => simp [finalFrame, List.getD_eq_getElem?_getD, show 1 < bytes.length by omega]
    | true => simp [finalFrame, List.getD_eq_getElem?_getD, show 1 < bytes.length by omega]
  have h3 : (finalFrame bytes usbDMApktLen totalMPDUSize lastRound).getD 3 0 =
      if lastRound then 0x04 ||| swUseLastRound else 0x04 := by
    rw [List.getD_eq_getElem?_getD, List.getElem?_eq_getElem (show 3 < bytes.length by omega)]
      at hflags
    have hflags' : bytes[3] = 0x04 := hflags
    cases lastRound with
    | false =>
        simp [finalFrame, List.getD_eq_getElem?_getD, show 3 < bytes.length by omega, hflags']
    | true =>
        simp [finalFrame, List.getD_eq_getElem?_getD, show 3 < bytes.length by omega, hflags']
  have hlast : (finalFrame bytes usbDMApktLen totalMPDUSize lastRound ++ zeros pad).getD 3 0 =
      if lastRound then 0x04 ||| swUseLastRound else 0x04 := by
    rw [List.getD_append _ _ _ _ (by omega), h3]
  refine ⟨{ long := ?_, length := ?_, queue := ?_ }, ?_⟩
  · rw [List.length_append]
    omega
  · rw [pktLen_append (by omega), pktLen, h0, h1, List.length_append, length_zeros, hlength]
    simp only [BitVec.toNat_ofNat]
    omega
  · rw [hlast]
    cases lastRound <;> decide
  · rw [endsLap, hlast]
    cases lastRound <;> decide

/-- The aggregate stands as it is to be sent, once its header is written again. -/
theorem Writing.segment_final (hw : Writing c b) (htodo : b.todo = [])
    {lo hi pad : Nat} (hz : Zone c waiting flying lo hi)
    (hlo : lo = c.curWritePosition) (hhi : c.curWritePosition + (b.priv + pad + 8) ≤ hi)
    (usbDMApktLen totalMPDUSize : Nat) (lastRound : Bool) {bytes : List Byte}
    (hsingle : b.frames = [⟨c.curWritePosition, bytes⟩]) (hlong : 20 ≤ bytes.length) :
    let ws := finalWrites c.transferBuffer c.curWritePosition usbDMApktLen totalMPDUSize
      lastRound ++ [⟨c.curWritePosition + b.priv, zeros (pad + 8)⟩]
    (∀ w ∈ ws, lo ≤ w.pos ∧ w.pos + w.bytes.length ≤ hi) ∧
      segment (c.put ws).restored c.curWritePosition (b.priv + pad) =
        finalFrame bytes usbDMApktLen totalMPDUSize lastRound ++ zeros pad := by
  intro ws
  have hpriv := hw.priv_eq hsingle
  have hin : ∀ w ∈ ws, lo ≤ w.pos ∧ w.pos + w.bytes.length ≤ hi := by
    intro w hmem
    rcases List.mem_append.mp hmem with hmem | hmem
    · have hsmall := finalWrites_bounds hmem
      omega
    · rw [List.mem_singleton.mp hmem]
      show lo ≤ c.curWritePosition + b.priv ∧
        c.curWritePosition + b.priv + (zeros (pad + 8)).length ≤ hi
      rw [length_zeros]
      omega
  refine ⟨hin, ?_⟩
  have hsame : ∀ a, c.curWritePosition ≤ a → a < c.curWritePosition + 20 →
      c.transferBuffer a = c.restored a := by
    intro a hlow hhigh
    unfold HtTxContext.restored
    split
    · have hsaved := hz.saved ‹_›
      exact (store_outside (by rw [length_segment]; omega)).symm
    · rfl
  have hlaid := hw.laid htodo
  rw [hsingle] at hlaid
  have hbytes : segment c.restored c.curWritePosition b.priv = bytes := by simpa using hlaid
  rw [hz.restored_put hin, storeAll_append, storeAll_cons, storeAll_nil, segment_add,
    segment_store_of_le (Nat.le_refl _), segment_store_take _ _ (by rw [length_zeros]; omega),
    finalWrites_congr hsame, segment_finalWrites _ _ (by omega), hbytes]
  congr 1
  rw [zeros, List.take_replicate]
  congr 1
  omega

theorem finalWrite_ends {s : State} (hring : Ring s.ctx (numberRequired + 2040) waiting flying)
    (hw : Writing s.ctx b) (hblk : s.blk = some b)
    (hstage : b.stage = .aggregate) (htodo : b.todo = []) (totalMPDUSize : Nat)
    (hunsaved : ¬ (s.ctx.eNextBulkOutPosition = s.ctx.curWritePosition ∧
      s.ctx.bCopySavePad = true))
    (hturn : 120832 < s.ctx.curWritePosition + aligned b.priv + 3906 →
      0 < s.ctx.nextBulkOutPosition ∧ s.ctx.nextBulkOutPosition ≤ s.ctx.curWritePosition) :
    ∃ frames, Ends s (rtmpUSBFinalWriteTxResource s totalMPDUSize) waiting flying frames := by
  obtain ⟨bytes, hsingle, hpriv, hlong, hflags⟩ := hw.aggregate hstage
  have hsize : b.size = aligned b.priv := by rw [TxBlk.size, hstage]
  have hfits := hw.fits
  have hshort := hw.short hstage
  rw [hsize] at hfits hshort
  obtain ⟨pad, hpad⟩ : ∃ pad, padding (b.priv - txinfoSize) = pad := ⟨_, rfl⟩
  obtain ⟨len, hlen⟩ : ∃ len, b.priv - txinfoSize + pad = len := ⟨_, rfl⟩
  have hlen4 : len + 4 = b.priv + pad := by
    rw [← hlen, show txinfoSize = 4 from rfl]
    omega
  have haligned : aligned b.priv = b.priv + pad := by rw [aligned, hpad]
  have hnext : s.ctx.curWritePosition + (txinfoSize + len) =
      s.ctx.curWritePosition + aligned b.priv := by
    rw [show txinfoSize = 4 from rfl]
    omega
  obtain ⟨lastRound, hround⟩ : ∃ lastRound, lastRound = decide (maxTxbulkLimit <
    s.ctx.curWritePosition + aligned b.priv + aggregateReserve) := ⟨_, rfl⟩
  have hzone := hw.zone hring (Nat.le_refl _) fun heq hcopy => absurd ⟨heq, hcopy⟩ hunsaved
  rw [hsize, haligned] at hzone
  have hnotSaved : ¬ ((s.ctx.eNextBulkOutPosition = s.ctx.curWritePosition ∨
      s.ctx.eNextBulkOutPosition = s.ctx.curWritePosition + 8) ∧ s.ctx.bCopySavePad = true) := by
    rintro ⟨hat, hcopy⟩
    have hsaved := hzone.saved hcopy
    omega
  obtain ⟨hin, hsegment⟩ := hw.segment_final htodo hzone rfl (Nat.le_refl _) len
    totalMPDUSize lastRound hsingle hlong
  obtain ⟨ws, hws⟩ : ∃ ws, finalWrites s.ctx.transferBuffer s.ctx.curWritePosition len
    totalMPDUSize lastRound ++ [⟨s.ctx.curWritePosition + b.priv, zeros (pad + 8)⟩] = ws :=
    ⟨_, rfl⟩
  rw [hws] at hin hsegment
  obtain ⟨hformed, hends⟩ := finalFrame_formed hlong hflags
    (show len + 4 = bytes.length + pad by omega) (by omega) totalMPDUSize lastRound
  generalize hframe : finalFrame bytes len totalMPDUSize lastRound ++ zeros pad = frame at *
  have hflen : frame.length = aligned b.priv := by
    rw [← hframe, List.length_append, length_finalFrame, length_zeros]
    omega
  have hbatch : Batch (s.ctx.put ws) [⟨s.ctx.curWritePosition, frame⟩] (aligned b.priv)
      lastRound :=
    { tiles := ⟨rfl, by
        show s.ctx.curWritePosition + frame.length = s.ctx.curWritePosition + aligned b.priv
        rw [hflen]⟩
      standing := fun f hf => by
        rw [List.mem_singleton.mp hf]
        show segment (s.ctx.put ws).restored s.ctx.curWritePosition frame.length = frame
        rw [hflen, haligned, hsegment]
      formed := fun f hf => by
        rw [List.mem_singleton.mp hf]
        exact hformed
      last := ⟨[], _, rfl, (fun f hf => by cases hf), hends⟩ }
  have hfinal : rtmpUSBFinalWriteTxResource s totalMPDUSize =
      { s with
        ctx := (s.ctx.put ws).endWriting (s.ctx.curWritePosition + aligned b.priv) lastRound,
        numberRequired := none,
        blk := none,
        written := ws,
        accepted := s.accepted ++ [⟨s.ctx.curWritePosition, frame⟩] } := by
    rw [rtmpUSBFinalWriteTxResource, hblk]
    simp only [hstage, htodo, hw.bCurWriting, and_self, if_true, hpad, if_neg hnotSaved, hsingle,
      List.map_cons, List.map_nil]
    rw [hlen, hnext, ← hround, hws, hframe]
  refine ⟨[⟨s.ctx.curWritePosition, frame⟩], ?_⟩
  rw [hfinal]
  exact
    { rest := ⟨rfl, rfl, rfl⟩
      ring := (hring.put hzone hin).endWriting hw.bCurWriting hbatch hround hfits
        (fun hlast => hturn (of_decide_eq_true (hround.symm.trans hlast)))
      idle := ⟨rfl, rfl⟩
      blk := rfl
      numberRequired := rfl
      accepted := rfl
      formed := hbatch.formed
      zone := ⟨_, _, hzone, hin⟩ }

end ExtDrv.Rt3370.TxRing
