import ExtDrv.Rt3370.TxRingWriting

/-!
# Runs of the transmit ring

Over all runs, with the frames written, copied, sent and acknowledged in any order of steps: the
frames that were accepted are sent in the order they were written, each as it was when its batch
was done, as long as every step keeps the conditions of `Admitted`.
-/

namespace ExtDrv.Rt3370.TxRing

open Memory Blocks Run

/-! ## The conditions on a step -/

/-- The lap may end: something was sent already, and in this lap. -/
def MayTurn (c : HtTxContext) : Prop :=
  0 < c.nextBulkOutPosition ∧ c.nextBulkOutPosition ≤ c.curWritePosition

instance (c : HtTxContext) : Decidable (MayTurn c) := inferInstanceAs (Decidable (_ ∧ _))

/-- What `RTUSBFreeDescriptorRequest` granted suffices for a batch of `size` bytes, which is not
longer than what is left behind the limit. -/
def Granted (s : State) (size : Nat) : Prop :=
  size + 16 ≤ s.numberRequired.getD 0 + localTxbufSize ∧ size ≤ 5938

/-- The condition on the next frame, or part of an aggregate: it makes the batch `size` bytes
long, and a frame of `length` bytes. -/
def FrameFits (s : State) (size length : Nat) : Prop :=
  length ≤ 65539 ∧ (Granted s size ∨
    Fits s.ctx (if s.blk.isSome then s.ctx.curWritePosition else s.ctx.startsAt) size)

instance (s : State) (size length : Nat) : Decidable (FrameFits s size length) :=
  inferInstanceAs (Decidable (_ ∧ ((_ ∧ _) ∨ _)))

/-- How long the batch is so far. -/
def State.priv (s : State) : Nat := (s.blk.map TxBlk.priv).getD 0

/-- A batch can begin. -/
def State.mayBegin (s : State) : Bool :=
  s.blk.isNone && s.numberRequired.isSome && rtmpUSBCanDoWrite s.ctx

/-- The writer is at this stage, with nothing to copy. -/
def State.isAt (s : State) (stage : Stage) : Bool :=
  match s.blk with
  | some b => b.stage = stage && b.todo.isEmpty
  | none => false

/-- The conditions on a step. -/
def Admitted (s : State) : Act → Prop
  | .single hdr src =>
      s.mayBegin = true → FrameFits s (frameSize hdr.bytes src) (frameSize hdr.bytes src)
  | .frag fragNum _ hdr src =>
      fragNum = 0 ∧ s.mayBegin = true ∨ fragNum ≠ 0 ∧ s.isAt .fragments = true →
        FrameFits s (s.priv + frameSize hdr.bytes src) (frameSize hdr.bytes src)
  | .multi hdr src =>
      s.mayBegin = true →
        FrameFits s (aligned (txinfoSize + hdr.bytes.length + src.length))
          (aligned (txinfoSize + hdr.bytes.length + src.length))
  | .multiNext hdr src =>
      s.isAt .aggregate = true →
        FrameFits s (aligned (s.priv + hdr.length + src.length))
          (aligned (s.priv + hdr.length + src.length))
  | .finish =>
      s.isAt .lastFragment = true →
        (s.blk.map TxBlk.txQLastRound).getD false = true → MayTurn s.ctx
  | .final _ =>
      s.isAt .aggregate = true →
        ¬ (s.ctx.eNextBulkOutPosition = s.ctx.curWritePosition ∧ s.ctx.bCopySavePad = true) ∧
          (maxTxbulkLimit < s.ctx.curWritePosition + aligned s.priv + aggregateReserve →
            MayTurn s.ctx)
  | .bulkOut submitted => submitted = true
  | .resetBulkOut submitted => submitted = true
  | .request _ | .copy _ | .complete _ => True

instance (s : State) (a : Act) : Decidable (Admitted s a) := by
  cases a <;> unfold Admitted <;> infer_instance

/-! ## What is to hold -/

/-- A transfer was submitted and is not done. -/
def State.isFlying (s : State) : Bool := s.bulkOutPending || s.bulkOutReset

/-- The frames that were sent. -/
def State.sent (s : State) : List (List Byte) := s.transfers.flatMap carried

/-- The frames that are being sent. -/
def State.inFlight (s : State) : List (List Byte) :=
  if s.isFlying then carried s.ctx.transfer else []

/-- The frames that were accepted and are still to be sent. -/
def State.waiting (s : State) : List Block :=
  s.accepted.drop (s.sent.length + s.inFlight.length)

/-- The steps of the USB side. -/
def Act.isBulk : Act → Bool
  | .bulkOut _ | .complete _ | .resetBulkOut _ => true
  | _ => false

/-- **The ring is in order**: nothing leaves the buffer, nothing is stored over what is still to
be sent, and what is sent is what was accepted. -/
structure RingOk (bulkOutMaxPacketSize : Nat) (s : State) : Prop where
  positions : ∀ p ∈ [s.ctx.curWritePosition, s.ctx.curWriteRealPos, s.ctx.nextBulkOutPosition,
    s.ctx.eNextBulkOutPosition], p + 8 ≤ maxTxbulkSize
  transfer : s.isFlying = true →
    s.ctx.nextBulkOutPosition + s.ctx.bulkOutSize ≤ maxTxbulkSize
  lengths : ∀ f ∈ s.accepted, pktLen f.bytes + txinfoSize = f.bytes.length
  inOrder : (s.sent ++ s.inFlight).map plain <+: s.accepted.map fun f => plain f.bytes
  writes : ∀ a, Admitted s a → ∀ w ∈ (step bulkOutMaxPacketSize s a).written,
    w.pos + w.bytes.length ≤ maxTxbulkSize ∧
      (∀ f ∈ s.waiting, w.pos + w.bytes.length ≤ f.pos ∨ f.pos + f.bytes.length ≤ w.pos) ∧
      (s.isFlying = true → w.pos + w.bytes.length ≤ s.ctx.nextBulkOutPosition ∨
        s.ctx.nextBulkOutPosition + s.ctx.bulkOutSize ≤ w.pos)
  progress : s.isFlying = false → s.waiting ≠ [] →
    (step bulkOutMaxPacketSize s (.bulkOut true)).inFlight ≠ []
  drains : ∃ as, (∀ a ∈ as, Act.isBulk a = true) ∧
    ((exec (step bulkOutMaxPacketSize) s as).sent).map plain =
      s.accepted.map fun f => plain f.bytes

/-! ## The invariant -/

/-- The room in front of `NextBulkOutPosition`: what was granted, less the 8 bytes in front of
the batch. -/
def State.room (s : State) : Nat :=
  match s.numberRequired with
  | none => 0
  | some numberRequired => numberRequired + if s.blk.isSome then 2040 else 2048

/-- The writer between two batches, or with one. -/
def State.Writer (s : State) : Prop :=
  match s.blk with
  | none => s.ctx.bCurWriting = false ∧ s.ctx.curWriteRealPos = s.ctx.curWritePosition
  | some b => s.numberRequired.isSome = true ∧ Writing s.ctx b

/-- Of the frames that were accepted, `past` are sent, `flying` are in the transfer, and
`waiting` stand in the ring. -/
structure Inv (s : State) (past flying waiting : List Block) : Prop where
  ring : Ring s.ctx s.room waiting flying
  writer : s.Writer
  accepted : s.accepted = past ++ flying ++ waiting
  formed : ∀ f ∈ s.accepted, Formed f.bytes
  sent : s.sent.map plain = past.map fun f => plain f.bytes
  flying : s.isFlying = true ↔ flying ≠ []
  once : s.bulkOutPending = true → s.bulkOutReset = false

theorem inv_init : Inv init [] [] [] :=
  { ring :=
      { laid := .inl { tiles := rfl, goesOn := (fun f hf => by cases hf), bulk := .inl rfl }
        standing := fun f hf => by cases hf
        formed := fun f hf => by cases hf
        low := .inl ⟨rfl, rfl, rfl⟩
        bulkLow := .inl rfl
        high := ⟨by decide, by decide, by decide⟩
        idleHigh := fun _ => by decide
        saved := fun hcopy => by cases hcopy
        carries := fun hne => absurd rfl hne
        place := fun hne => absurd rfl hne }
    writer := ⟨rfl, rfl⟩
    accepted := rfl
    formed := fun f hf => by cases hf
    sent := rfl
    flying := ⟨(fun h => by cases h), fun h => absurd rfl h⟩
    once := fun h => by cases h }

theorem room_idle {s : State} {numberRequired : Nat}
    (hreq : s.numberRequired = some numberRequired) (hblk : s.blk = none) :
    s.room = numberRequired + 2048 := by
  simp [State.room, hreq, hblk]

theorem room_writing {s : State} {numberRequired : Nat} {b : TxBlk}
    (hreq : s.numberRequired = some numberRequired) (hblk : s.blk = some b) :
    s.room = numberRequired + 2040 := by
  simp [State.room, hreq, hblk]

variable {s : State} {past flying waiting : List Block} {b : TxBlk} {numberRequired : Nat}

/-- None of the stores reaches what is still to be sent. -/
def Clear (c : HtTxContext) (waiting flying ws : List Block) : Prop :=
  ∀ w ∈ ws, w.pos + w.bytes.length ≤ 122880 ∧
    (∀ f ∈ waiting, w.pos + w.bytes.length ≤ f.pos ∨ f.pos + f.bytes.length ≤ w.pos) ∧
    (flying ≠ [] → w.pos + w.bytes.length ≤ c.nextBulkOutPosition ∨
      c.nextBulkOutPosition + c.bulkOutSize ≤ w.pos)

theorem clear_nil (c : HtTxContext) (waiting flying : List Block) : Clear c waiting flying [] :=
  fun w hw => by cases hw

theorem Zone.clear {c : HtTxContext} {lo hi : Nat} {ws : List Block}
    (hz : Zone c waiting flying lo hi)
    (hws : ∀ w ∈ ws, lo ≤ w.pos ∧ w.pos + w.bytes.length ≤ hi) : Clear c waiting flying ws := by
  intro w hw
  have hin := hws w hw
  have hinside := hz.inside
  refine ⟨by omega, fun f hf => ?_, fun hne => ?_⟩
  · have hout := hz.waiting f hf
    omega
  · have hout := hz.flying hne
    omega

/-- What the invariant says of the next state, and of the stores that led there. -/
structure Goes (s s' : State) (waiting flying : List Block) : Prop where
  inv : ∃ past' flying' waiting', Inv s' past' flying' waiting'
  clear : Clear s.ctx waiting flying s'.written

/-- A step that does nothing. -/
theorem Inv.idle (h : Inv s past flying waiting) :
    Inv { s with written := [] } past flying waiting :=
  { ring := h.ring, writer := h.writer, accepted := h.accepted, formed := h.formed,
    sent := h.sent, flying := h.flying, once := h.once }

theorem Inv.goes_idle (h : Inv s past flying waiting) :
    Goes s { s with written := [] } waiting flying :=
  ⟨⟨_, _, _, h.idle⟩, clear_nil _ _ _⟩

theorem Inv.goes_of_idle {s' : State} (h : Inv s past flying waiting)
    (hnone : s' = { s with written := [] }) : Goes s s' waiting flying := by
  rw [hnone]
  exact h.goes_idle

/-- The writer between two batches. -/
theorem Inv.between (h : Inv s past flying waiting) (hblk : s.blk = none) :
    s.ctx.bCurWriting = false ∧ s.ctx.curWriteRealPos = s.ctx.curWritePosition := by
  have hwriter := h.writer
  rwa [State.Writer, hblk] at hwriter

theorem priv_idle (hblk : s.blk = none) : s.priv = 0 := by rw [State.priv, hblk]; rfl

theorem priv_writing (hblk : s.blk = some b) : s.priv = b.priv := by rw [State.priv, hblk]; rfl

/-! ## The writer -/

/-- A frame that cannot be written is dropped, with what was granted for it. -/
theorem Inv.goes_dropped (h : Inv s past flying waiting) (hblk : s.blk = none) :
    Goes s { s with numberRequired := none, written := [] } waiting flying := by
  have hwriter := h.between hblk
  refine ⟨⟨past, flying, waiting, ?_⟩, clear_nil _ _ _⟩
  exact
    { ring := h.ring.mono (Nat.zero_le _)
      writer := by
        rw [State.Writer]
        simp only [hblk]
        exact hwriter
      accepted := h.accepted, formed := h.formed, sent := h.sent, flying := h.flying,
      once := h.once }

theorem Inv.request (h : Inv s past flying waiting) (numberRequired : Nat) :
    Goes s (request s numberRequired) waiting flying := by
  unfold TxRing.request
  split
  case isTrue hcan =>
    obtain ⟨hblk, hfree⟩ := hcan
    have hblk' : s.blk = none := by simpa using hblk
    have hwriter := h.between hblk'
    refine ⟨⟨past, flying, waiting, ?_⟩, clear_nil _ _ _⟩
    exact
      { ring := by
          have hroom : ({ s with numberRequired := some numberRequired, written := [] } :
              State).room = numberRequired + 2048 := room_idle rfl hblk'
          rw [hroom]
          exact ((h.ring.mono (Nat.zero_le _)).grant hfree).1
        writer := by
          rw [State.Writer]
          simp only [hblk']
          exact hwriter
        accepted := h.accepted, formed := h.formed, sent := h.sent, flying := h.flying,
        once := h.once }
  case isFalse => exact h.goes_idle

/-- A part of a batch is laid. -/
theorem Inv.goes_lays {c : HtTxContext} {s' : State} (h : Inv s past flying waiting)
    (hlays : Lays s c s' numberRequired waiting flying)
    (hreq : s.numberRequired = some numberRequired)
    (hbulk : c.nextBulkOutPosition = s.ctx.nextBulkOutPosition ∧ c.bulkOutSize = s.ctx.bulkOutSize) :
    Goes s s' waiting flying := by
  obtain ⟨b', hblk, hwriting⟩ := hlays.writing
  obtain ⟨lo, hi, hz, hws⟩ := hlays.zone
  have hreq' : s'.numberRequired = some numberRequired := hlays.granted.trans hreq
  refine ⟨⟨past, flying, waiting, ?_⟩, ?_⟩
  · exact
      { ring := by
          rw [room_writing hreq' hblk]
          exact hlays.ring
        writer := by
          rw [State.Writer, hblk]
          exact ⟨by rw [hreq']; rfl, hwriting⟩
        accepted := by rw [hlays.accepted, h.accepted]
        formed := by
          rw [hlays.accepted]
          exact h.formed
        sent := by
          rw [State.sent, hlays.rest.transfers]
          exact h.sent
        flying := by
          rw [State.isFlying, hlays.rest.bulkOutPending, hlays.rest.bulkOutReset]
          exact h.flying
        once := by
          rw [hlays.rest.bulkOutPending, hlays.rest.bulkOutReset]
          exact h.once }
  · have hclear := hz.clear hws
    unfold Clear at hclear ⊢
    rwa [hbulk.1, hbulk.2] at hclear

/-- A batch ends: its frames are accepted. -/
theorem Inv.goes_ends {s' : State} {frames : List Block} (h : Inv s past flying waiting)
    (hends : Ends s s' waiting flying frames) : Goes s s' waiting flying := by
  obtain ⟨lo, hi, hz, hws⟩ := hends.zone
  refine ⟨⟨past, flying, waiting ++ frames, ?_⟩, hz.clear hws⟩
  exact
    { ring := by
        have hring := hends.ring
        simpa only [State.room, hends.numberRequired] using hring
      writer := by
        rw [State.Writer, hends.blk]
        exact hends.idle
      accepted := by rw [hends.accepted, h.accepted, List.append_assoc _ waiting]
      formed := by
        rw [hends.accepted]
        exact List.forall_mem_append.mpr ⟨h.formed, hends.formed⟩
      sent := by
        rw [State.sent, hends.rest.transfers]
        exact h.sent
      flying := by
        rw [State.isFlying, hends.rest.bulkOutPending, hends.rest.bulkOutReset]
        exact h.flying
      once := by
        rw [hends.rest.bulkOutPending, hends.rest.bulkOutReset]
        exact h.once }

theorem startsAt_eq (c : HtTxContext) : c.beginWriting.curWritePosition = c.startsAt := by
  unfold HtTxContext.beginWriting HtTxContext.startsAt
  split <;> simp_all

/-- What a batch finds where it begins. -/
theorem Inv.begins (h : Inv s past flying waiting) (hblk : s.blk = none)
    (hreq : s.numberRequired = some numberRequired) :
    Ring s.ctx.beginWriting (numberRequired + 2040) waiting flying ∧
      (s.ctx.beginWriting.eNextBulkOutPosition = s.ctx.beginWriting.curWritePosition →
        s.ctx.bCopySavePad = false) := by
  have hwriter := h.between hblk
  have hring := h.ring
  rw [room_idle hreq hblk] at hring
  refine ⟨hring.begin hwriter.1, fun heq => ?_⟩
  have heq' : s.ctx.eNextBulkOutPosition = s.ctx.curWritePosition :=
    Nat.add_right_cancel heq
  by_contra hcopy
  have hbusy := hring.saved (by simpa using hcopy) heq'
  rw [hwriter.1] at hbusy
  cases hbusy

/-- The writer with a batch. -/
theorem Inv.writes (h : Inv s past flying waiting) (hblk : s.blk = some b) :
    ∃ numberRequired, s.numberRequired = some numberRequired ∧
      Writing s.ctx b ∧ Ring s.ctx (numberRequired + 2040) waiting flying := by
  have hwriter := h.writer
  rw [State.Writer, hblk] at hwriter
  obtain ⟨hgranted, hwriting⟩ := hwriter
  obtain ⟨numberRequired, hreq⟩ := Option.isSome_iff_exists.mp hgranted
  have hring := h.ring
  rw [room_writing hreq hblk] at hring
  exact ⟨numberRequired, hreq, hwriting, hring⟩

/-- **What was granted suffices**: the batch ends in the buffer and in front of what is still to be
sent, wherever the ring stands. -/
theorem Inv.fits_of_granted (h : Inv s past flying waiting)
    (hreq : s.numberRequired = some numberRequired) {size : Nat} (hgranted : Granted s size) :
    Fits s.ctx (if s.blk.isSome then s.ctx.curWritePosition else s.ctx.startsAt) size := by
  obtain ⟨hroom, hlimit⟩ := hgranted
  rw [hreq, Option.getD_some, show localTxbufSize = 2048 from rfl] at hroom
  have hhigh := h.ring.high
  cases hblk : s.blk with
  | none =>
      have hidle := h.ring.idleHigh (h.between hblk).1
      have hring := h.ring
      rw [room_idle hreq hblk] at hring
      have hstart : s.ctx.startsAt ≤ s.ctx.curWritePosition + 8 ∧
          s.ctx.curWritePosition ≤ s.ctx.startsAt := by
        unfold HtTxContext.startsAt
        split <;> omega
      refine ⟨?_, fun hahead => ?_⟩
      · show s.ctx.startsAt + size + 8 ≤ 122880
        omega
      · have hlt : s.ctx.startsAt < s.ctx.nextBulkOutPosition := hahead
        have hfree := hring.room_le (by omega)
        show s.ctx.startsAt + size + 8 ≤ s.ctx.nextBulkOutPosition
        omega
  | some b =>
      obtain ⟨numberRequired', hreq', -, hring⟩ := h.writes hblk
      obtain rfl : numberRequired' = numberRequired := Option.some.inj (hreq'.symm.trans hreq)
      refine ⟨?_, fun hahead => ?_⟩
      · show s.ctx.curWritePosition + size + 8 ≤ 122880
        omega
      · have hfree := hring.room_le hahead
        show s.ctx.curWritePosition + size + 8 ≤ s.ctx.nextBulkOutPosition
        omega

theorem Inv.fits_begins (h : Inv s past flying waiting)
    (hreq : s.numberRequired = some numberRequired) {size length : Nat}
    (hfits : FrameFits s size length) (hblk : s.blk = none) :
    length ≤ 65539 ∧ Fits s.ctx.beginWriting s.ctx.beginWriting.curWritePosition size := by
  have hroom := hfits.2.elim (h.fits_of_granted hreq) id
  rw [hblk] at hroom
  refine ⟨hfits.1, ?_⟩
  rw [startsAt_eq]
  exact hroom

theorem Inv.fits_goesOn (h : Inv s past flying waiting)
    (hreq : s.numberRequired = some numberRequired) {size length : Nat}
    (hfits : FrameFits s size length) (hblk : s.blk = some b) :
    length ≤ 65539 ∧ Fits s.ctx s.ctx.curWritePosition size := by
  have hroom := hfits.2.elim (h.fits_of_granted hreq) id
  rw [hblk] at hroom
  exact ⟨hfits.1, hroom⟩

theorem Inv.frag (h : Inv s past flying waiting) (fragNum totalFragNum : Nat)
    (hdr : HeaderBuf) (src : List Byte)
    (hadm : fragNum = 0 ∧ s.mayBegin = true ∨ fragNum ≠ 0 ∧ s.isAt .fragments = true →
      FrameFits s (s.priv + frameSize hdr.bytes src) (frameSize hdr.bytes src)) :
    Goes s (rtmpUSBWriteFragTxResource s fragNum totalFragNum hdr.bytes src) waiting flying := by
  unfold rtmpUSBWriteFragTxResource
  split
  case h_1 hblk =>
    split
    case isTrue hfirst =>
      obtain ⟨hzero, hgranted⟩ := hfirst
      obtain ⟨numberRequired, hreq⟩ := Option.isSome_iff_exists.mp hgranted
      split
      case isTrue hcan =>
        obtain ⟨hring, hunsaved⟩ := h.begins hblk hreq
        obtain ⟨hshort, hfits⟩ := h.fits_begins hreq
          (hadm (.inl ⟨hzero, by simp [State.mayBegin, hblk, hreq, hcan]⟩)) hblk
        rw [priv_idle hblk] at hfits
        refine h.goes_lays (c := s.ctx.beginWriting) ?_ hreq ⟨rfl, rfl⟩
        refine writeFragment_lays s hring rfl 0 [] _ rfl (fun heq hcopy => ?_) rfl
          (fun f hf => by cases hf) hdr.txwi ⟨Nat.le_refl _, Nat.le_refl _⟩ hshort hfits
        have hfalse : s.ctx.bCopySavePad = true := hcopy
        rw [hunsaved heq] at hfalse
        cases hfalse
      case isFalse => exact h.goes_dropped hblk
    case isFalse => exact h.goes_idle
  case h_2 b hblk =>
    split
    case isTrue hnext =>
      obtain ⟨hpos, hstage, htodo, -⟩ := hnext
      obtain ⟨numberRequired, hreq, hwriting, hring⟩ := h.writes hblk
      obtain ⟨hshort, hfits⟩ := h.fits_goesOn hreq
        (hadm (.inr ⟨hpos, by simp [State.isAt, hblk, hstage, htodo]⟩)) hblk
      rw [priv_writing hblk] at hfits
      have hframes := hwriting.frames
      rw [TxBlk.Frames, hstage] at hframes
      have hlen := hwriting.length_todo
      have hplace := hwriting.place
      have hreal := hwriting.real
      refine h.goes_lays ?_ hreq ⟨rfl, rfl⟩
      exact writeFragment_lays s hring hwriting.bCurWriting b.priv b.frames _ (hwriting.laid htodo)
        (fun _ _ => by
          rw [htodo, hstage] at hlen
          simp only [List.length_nil, Stage.behind] at hlen
          omega)
        hwriting.tiles hframes hdr.txwi ⟨by omega, hreal.2⟩ hshort hfits
    case isFalse => exact h.goes_idle

theorem Inv.multi (h : Inv s past flying waiting) (hdr : HeaderBuf) (src : List Byte)
    (hadm : s.mayBegin = true → FrameFits s
      (aligned (txinfoSize + hdr.bytes.length + src.length))
      (aligned (txinfoSize + hdr.bytes.length + src.length))) :
    Goes s (rtmpUSBWriteMultiTxResource s hdr.bytes src) waiting flying := by
  cases hblk : s.blk with
  | some b =>
      apply h.goes_of_idle
      rw [rtmpUSBWriteMultiTxResource, hblk]
  | none =>
      cases hreq : s.numberRequired with
      | none =>
          apply h.goes_of_idle
          rw [rtmpUSBWriteMultiTxResource, hblk, hreq]
          rfl
      | some numberRequired =>
          cases hcan : rtmpUSBCanDoWrite s.ctx with
          | false =>
              have hdrop : rtmpUSBWriteMultiTxResource s hdr.bytes src =
                  { s with numberRequired := none, written := [] } := by
                rw [rtmpUSBWriteMultiTxResource, hblk, hreq]
                simp [hcan]
              rw [hdrop]
              exact h.goes_dropped hblk
          | true =>
              obtain ⟨hring, hunsaved⟩ := h.begins hblk hreq
              obtain ⟨hshort, hfits⟩ := h.fits_begins hreq
                (hadm (by simp [State.mayBegin, hblk, hreq, hcan])) hblk
              exact h.goes_lays (writeMulti_lays hring hunsaved hblk hreq hcan hdr.txwi hshort
                hfits) hreq ⟨rfl, rfl⟩

theorem Inv.multiNext (h : Inv s past flying waiting) (hdr src : List Byte)
    (hadm : s.isAt .aggregate = true → FrameFits s (aligned (s.priv + hdr.length + src.length))
      (aligned (s.priv + hdr.length + src.length))) :
    Goes s (rtmpUSBWriteMultiNext s hdr src) waiting flying := by
  cases hblk : s.blk with
  | none =>
      apply h.goes_of_idle
      rw [rtmpUSBWriteMultiNext, hblk]
  | some b =>
      by_cases hnext : b.stage = .aggregate ∧ b.todo = [] ∧ s.ctx.bCurWriting = true
      · obtain ⟨hstage, htodo, -⟩ := hnext
        obtain ⟨numberRequired, hreq, hwriting, hring⟩ := h.writes hblk
        obtain ⟨hshort, hfits⟩ := h.fits_goesOn hreq
          (hadm (by simp [State.isAt, hblk, hstage, htodo])) hblk
        rw [priv_writing hblk] at hshort hfits
        exact h.goes_lays (writeMultiNext_lays hring hwriting hblk hstage htodo hshort hfits) hreq
          ⟨rfl, rfl⟩
      · apply h.goes_of_idle
        rw [rtmpUSBWriteMultiNext, hblk]
        exact if_neg hnext

theorem Inv.copy (h : Inv s past flying waiting) (n : Nat) : Goes s (copy s n) waiting flying := by
  cases hblk : s.blk with
  | none =>
      apply h.goes_of_idle
      rw [TxRing.copy, hblk]
  | some b =>
      obtain ⟨numberRequired, hreq, hwriting, hring⟩ := h.writes hblk
      exact h.goes_lays (copy_lays hring hwriting hblk) hreq ⟨rfl, rfl⟩

theorem Inv.finish (h : Inv s past flying waiting)
    (hadm : s.isAt .lastFragment = true →
      (s.blk.map TxBlk.txQLastRound).getD false = true → MayTurn s.ctx) :
    Goes s (finishWriting s) waiting flying := by
  cases hblk : s.blk with
  | none =>
      apply h.goes_of_idle
      rw [finishWriting, hblk]
  | some b =>
      by_cases hdone : b.stage = .lastFragment ∧ b.todo = []
      · obtain ⟨hstage, htodo⟩ := hdone
        obtain ⟨numberRequired, hreq, hwriting, hring⟩ := h.writes hblk
        have hturn := hadm (by simp [State.isAt, hblk, hstage, htodo])
        rw [hblk] at hturn
        exact h.goes_ends (finishWriting_ends hring hwriting hblk hstage htodo hturn)
      · apply h.goes_of_idle
        rw [finishWriting, hblk]
        exact if_neg hdone

theorem Inv.final (h : Inv s past flying waiting) (totalMPDUSize : Nat)
    (hadm : s.isAt .aggregate = true →
      ¬ (s.ctx.eNextBulkOutPosition = s.ctx.curWritePosition ∧ s.ctx.bCopySavePad = true) ∧
        (maxTxbulkLimit < s.ctx.curWritePosition + aligned s.priv + aggregateReserve →
          MayTurn s.ctx)) :
    Goes s (rtmpUSBFinalWriteTxResource s totalMPDUSize) waiting flying := by
  cases hblk : s.blk with
  | none =>
      apply h.goes_of_idle
      rw [rtmpUSBFinalWriteTxResource, hblk]
  | some b =>
      by_cases hdone : b.stage = .aggregate ∧ b.todo = [] ∧ s.ctx.bCurWriting = true
      · obtain ⟨hstage, htodo, -⟩ := hdone
        obtain ⟨numberRequired, hreq, hwriting, hring⟩ := h.writes hblk
        obtain ⟨hunsaved, hturn⟩ := hadm (by simp [State.isAt, hblk, hstage, htodo])
        rw [priv_writing hblk] at hturn
        obtain ⟨frames, hends⟩ :=
          finalWrite_ends hring hwriting hblk hstage htodo totalMPDUSize hunsaved hturn
        exact h.goes_ends hends
      · apply h.goes_of_idle
        rw [rtmpUSBFinalWriteTxResource, hblk]
        exact if_neg hdone

/-! ## The USB side -/

/-- A bulk-out with frames to send takes some of them. -/
theorem Ring.submits (bulkOutMaxPacketSize : Nat) {c : HtTxContext} {room : Nat}
    (h : Ring c room waiting []) (hne : waiting ≠ [])
    (hreal : c.bCurWriting = true ↔ c.curWritePosition < c.curWriteRealPos) :
    (c.eNextBulkOutPosition ≠ c.curWritePosition ∧
      c.eNextBulkOutPosition ≠ c.curWritePosition + 8) ∧
    ∃ e taken rest, bulkLoop bulkOutMaxPacketSize c.curWritePosition bulkFuel c.restored
        c.eNextBulkOutPosition 0 none = some e ∧ e.tooShort = false ∧
      waiting = taken ++ rest ∧ taken ≠ [] ∧ Submits c (c.makeUp e) room rest taken := by
  have hempty : c.eNextBulkOutPosition ≠ c.curWritePosition := fun heq => hne (h.eq_nil heq)
  have hhigh := h.high
  rcases h.laid with hone | ⟨ahead, behind, rfl, htwo⟩
  · have hle := hone.tiles.le
    have hsize := hone.tiles.size_le fun f hf => (h.formed f hf).long
    have hfuel : waiting.length < bulkFuel := by
      rw [show bulkFuel = 32768 from rfl]
      omega
    obtain ⟨e, taken, rest, hrun, hcomplete, rfl, hout⟩ :=
      takesOut_of_bulkLoop bulkOutMaxPacketSize
        (lap_of_tiles hone.tiles (fun f hf => (h.formed f hf).long) hone.goesOn) h.standing
        h.formed hne hfuel
    exact ⟨⟨hempty, by omega⟩, e, taken, rest, hrun, hcomplete, rfl, hout.nonempty,
      hone.submits h hreal hout⟩
  · obtain ⟨hstanding, -⟩ := List.forall_mem_append.mp h.standing
    obtain ⟨hformed, -⟩ := List.forall_mem_append.mp h.formed
    have hroom := htwo.room
    have hbulk := htwo.bulk
    obtain ⟨stop, htiles, hstop⟩ := htwo.tiles
    have hsize := htiles.size_le fun f hf => (hformed f hf).long
    have hfuel : ahead.length < bulkFuel := by
      rw [show bulkFuel = 32768 from rfl]
      omega
    obtain ⟨init, l, rfl, hl, hinit⟩ := htwo.last
    obtain ⟨e, taken, rest, hrun, hcomplete, hsplit, hout⟩ :=
      takesOut_of_bulkLoop bulkOutMaxPacketSize (lap_of_last htiles hinit hl (by omega))
        hstanding hformed (by simp) hfuel
    rw [hsplit] at htwo h ⊢
    exact ⟨⟨hempty, by omega⟩, e, taken, rest ++ behind, hrun, hcomplete,
      List.append_assoc .., hout.nonempty, htwo.submits h hout⟩

/-- The batch that is being written stays as it is. -/
theorem Writing.submitted {c : HtTxContext} {e : BulkEnd} {room : Nat} (h : Writing c b)
    (hs : Submits c (c.makeUp e) room waiting flying) (hpos : 0 < room) :
    Writing (c.makeUp e) b := by
  obtain ⟨hin, hroom⟩ := h.fits
  have hlen := h.length_todo
  have hend := b.end_le
  have hsame : segment (c.makeUp e).restored c.curWritePosition
      (b.pWirelessPacket - c.curWritePosition) =
      segment c.restored c.curWritePosition (b.pWirelessPacket - c.curWritePosition) := by
    refine segment_congr fun i hi => ?_
    refine hs.kept hpos h.bCurWriting _ (Nat.le_add_right _ _) fun hahead => ?_
    have hfront := hroom hahead
    omega
  exact
    { bCurWriting := h.bCurWriting
      real := h.real
      place := h.place
      tiles := h.tiles
      bytes := (congrArg (· ++ b.todo) hsame).trans h.bytes
      frames := h.frames
      fits := ⟨hin, fun hahead => by
        obtain ⟨hbefore, hle⟩ := hs.ahead hpos hahead
        exact Nat.le_trans (hroom hbefore) hle⟩
      short := h.short }

theorem Inv.real (h : Inv s past flying waiting) :
    s.ctx.bCurWriting = true ↔ s.ctx.curWritePosition < s.ctx.curWriteRealPos := by
  cases hblk : s.blk with
  | none =>
      obtain ⟨hidle, hreal⟩ := h.between hblk
      simp [hidle, hreal]
  | some b =>
      obtain ⟨numberRequired, -, hwriting, -⟩ := h.writes hblk
      exact ⟨fun _ => hwriting.real.1, fun _ => hwriting.bCurWriting⟩

theorem Inv.flying_eq_nil (h : Inv s past flying waiting) (hidle : s.isFlying = false) :
    flying = [] := by
  by_contra hne
  rw [h.flying.mpr hne] at hidle
  cases hidle

/-- **Progress**: a bulk-out of an idle pipe takes frames, if there are any. -/
theorem Inv.submit (bulkOutMaxPacketSize : Nat) (h : Inv s past flying waiting)
    (hidle : s.isFlying = false) (hne : waiting ≠ []) :
    ∃ taken rest, waiting = taken ++ rest ∧ taken ≠ [] ∧
      Inv (rtusbBulkOutDataPacket bulkOutMaxPacketSize s true) past taken rest ∧
      (rtusbBulkOutDataPacket bulkOutMaxPacketSize s true).bulkOutPending = true ∧
      (rtusbBulkOutDataPacket bulkOutMaxPacketSize s true).written = [] := by
  obtain rfl := h.flying_eq_nil hidle
  obtain ⟨⟨hcw, hcw8⟩, e, taken, rest, hrun, hcomplete, rfl, htaken, hs⟩ :=
    h.ring.submits bulkOutMaxPacketSize hne h.real
  have hflags : s.bulkOutPending = false ∧ s.bulkOutReset = false := by
    simpa [State.isFlying] using hidle
  have hbulk : rtusbBulkOutDataPacket bulkOutMaxPacketSize s true =
      { s with ctx := s.ctx.makeUp e, bulkOutPending := true, written := [] } := by
    rw [rtusbBulkOutDataPacket]
    simp only [hflags.1, hflags.2, hcw, hcw8, hrun, hcomplete, Bool.false_eq_true, or_self,
      if_false]
  rw [hbulk]
  refine ⟨taken, rest, rfl, htaken, ?_, rfl, rfl⟩
  exact
    { ring := hs.ring
      writer := by
        cases hblk : s.blk with
        | none =>
            rw [State.Writer]
            exact h.between hblk
        | some b =>
            obtain ⟨numberRequired, hreq, hwriting, -⟩ := h.writes hblk
            rw [room_writing hreq hblk] at hs
            rw [State.Writer]
            exact ⟨by rw [hreq]; rfl, hwriting.submitted hs (by omega)⟩
      accepted := by
        have haccepted := h.accepted
        rw [List.append_nil] at haccepted
        rw [List.append_assoc]
        exact haccepted
      formed := h.formed
      sent := h.sent
      flying := ⟨fun _ => htaken, fun _ => rfl⟩
      once := fun _ => hflags.2 }

/-- The transfer is done: what it carried is sent. -/
theorem Inv.complete (h : Inv s past flying waiting) (hpending : s.bulkOutPending = true) :
    Inv (rtusbDataoutComplete s true) (past ++ flying) [] waiting := by
  have hreset := h.once hpending
  have hne : flying ≠ [] := h.flying.mp (by simp [State.isFlying, hpending])
  have hdone : rtusbDataoutComplete s true =
      { s with
        bulkOutPending := false,
        written := [],
        transfers := s.transfers ++ [s.ctx.transfer] } := by
    rw [rtusbDataoutComplete, if_pos hpending]
    rfl
  rw [hdone]
  exact
    { ring := h.ring.landed
      writer := h.writer
      accepted := by
        rw [List.append_nil]
        exact h.accepted
      formed := h.formed
      sent := by
        rw [State.sent]
        simp only [List.flatMap_append, List.map_append, List.flatMap_cons, List.flatMap_nil,
          List.append_nil]
        rw [h.ring.carries hne]
        exact congrArg (· ++ _) h.sent
      flying := by simp [State.isFlying, hreset]
      once := fun hfalse => by cases hfalse }

theorem Inv.resubmit (h : Inv s past flying waiting) (hreset : s.bulkOutReset = true) :
    Inv (resetBulkOutHdlr s true) past flying waiting ∧
      (resetBulkOutHdlr s true).bulkOutPending = true := by
  have hdone : resetBulkOutHdlr s true =
      { s with bulkOutReset := false, bulkOutPending := true, written := [] } := by
    rw [resetBulkOutHdlr, if_pos hreset, ite_self]
  have hne : flying ≠ [] := h.flying.mp (by simp [State.isFlying, hreset])
  rw [hdone]
  refine ⟨?_, rfl⟩
  exact
    { ring := h.ring, writer := h.writer, accepted := h.accepted, formed := h.formed,
      sent := h.sent, flying := ⟨fun _ => hne, fun _ => rfl⟩, once := fun _ => rfl }

theorem Inv.bulkOut (bulkOutMaxPacketSize : Nat) (h : Inv s past flying waiting) :
    Goes s (rtusbBulkOutDataPacket bulkOutMaxPacketSize s true) waiting flying := by
  by_cases hwork : s.isFlying = false ∧ waiting ≠ []
  · obtain ⟨taken, rest, -, -, hinv, -, hwritten⟩ :=
      h.submit bulkOutMaxPacketSize hwork.1 hwork.2
    refine ⟨⟨_, _, _, hinv⟩, ?_⟩
    rw [hwritten]
    exact clear_nil _ _ _
  · apply h.goes_of_idle
    rw [rtusbBulkOutDataPacket]
    cases hbusy : s.isFlying with
    | true =>
        have hflags : s.bulkOutPending = true ∨ s.bulkOutReset = true := by
          simpa [State.isFlying] using hbusy
        exact if_pos hflags
    | false =>
        have hflags : ¬ (s.bulkOutPending = true ∨ s.bulkOutReset = true) := by
          simpa [State.isFlying] using hbusy
        have hnil : waiting = [] := by
          by_contra hne
          exact hwork ⟨hbusy, hne⟩
        have heq : s.ctx.eNextBulkOutPosition = s.ctx.curWritePosition ∨
            s.ctx.eNextBulkOutPosition = s.ctx.curWritePosition + 8 := by
          rcases h.ring.laid with hone | ⟨ahead, behind, hsplit, htwo⟩
          · have htiles := hone.tiles
            rw [hnil] at htiles
            exact .inl htiles
          · obtain ⟨init, l, rfl, -⟩ := htwo.last
            rw [hnil] at hsplit
            simp at hsplit
        rw [if_neg hflags]
        exact if_pos heq

theorem Inv.completes (h : Inv s past flying waiting) (noError : Bool) :
    Goes s (rtusbDataoutComplete s noError) waiting flying := by
  by_cases hpending : s.bulkOutPending = true
  · cases noError with
    | true =>
        have hwritten : (rtusbDataoutComplete s true).written = [] := by
          rw [rtusbDataoutComplete, if_pos hpending]
          rfl
        exact ⟨⟨_, _, _, h.complete hpending⟩, by rw [hwritten]; exact clear_nil _ _ _⟩
    | false =>
        have hreset : rtusbDataoutComplete s false =
            { s with bulkOutPending := false, bulkOutReset := true, written := [] } := by
          rw [rtusbDataoutComplete, if_pos hpending]
          rfl
        have hne : flying ≠ [] := h.flying.mp (by simp [State.isFlying, hpending])
        rw [hreset]
        refine ⟨⟨past, flying, waiting, ?_⟩, clear_nil _ _ _⟩
        exact
          { ring := h.ring, writer := h.writer, accepted := h.accepted, formed := h.formed,
            sent := h.sent, flying := ⟨fun _ => hne, fun _ => rfl⟩,
            once := fun hfalse => by cases hfalse }
  · apply h.goes_of_idle
    rw [rtusbDataoutComplete, if_neg hpending]

theorem Inv.resubmits (h : Inv s past flying waiting) :
    Goes s (resetBulkOutHdlr s true) waiting flying := by
  by_cases hreset : s.bulkOutReset = true
  · have hwritten : (resetBulkOutHdlr s true).written = [] := by
      rw [resetBulkOutHdlr, if_pos hreset]
    exact ⟨⟨_, _, _, (h.resubmit hreset).1⟩, by rw [hwritten]; exact clear_nil _ _ _⟩
  · apply h.goes_of_idle
    rw [resetBulkOutHdlr, if_neg hreset]

/-! ## Runs -/

/-- One step that keeps the conditions keeps the invariant, and stores nothing over what is
still to be sent. -/
theorem Inv.step (bulkOutMaxPacketSize : Nat) (h : Inv s past flying waiting) {a : Act}
    (hadm : Admitted s a) : Goes s (step bulkOutMaxPacketSize s a) waiting flying := by
  cases a with
  | request numberRequired => exact h.request numberRequired
  | single hdr src =>
      refine h.frag 0 0 hdr src fun hcase => ?_
      rcases hcase with ⟨-, hbegin⟩ | ⟨hne, -⟩
      · have hpriv : s.priv = 0 := by
          have hblk : s.blk = none := by
            simp only [State.mayBegin, Bool.and_eq_true, Option.isNone_iff_eq_none] at hbegin
            exact hbegin.1.1
          exact priv_idle hblk
        rw [hpriv, Nat.zero_add]
        exact hadm hbegin
      · exact absurd rfl hne
  | frag fragNum totalFragNum hdr src => exact h.frag fragNum totalFragNum hdr src hadm
  | multi hdr src => exact h.multi hdr src hadm
  | multiNext hdr src => exact h.multiNext hdr src hadm
  | copy n => exact h.copy n
  | finish => exact h.finish hadm
  | final totalMPDUSize => exact h.final totalMPDUSize hadm
  | bulkOut submitted =>
      have hok : submitted = true := hadm
      subst hok
      exact h.bulkOut bulkOutMaxPacketSize
  | complete noError => exact h.completes noError
  | resetBulkOut submitted =>
      have hok : submitted = true := hadm
      subst hok
      exact h.resubmits

/-- What is in flight is sent by the USB side alone. -/
theorem Inv.lands (bulkOutMaxPacketSize : Nat) (h : Inv s past flying waiting) :
    ∃ as, (∀ a ∈ as, Act.isBulk a = true) ∧
      Inv (exec (TxRing.step bulkOutMaxPacketSize) s as) (past ++ flying) [] waiting := by
  cases hpending : s.bulkOutPending with
  | true => exact ⟨[.complete true], by simp [Act.isBulk], h.complete hpending⟩
  | false =>
      cases hreset : s.bulkOutReset with
      | true =>
          obtain ⟨hinv, hpending'⟩ := h.resubmit hreset
          exact ⟨[.resetBulkOut true, .complete true], by simp [Act.isBulk],
            hinv.complete hpending'⟩
      | false =>
          obtain rfl := h.flying_eq_nil (by simp [State.isFlying, hpending, hreset])
          exact ⟨[], by simp, by rwa [List.append_nil]⟩

/-- What waits is sent by the USB side alone, by induction on how many frames these are. -/
theorem Inv.drained (bulkOutMaxPacketSize : Nat) {n : Nat} (h : Inv s past [] waiting)
    (hn : waiting.length ≤ n) :
    ∃ as, (∀ a ∈ as, Act.isBulk a = true) ∧
      Inv (exec (TxRing.step bulkOutMaxPacketSize) s as) s.accepted [] [] := by
  induction n generalizing s past waiting with
  | zero =>
      obtain rfl := List.eq_nil_of_length_eq_zero (Nat.le_zero.mp hn)
      have haccepted := h.accepted
      rw [List.append_nil, List.append_nil] at haccepted
      exact ⟨[], by simp, by rwa [haccepted]⟩
  | succ n ih =>
      by_cases hne : waiting = []
      · subst hne
        exact ih h (Nat.zero_le _)
      · have hidle : s.isFlying = false := by
          by_contra hbusy
          exact h.flying.mp (by simpa using hbusy) rfl
        obtain ⟨taken, rest, rfl, htaken, hinv, hpending, -⟩ :=
          h.submit bulkOutMaxPacketSize hidle hne
        have hdone := hinv.complete hpending
        have hcount := List.length_pos_of_ne_nil htaken
        rw [List.length_append] at hn
        obtain ⟨as, hbulk, hlast⟩ := ih hdone (by omega)
        refine ⟨.bulkOut true :: .complete true :: as, ?_, ?_⟩
        · exact List.forall_mem_cons.mpr ⟨rfl, List.forall_mem_cons.mpr ⟨rfl, hbulk⟩⟩
        · have haccepted : (rtusbDataoutComplete
              (rtusbBulkOutDataPacket bulkOutMaxPacketSize s true) true).accepted = s.accepted := by
            rw [hdone.accepted, h.accepted]
            simp
          rw [haccepted] at hlast
          exact hlast

/-- **Everything that was accepted can still be sent**, by bulk-outs and completions alone. -/
theorem Inv.drains (bulkOutMaxPacketSize : Nat) (h : Inv s past flying waiting) :
    ∃ as, (∀ a ∈ as, Act.isBulk a = true) ∧
      ((exec (TxRing.step bulkOutMaxPacketSize) s as).sent).map plain =
        s.accepted.map fun f => plain f.bytes := by
  obtain ⟨landing, hlanding, hlanded⟩ := h.lands bulkOutMaxPacketSize
  obtain ⟨as, hbulk, hdrained⟩ := hlanded.drained bulkOutMaxPacketSize (Nat.le_refl _)
  refine ⟨landing ++ as, List.forall_mem_append.mpr ⟨hlanding, hbulk⟩, ?_⟩
  rw [exec_append, hdrained.sent, hlanded.accepted, h.accepted, List.append_nil]

theorem Inv.inFlight (h : Inv s past flying waiting) :
    s.inFlight.map plain = flying.map fun f => plain f.bytes := by
  rw [State.inFlight]
  cases hbusy : s.isFlying with
  | true => exact h.ring.carries (h.flying.mp hbusy)
  | false =>
      rw [h.flying_eq_nil hbusy]
      rfl

theorem Inv.curWriteRealPos_le (h : Inv s past flying waiting) :
    s.ctx.curWriteRealPos + 8 ≤ 122880 := by
  have hhigh := h.ring.high
  cases hblk : s.blk with
  | none =>
      obtain ⟨-, hreal⟩ := h.between hblk
      omega
  | some b =>
      obtain ⟨numberRequired, -, hwriting, -⟩ := h.writes hblk
      obtain ⟨hin, -⟩ := hwriting.fits
      have hreal := hwriting.real
      have hend := b.end_le
      have hsize : b.priv ≤ b.size := by
        rw [TxBlk.size]
        split
        · exact le_aligned _
        · exact Nat.le_refl _
      rw [show maxTxbulkSize = 122880 from rfl] at hin
      omega

theorem Inv.ringOk (bulkOutMaxPacketSize : Nat) (h : Inv s past flying waiting) :
    RingOk bulkOutMaxPacketSize s := by
  have hsent := congrArg List.length h.sent
  have hflight := congrArg List.length h.inFlight
  simp only [List.length_map] at hsent hflight
  have hwaiting : s.waiting = waiting := by
    rw [State.waiting, hsent, hflight, h.accepted]
    exact List.drop_left' (List.length_append ..)
  have hhigh := h.ring.high
  have hreal := h.curWriteRealPos_le
  exact
    { positions := by
        simp only [List.mem_cons, List.not_mem_nil, or_false]
        rintro p (rfl | rfl | rfl | rfl) <;> rw [show maxTxbulkSize = 122880 from rfl] <;> omega
      transfer := fun hbusy => (h.ring.place (h.flying.mp hbusy)).2.1
      lengths := fun f hf => (h.formed f hf).length
      inOrder := by
        rw [List.map_append, h.sent, h.inFlight, h.accepted, ← List.map_append]
        exact (List.prefix_append _ _).map _
      writes := fun a hadm w hw => by
        obtain ⟨hin, hframes, htransfer⟩ := (h.step bulkOutMaxPacketSize hadm).clear w hw
        rw [hwaiting]
        exact ⟨hin, hframes, fun hbusy => htransfer (h.flying.mp hbusy)⟩
      progress := fun hidle hne => by
        rw [hwaiting] at hne
        obtain ⟨taken, rest, -, htaken, hinv, -, -⟩ := h.submit bulkOutMaxPacketSize hidle hne
        intro hnil
        have hcarried := hinv.inFlight
        rw [show (rtusbBulkOutDataPacket bulkOutMaxPacketSize s true).inFlight = [] from hnil]
          at hcarried
        exact htaken (List.map_eq_nil_iff.mp hcarried.symm)
      drains := h.drains bulkOutMaxPacketSize }

/-- **The ring is in order throughout** every run whose steps keep the conditions: what is sent is
what was accepted, in the order it was written, and nothing is stored over it before. -/
theorem txRing_run (bulkOutMaxPacketSize : Nat) (as : List Act)
    (hadm : Along (step bulkOutMaxPacketSize) Admitted init as) :
    Always (step bulkOutMaxPacketSize) (RingOk bulkOutMaxPacketSize) init as := by
  have hinv : Always (step bulkOutMaxPacketSize)
      (fun s => ∃ past flying waiting, Inv s past flying waiting) init as :=
    always_of_along (fun s a ⟨_, _, _, h⟩ hstep => (h.step bulkOutMaxPacketSize hstep).inv)
      ⟨_, _, _, inv_init⟩ hadm
  exact hinv.mono fun s ⟨_, _, _, h⟩ => h.ringOk bulkOutMaxPacketSize

/-- A TXWI of a frame that is not sent with CCK, and nothing else. -/
def bareHeader : HeaderBuf := ⟨List.replicate 16 0xc1, by decide⟩

/-- A single frame, an aggregate of two, and a batch of three fragments whose copying goes on
while the first two are sent, sent again after an error, and done. -/
def mixedRun : List Act :=
  [.request 20, .single bareHeader [1, 2, 3], .copy 30, .finish,
    .request 100, .multi bareHeader [1, 2, 3], .copy 3, .multiNext [1, 2, 3, 4] [9, 9, 9, 9, 9],
    .copy 2, .copy 3, .final 77,
    .bulkOut true, .request 300, .frag 0 2 bareHeader [3], .copy 1, .complete false, .copy 20,
    .frag 1 2 bareHeader [4, 4], .copy 20, .resetBulkOut true, .frag 2 2 bareHeader [5],
    .copy 30, .finish, .complete true, .bulkOut true, .complete true]

theorem txRing_run_mixed :
    Always (step 512) (RingOk 512) init mixedRun ∧
      (exec (step 512) init mixedRun).sent.map plain =
        (exec (step 512) init mixedRun).accepted.map (fun f => plain f.bytes) :=
  ⟨txRing_run 512 mixedRun (by decide +kernel), by decide +kernel⟩

/-- The header of an aggregate is written behind a single frame, and this one is sent: the first
8 bytes of the aggregate are saved. Then the aggregate is done, and sent. -/
def savedPadRun : List Act :=
  [.request 20, .single bareHeader [1, 2, 3], .copy 30, .finish,
    .request 100, .multi bareHeader [1, 2, 3], .bulkOut true, .copy 3,
    .multiNext [1, 2, 3, 4] [9, 9, 9, 9, 9], .copy 5, .final 77, .complete true,
    .bulkOut true, .complete true]

/-- RtmpUSB_FinalWriteTxResource stores `MPDUtotalByteCount` behind the 8 bytes of `SavedPad`,
and the aggregate is sent with the byte count it had before. -/
theorem txRing_savedPad :
    Along (step 512) Admitted init (savedPadRun.take 10) ∧
      ¬ Always (step 512) (RingOk 512) init savedPadRun := by
  refine ⟨by decide +kernel, fun h => ?_⟩
  have hlast : RingOk 512 (exec (step 512) init savedPadRun) := h.last
  have hprefix := hlast.inOrder
  revert hprefix
  decide +kernel

end ExtDrv.Rt3370.TxRing
