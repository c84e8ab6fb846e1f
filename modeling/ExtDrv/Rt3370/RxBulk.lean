import ExtDrv.Rt3370.AmsduBounds
import Mathlib.Data.Finset.Card

/-!
# The walk over a bulk-in buffer

`GetPacketFromRxRing` (`common/cmm_data_usb.c`), called by `STARxDoneInterruptHandle`
until there is no packet left, and `RTUSBBulkReceive` (`common/rtusb_bulk.c`), which hands
it one buffer after the other. A buffer holds records: their length in four bytes, the
RXWI and what was received, and the RXINFO. Every access outside the bytes that came in is
a fault.

The flags that stop `STARxDoneInterruptHandle`, and the allocation of a packet, come from
outside.
-/

namespace ExtDrv.Rt3370.RxBulk

open Loop Memory

/-! ## The code -/

/-- `RT2870_RXDMALEN_FIELD_SIZE`. -/
abbrev rxDmaLenFieldSize : Nat := 4

/-- `RXWI_SIZE`. -/
abbrev rxwiSize : Nat := 16

/-- `RXINFO_SIZE`. -/
abbrev rxInfoSize : Nat := 4

/-- `RX_RING_SIZE`. -/
abbrev rxRingSize : Nat := 8

/-- `RX_CONTEXT`. -/
structure RxContext where
  TransferBuffer : Mem
  BulkInOffset : BitVec 32
  bRxHandling : Bool
  InUse : Bool
  Readable : Bool

/-- The bytes that came in. -/
def RxContext.received (c : RxContext) : Body := ⟨c.BulkInOffset.toNat, c.TransferBuffer⟩

/-- A packet: the record as it was copied, and the descriptor behind it. -/
structure RxPacket where
  data : List (BitVec 8)
  rxInfo : List (BitVec 8)

/-- The length in the first two bytes of the DMA field. -/
def rxDmaLen (octets : List (BitVec 8)) : Nat :=
  (octets.getD 0 0).toNat + (octets.getD 1 0).toNat * 256

/-- `MPDUtotalByteCount` of an RXWI: the bits 16 to 27 of its first word. -/
def mpduTotalByteCount (rxwi : List (BitVec 8)) : Nat :=
  (rxwi.getD 2 0).toNat + (rxwi.getD 3 0).toNat % 16 * 256

/-- `GetPacketFromRxRing` at `readPosition`: the packet, and the next read position. -/
def getPacketFromRxRing (granted : Bool) (c : RxContext) (readPosition : BitVec 32) :
    Except BodyFault (Option (RxPacket × BitVec 32)) :=
  if c.Readable = false ∨ c.InUse = true then pure none
  else
    let rxBufferLength := (c.BulkInOffset - readPosition).toNat
    if rxBufferLength < rxDmaLenFieldSize + rxwiSize + rxInfoSize then pure none
    else do
      let pData := readPosition.toNat
      let thisFrameLen := rxDmaLen (← c.received.read pData 2)
      if thisFrameLen = 0 then pure none
      else if thisFrameLen % 4 ≠ 0 then pure none
      else if rxBufferLength < thisFrameLen + 8 then pure none
      else
        -- skip USB frame length field
        let pData := pData + rxDmaLenFieldSize
        let rxwi ← c.received.read pData 4
        if thisFrameLen < mpduTotalByteCount rxwi then pure none
        else if granted = false then pure none
        else
          let data ← c.received.read pData thisFrameLen
          let rxInfo ← c.received.read (pData + thisFrameLen) rxInfoSize
          pure (some (⟨data, rxInfo⟩,
            readPosition + BitVec.ofNat 32 (thisFrameLen + rxDmaLenFieldSize + rxInfoSize)))

/-- `STARxDoneInterruptHandle` over a buffer: the read position, and the packets so far. -/
structure RxWalk where
  ReadPosition : BitVec 32
  calls : Nat
  packets : List RxPacket

/-- What comes from outside, call by call: the flags, and the allocations. -/
structure Outside where
  stopped : Nat → Bool
  granted : Nat → Bool

/-- One turn of `STARxDoneInterruptHandle`. -/
def walkTurn (os : Outside) (c : RxContext) (w : RxWalk) : Turn RxWalk RxWalk BodyFault :=
  if os.stopped w.calls then .ret w
  else
    match getPacketFromRxRing (os.granted w.calls) c w.ReadPosition with
    | .error e => .fault e
    | .ok none => .ret w
    | .ok (some (p, pos)) => .next ⟨pos, w.calls + 1, w.packets ++ [p]⟩

/-- The walk as `RTUSBBulkReceive` starts it. -/
def RxWalk.start : RxWalk := ⟨0, 0, []⟩

/-- The receive contexts, and the buffers handed over so far, with the position the walk
was started at. -/
structure RxRing where
  RxContext : Nat → RxContext
  NextRxBulkInReadIndex : Nat
  ReadPosition : BitVec 32
  handled : List (RxBulk.RxContext × BitVec 32)

/-- One turn of `RTUSBBulkReceive`; wherever the walk leaves the read position, it is reset. -/
def bulkReceiveTurn (r : RxRing) : Turn RxRing RxRing Empty :=
  let c := r.RxContext r.NextRxBulkInReadIndex
  if c.InUse = false ∧ c.Readable = true ∧ c.bRxHandling = false then
    .next {
      RxContext := Function.update r.RxContext r.NextRxBulkInReadIndex
        { c with BulkInOffset := 0, Readable := false, bRxHandling := false }
      NextRxBulkInReadIndex := (r.NextRxBulkInReadIndex + 1) % rxRingSize
      ReadPosition := 0
      handled := r.handled ++ [({ c with bRxHandling := true }, r.ReadPosition)] }
  else .ret r

/-! ## Records -/

/-- The length of the record at `o`. -/
def lenAt (b : Body) (o : Nat) : Nat := rxDmaLen (b.slice o 2)

/-- What its RXWI says of the frame. -/
def mpduAt (b : Body) (o : Nat) : Nat := mpduTotalByteCount (b.slice (o + rxDmaLenFieldSize) 4)

/-- The record at `o` is taken for one. -/
structure Record (b : Body) (o : Nat) : Prop where
  head : o + 24 ≤ b.size
  nonempty : lenAt b o ≠ 0
  aligned : lenAt b o % 4 = 0
  whole : o + lenAt b o + 8 ≤ b.size
  stated : mpduAt b o ≤ lenAt b o

/-- The places the walk comes to. -/
inductive Reaches (b : Body) : Nat → Prop where
  | first : Reaches b 0
  | next {o : Nat} : Reaches b o → Record b o → Reaches b (o + lenAt b o + 8)

/-- The packet at `o`. -/
def packetAt (b : Body) (o : Nat) : RxPacket :=
  ⟨b.slice (o + 4) (lenAt b o), b.slice (o + 4 + lenAt b o) 4⟩

/-! ## What the walk has to do -/

/-- The frame is there, behind its RXWI. -/
def RxPacket.HoldsMpdu (p : RxPacket) : Prop :=
  rxwiSize + mpduTotalByteCount p.data ≤ p.data.length

/-- A call that returns a packet moves past one record of `b`. -/
structure Advances (b : Body) (w w' : RxWalk) : Prop where
  packet : w'.packets = w.packets ++ [packetAt b w.ReadPosition.toNat]
  position : w'.ReadPosition.toNat
    = w.ReadPosition.toNat + (rxDmaLenFieldSize + lenAt b w.ReadPosition.toNat + rxInfoSize)
  inside : w'.ReadPosition.toNat ≤ b.size

structure WalksWell (os : Outside) (c : RxContext) : Prop where
  reads : Safe fun n => iterate (walkTurn os c) n .start
  ends : ∃ w, Ends (fun n => iterate (walkTurn os c) n .start) w
  advances : ∀ w w', Meets (walkTurn os c) .start w → walkTurn os c w = .next w' →
    Advances c.received w w'
  holds : ∀ w, Meets (walkTurn os c) .start w → ∀ p ∈ w.packets, p.HoldsMpdu

/-- Where the walk comes to a record whose RXWI states no more than the record, it leaves
room for the RXWI. -/
def RxContext.LeavesRoom (c : RxContext) : Prop :=
  c.Readable = true → c.InUse = false → ∀ o, Reaches c.received o → Record c.received o →
    rxwiSize + mpduAt c.received o ≤ lenAt c.received o

/-! ## One call -/

section Call

variable {c : RxContext} {pos : BitVec 32}

theorem record_iff {b : Body} {o : Nat} : Record b o ↔ o + 24 ≤ b.size ∧ lenAt b o ≠ 0 ∧
    lenAt b o % 4 = 0 ∧ o + lenAt b o + 8 ≤ b.size ∧ mpduAt b o ≤ lenAt b o := by
  constructor
  · intro h
    exact ⟨h.head, h.nonempty, h.aligned, h.whole, h.stated⟩
  · intro ⟨h1, h2, h3, h4, h5⟩
    exact ⟨h1, h2, h3, h4, h5⟩

instance (b : Body) (o : Nat) : Decidable (Record b o) := decidable_of_iff' _ record_iff

/-- The packet of a record is read inside the buffer. -/
theorem Record.reads {α : Type} {b : Body} {o : Nat} (h : Record b o)
    (f : List (BitVec 8) → List (BitVec 8) → Except BodyFault α) :
    (do
      let data ← b.read (o + rxDmaLenFieldSize) (lenAt b o)
      let rxInfo ← b.read (o + rxDmaLenFieldSize + lenAt b o) rxInfoSize
      f data rxInfo) = f (packetAt b o).data (packetAt b o).rxInfo := by
  have hwhole := h.whole
  have hdata : o + rxDmaLenFieldSize + lenAt b o ≤ b.size := by
    show o + 4 + _ ≤ _
    omega
  have hinfo : o + rxDmaLenFieldSize + lenAt b o + rxInfoSize ≤ b.size := by
    show o + 4 + _ + 4 ≤ _
    omega
  rw [read_bind, if_pos hdata, read_bind, if_pos hinfo]
  rfl

/-- **One call**, at a position inside the buffer. -/
theorem getPacket_eq (granted : Bool) (hr : c.Readable = true) (hu : c.InUse = false)
    (hpos : pos.toNat ≤ c.BulkInOffset.toNat) :
    getPacketFromRxRing granted c pos = .ok (if Record c.received pos.toNat ∧ granted = true then
      some (packetAt c.received pos.toNat, pos + BitVec.ofNat 32 (lenAt c.received pos.toNat + 8))
    else none) := by
  have hrest : (c.BulkInOffset - pos).toNat = c.received.size - pos.toNat := by
    show _ = c.BulkInOffset.toNat - pos.toNat
    bv_omega
  have hno : ¬ Record c.received pos.toNat → pure none = Except.ok (ε := BodyFault)
      (if Record c.received pos.toNat ∧ granted = true then some (packetAt c.received pos.toNat,
        pos + BitVec.ofNat 32 (lenAt c.received pos.toNat + 8)) else none) := by
    intro h
    rw [if_neg fun hc => h hc.1]
    rfl
  unfold getPacketFromRxRing
  rw [if_neg (by simp [hr, hu])]
  dsimp only
  rw [hrest]
  by_cases hhead : pos.toNat + 24 ≤ c.received.size
  case neg =>
    rw [if_pos (by show _ < 24; omega)]
    exact hno fun h => hhead h.head
  rw [if_neg (by show ¬ _ < 24; omega), read_bind, if_pos (by omega)]
  show (if lenAt c.received pos.toNat = 0 then _ else _) = _
  by_cases hnonempty : lenAt c.received pos.toNat = 0
  · rw [if_pos hnonempty]
    exact hno fun h => h.nonempty hnonempty
  rw [if_neg hnonempty]
  show (if lenAt c.received pos.toNat % 4 ≠ 0 then _ else _) = _
  by_cases haligned : lenAt c.received pos.toNat % 4 = 0
  case neg =>
    rw [if_pos haligned]
    exact hno fun h => haligned h.aligned
  rw [if_neg (not_not_intro haligned)]
  show (if c.received.size - pos.toNat < lenAt c.received pos.toNat + 8 then _ else _) = _
  by_cases hwhole : pos.toNat + lenAt c.received pos.toNat + 8 ≤ c.received.size
  case neg =>
    rw [if_pos (by omega)]
    exact hno fun h => hwhole h.whole
  rw [if_neg (by omega), read_bind, if_pos (by show pos.toNat + 4 + 4 ≤ _; omega)]
  show (if lenAt c.received pos.toNat < mpduAt c.received pos.toNat then _ else _) = _
  by_cases hstated : mpduAt c.received pos.toNat ≤ lenAt c.received pos.toNat
  case neg =>
    rw [if_pos (Nat.not_le.mp hstated)]
    exact hno fun h => hstated h.stated
  rw [if_neg (Nat.not_lt.mpr hstated)]
  have hrecord : Record c.received pos.toNat := ⟨hhead, hnonempty, haligned, hwhole, hstated⟩
  cases granted with
  | false =>
    rw [if_pos rfl, if_neg (by simp)]
    rfl
  | true =>
    rw [if_neg (by decide), if_pos ⟨hrecord, rfl⟩]
    exact hrecord.reads fun data rxInfo => .ok (some (RxPacket.mk data rxInfo,
      pos + BitVec.ofNat 32 (lenAt c.received pos.toNat + rxDmaLenFieldSize + rxInfoSize)))

/-- A buffer that is not ready has no packet. -/
theorem getPacket_not_ready (granted : Bool) (h : ¬ (c.Readable = true ∧ c.InUse = false)) :
    getPacketFromRxRing granted c pos = .ok none := by
  have hcheck : c.Readable = false ∨ c.InUse = true := by
    cases hr : c.Readable with
    | false => exact .inl rfl
    | true =>
      cases hu : c.InUse with
      | false => exact absurd ⟨hr, hu⟩ h
      | true => exact .inr rfl
  exact if_pos hcheck

/-- The read position behind a record does not wrap. -/
theorem Record.next_toNat (h : Record c.received pos.toNat) :
    (pos + BitVec.ofNat 32 (lenAt c.received pos.toNat + 8)).toNat
      = pos.toNat + lenAt c.received pos.toNat + 8 := by
  have hwhole : pos.toNat + lenAt c.received pos.toNat + 8 ≤ c.BulkInOffset.toNat := h.whole
  have hlt := c.BulkInOffset.isLt
  rw [BitVec.toNat_add, BitVec.toNat_ofNat]
  omega

end Call

/-! ## The walk -/

section Walk

variable {os : Outside} {c : RxContext} {w w' : RxWalk}

/-- Where the walk stands, and what it has picked up. -/
structure Stands (b : Body) (w : RxWalk) : Prop where
  reached : Reaches b w.ReadPosition.toNat
  inside : w.ReadPosition.toNat ≤ b.size
  packets : ∀ p ∈ w.packets, ∃ o, Reaches b o ∧ Record b o ∧ p = packetAt b o

theorem stands_start (b : Body) : Stands b .start :=
  ⟨.first, Nat.zero_le _, fun _ hp => absurd hp List.not_mem_nil⟩

/-- The state behind the record at the read position. -/
def RxWalk.next (w : RxWalk) (b : Body) : RxWalk :=
  ⟨w.ReadPosition + BitVec.ofNat 32 (lenAt b w.ReadPosition.toNat + 8), w.calls + 1,
    w.packets ++ [packetAt b w.ReadPosition.toNat]⟩

theorem walkTurn_ready (hw : Stands c.received w) (hstop : os.stopped w.calls = false)
    (hr : c.Readable = true) (hu : c.InUse = false) :
    walkTurn os c w = if Record c.received w.ReadPosition.toNat ∧ os.granted w.calls = true then
      .next (w.next c.received) else .ret w := by
  have hget := getPacket_eq (os.granted w.calls) hr hu hw.inside
  rw [walkTurn, hstop, hget]
  split_ifs <;> first | rfl | contradiction

variable (os) in
/-- A turn of the walk: a record is picked up, or it is over. -/
theorem walkTurn_cases (hw : Stands c.received w) :
    (Record c.received w.ReadPosition.toNat ∧ walkTurn os c w = .next (w.next c.received)) ∨
      walkTurn os c w = .ret w := by
  cases hstop : os.stopped w.calls with
  | true => exact .inr (if_pos hstop)
  | false =>
    by_cases hready : c.Readable = true ∧ c.InUse = false
    · rw [walkTurn_ready hw hstop hready.1 hready.2]
      by_cases htaken : Record c.received w.ReadPosition.toNat ∧ os.granted w.calls = true
      · exact .inl ⟨htaken.1, if_pos htaken⟩
      · exact .inr (if_neg htaken)
    · refine .inr ?_
      rw [walkTurn, hstop, getPacket_not_ready _ hready]
      rfl

theorem Stands.advances (hw : Stands c.received w) (h : walkTurn os c w = .next w') :
    Advances c.received w w' := by
  rcases walkTurn_cases os hw with ⟨hrecord, hnext⟩ | hret
  · rw [hnext] at h
    cases h
    have hpos : (w.next c.received).ReadPosition.toNat = _ := hrecord.next_toNat
    have hwhole := hrecord.whole
    refine ⟨rfl, ?_, ?_⟩
    · rw [hpos]
      show _ = w.ReadPosition.toNat + (4 + _ + 4)
      omega
    · rw [hpos]
      exact hwhole
  · rw [hret] at h
    cases h

theorem Stands.turn (hw : Stands c.received w) (h : walkTurn os c w = .next w') :
    Stands c.received w' := by
  rcases walkTurn_cases os hw with ⟨hrecord, hnext⟩ | hret
  · rw [hnext] at h
    cases h
    have hpos : (w.next c.received).ReadPosition.toNat = _ := hrecord.next_toNat
    refine ⟨?_, ?_, ?_⟩
    · rw [hpos]
      exact .next hw.reached hrecord
    · rw [hpos]
      exact hrecord.whole
    · intro p hp
      rcases List.mem_append.mp hp with hp | hp
      · exact hw.packets p hp
      · exact ⟨_, hw.reached, hrecord, List.mem_singleton.mp hp⟩
  · rw [hret] at h
    cases h

theorem stands_of_meets (h : Meets (walkTurn os c) .start w) : Stands c.received w :=
  h.inv (fun _ _ hw hn => hw.turn hn) (stands_start c.received)

/-- **The walk ends**, and stays inside: what is left of the buffer runs down. -/
theorem walk_total (os : Outside) (c : RxContext) :
    Safe (fun n => iterate (walkTurn os c) n .start) ∧
      ∃ w, Ends (fun n => iterate (walkTurn os c) n .start) w := by
  have hturn : ∀ w, Stands c.received w → (∃ r, walkTurn os c w = .ret r ∧ True) ∨
      ∃ w', walkTurn os c w = .next w' ∧ Stands c.received w' ∧
        c.received.size - w'.ReadPosition.toNat < c.received.size - w.ReadPosition.toNat := by
    intro w hw
    rcases walkTurn_cases os hw with ⟨hrecord, hnext⟩ | hret
    · have hpos := (hw.advances hnext).position
      have hinside := (hw.advances hnext).inside
      refine .inr ⟨_, hnext, hw.turn hnext, ?_⟩
      have hlen : 0 < rxDmaLenFieldSize := Nat.zero_lt_succ 3
      omega
    · exact .inl ⟨w, hret, trivial⟩
  obtain ⟨hsafe, w, hends, -⟩ := iterate_total (fun w => c.received.size - w.ReadPosition.toNat)
    hturn (stands_start c.received)
  exact ⟨hsafe, w, hends⟩

/-- Nothing stops the walk. -/
def unhindered : Outside := ⟨fun _ => false, fun _ => true⟩

/-- The unhindered walk comes everywhere it can. -/
theorem meets_of_reaches (hr : c.Readable = true) (hu : c.InUse = false) {o : Nat}
    (h : Reaches c.received o) :
    ∃ w, Meets (walkTurn unhindered c) .start w ∧ w.ReadPosition.toNat = o := by
  induction h with
  | first => exact ⟨.start, .here _, rfl⟩
  | next h hrecord ih =>
    obtain ⟨w, hm, rfl⟩ := ih
    have hnext : walkTurn unhindered c w = .next (w.next c.received) :=
      (walkTurn_ready (stands_of_meets hm) rfl hr hu).trans (if_pos ⟨hrecord, rfl⟩)
    exact ⟨_, hm.snoc hnext, hrecord.next_toNat⟩

end Walk

/-! ## What is picked up -/

theorem mpdu_packetAt {b : Body} {o : Nat} (h : Record b o) :
    mpduTotalByteCount (packetAt b o).data = mpduAt b o := by
  have hlen : 4 ≤ lenAt b o := by
    have hnonempty := h.nonempty
    have haligned := h.aligned
    omega
  have hbyte (n i : Nat) (hi : i < n) : (b.slice (o + 4) n).getD i 0 = b.byte (o + 4 + i) := by
    rw [List.getD_eq_getElem?_getD, Body.slice, getElem?_segment b.byte hi]
    rfl
  show mpduTotalByteCount (b.slice (o + 4) (lenAt b o)) = mpduTotalByteCount (b.slice (o + 4) 4)
  rw [mpduTotalByteCount, mpduTotalByteCount, hbyte _ 2 (by omega), hbyte _ 3 (by omega),
    hbyte 4 2 (by decide), hbyte 4 3 (by decide)]

theorem holdsMpdu_iff {b : Body} {o : Nat} (h : Record b o) :
    (packetAt b o).HoldsMpdu ↔ rxwiSize + mpduAt b o ≤ lenAt b o := by
  rw [RxPacket.HoldsMpdu, mpdu_packetAt h]
  show _ ≤ (b.slice (o + 4) (lenAt b o)).length ↔ _
  rw [length_slice]

/-- A buffer whose records leave no room gives a packet without its frame. -/
theorem leavesRoom_of_walks {c : RxContext} (h : WalksWell unhindered c) : c.LeavesRoom := by
  intro hr hu o ho hrecord
  obtain ⟨w, hm, rfl⟩ := meets_of_reaches hr hu ho
  have hnext : walkTurn unhindered c w = .next (w.next c.received) :=
    (walkTurn_ready (stands_of_meets hm) rfl hr hu).trans (if_pos ⟨hrecord, rfl⟩)
  have hholds := h.holds _ (hm.snoc hnext) (packetAt c.received w.ReadPosition.toNat)
    (List.mem_append_right _ (List.mem_singleton.mpr rfl))
  exact (holdsMpdu_iff hrecord).mp hholds

/-- Something is picked up of a buffer that is ready only. -/
theorem ready_of_packets {os : Outside} {c : RxContext} {w : RxWalk}
    (h : Meets (walkTurn os c) .start w) (hw : w.packets ≠ []) :
    c.Readable = true ∧ c.InUse = false := by
  by_contra hready
  have hret : walkTurn os c .start = .ret .start := by
    rw [walkTurn, getPacket_not_ready _ hready]
    split_ifs <;> rfl
  cases h with
  | here _ => exact hw rfl
  | later hs _ =>
    rw [hret] at hs
    cases hs

/-- **The walk over a bulk-in buffer** does what it has to, whatever happens outside, exactly
where the records leave room for the RXWI. -/
theorem walksWell_iff (c : RxContext) : (∀ os, WalksWell os c) ↔ c.LeavesRoom := by
  constructor
  · intro h
    exact leavesRoom_of_walks (h unhindered)
  · intro h os
    have htotal := walk_total os c
    refine ⟨htotal.1, htotal.2, ?_, ?_⟩
    · intro w w' hm hnext
      exact (stands_of_meets hm).advances hnext
    · intro w hm p hp
      have hready := ready_of_packets hm (List.ne_nil_of_mem hp)
      obtain ⟨o, ho, hrecord, rfl⟩ := (stands_of_meets hm).packets p hp
      exact (holdsMpdu_iff hrecord).mpr (h hready.1 hready.2 o ho hrecord)

/-- One record of 16 bytes, whose RXWI states a frame of 16 bytes. -/
def fullRecord : RxContext where
  TransferBuffer i := [16, 0, 0, 0, 0, 0, 16, 0].getD i 0
  BulkInOffset := 24
  bRxHandling := true
  InUse := false
  Readable := true

theorem fullRecord_broken : ¬ ∀ os, WalksWell os fullRecord := by
  intro h
  have hrecord : Record fullRecord.received 0 := by decide
  exact absurd (leavesRoom_of_walks (h unhindered) rfl rfl 0 .first hrecord) (by decide)

/-! ## One buffer after the other -/

/-- The contexts that are ready. -/
def RxRing.ready (r : RxRing) : Finset Nat := (Finset.range rxRingSize).filter fun i =>
  (r.RxContext i).InUse = false ∧ (r.RxContext i).Readable = true ∧
    (r.RxContext i).bRxHandling = false

structure RxRing.Reset (r : RxRing) : Prop where
  index : r.NextRxBulkInReadIndex < rxRingSize
  position : r.ReadPosition = RxWalk.start.ReadPosition
  handled : ∀ x ∈ r.handled, x.2 = RxWalk.start.ReadPosition

/-- A turn hands over a buffer that is not ready any more. -/
theorem RxRing.Reset.turn {r r' : RxRing} (hr : r.Reset) (h : bulkReceiveTurn r = .next r') :
    r'.Reset ∧ r'.ready.card < r.ready.card := by
  unfold bulkReceiveTurn at h
  dsimp only at h
  split_ifs at h with hready
  cases h
  constructor
  · refine ⟨Nat.mod_lt _ (by decide), rfl, ?_⟩
    intro x hx
    rcases List.mem_append.mp hx with hx | hx
    · exact hr.handled x hx
    · rw [List.mem_singleton.mp hx]
      exact hr.position
  · have hmem : r.NextRxBulkInReadIndex ∈ r.ready :=
      Finset.mem_filter.mpr ⟨Finset.mem_range.mpr hr.index, hready⟩
    refine Finset.card_lt_card (Finset.ssubset_iff_of_subset ?_ |>.mpr ⟨_, hmem, ?_⟩)
    · intro i hi
      obtain ⟨hrange, hi⟩ := Finset.mem_filter.mp hi
      by_cases heq : i = r.NextRxBulkInReadIndex
      · rw [heq]
        exact hmem
      · dsimp only at hi
        rw [Function.update_of_ne heq] at hi
        exact Finset.mem_filter.mpr ⟨hrange, hi⟩
    · intro hi
      have hreadable := (Finset.mem_filter.mp hi).2.2.1
      dsimp only at hreadable
      rw [Function.update_self] at hreadable
      cases hreadable

/-- **Bulk receive** hands over the buffers that are ready, each to be walked from its start. -/
theorem bulkReceive_total {r : RxRing} (hr : r.Reset) :
    ∃ r', Ends (fun n => iterate bulkReceiveTurn n r) r' ∧ r'.Reset := by
  refine (iterate_total (fun r => r.ready.card) ?_ hr).2
  intro r hr
  cases hturn : bulkReceiveTurn r with
  | fault e => exact e.elim
  | next r' => exact .inr ⟨r', rfl, hr.turn hturn⟩
  | ret r' =>
    refine .inl ⟨r', rfl, ?_⟩
    unfold bulkReceiveTurn at hturn
    dsimp only at hturn
    split_ifs at hturn
    cases hturn
    exact hr

end ExtDrv.Rt3370.RxBulk
