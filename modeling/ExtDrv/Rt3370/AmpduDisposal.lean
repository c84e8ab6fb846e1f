import ExtDrv.Rt3370.Amsdu
import ExtDrv.Rt3370.Delivery

/-!
# The disposal of an A-MPDU frame

`Indicate_AMPDU_Packet` again, with the packets it gives back kept beside those it hands up and
holds, and with the size check `Indicate_Legacy_Packet` makes once the LLC header is removed.
Every frame ends in exactly one of the three places.
-/

namespace ExtDrv.Rt3370.Disposal

open ExtDrv.Serial

/-! ## The frame and the state -/

/-- A received MPDU; `pData` are the eight bytes at its data, which a shorter frame leaves to
whatever the buffer holds there. -/
structure Mpdu extends RxBlk where
  pData : Vector (BitVec 8) 8

/-- Whether `RTMP_802_11_REMOVE_LLC_AND_CONVERT_TO_802_3` removes an LLC/SNAP header. -/
def Mpdu.removesLlc (rx : Mpdu) : Bool :=
  let head := rx.pData.toList.take 6
  let pProto := rx.pData.toList.drop 6
  (head == snap8021H || head == snapBridgeTunnel)
    && !((pProto == ipx || pProto == appleTalk) && head == snap8021H)

/-- `DataSize` after the conversion, an unsigned short. -/
def Mpdu.convertedSize (rx : Mpdu) : Nat :=
  (if rx.removesLlc then BitVec.ofNat 16 rx.DataSize - BitVec.ofNat 16 length8021H
    else BitVec.ofNat 16 rx.DataSize).toNat

/-- The session, and the packets given back so far. -/
structure RxState where
  ctx : RxCtx
  released : List Indicated

/-- `RELEASE_NDIS_PACKET` of the frame's packet. -/
def RxState.releaseNdisPacket (d : RxState) (rx : Mpdu) : RxState :=
  { d with released := d.released ++ [rx.indicated] }

/-- The frame goes up. -/
def RxState.announce (d : RxState) (rx : Mpdu) : RxState :=
  { d with ctx := d.ctx.announce rx.toRxBlk }

/-- What `Indicate_AMPDU_Packet` finds in the slot of the station and the TID. -/
inductive BaSlot
  | noStation
  | tornDown
  | session
deriving DecidableEq, Repr

/-! ## The functions -/

/-- `Indicate_Legacy_Packet`; the time-out flush needs a session in the slot. -/
def indicateLegacyPacket (osHz : Nat) (d : RxState) (slot : BaSlot) (rx : Mpdu)
    (nowInd : BitVec 32) : RxState :=
  if maxRxPktLen < rx.convertedSize then d.releaseNdisPacket rx
  else if decide (slot = .session) && legacyFlushDue osHz d.ctx.ent nowInd then
    { d with ctx := baFlushReorderingTimeoutMpdus osHz d.ctx nowInd }.announce rx
  else d.announce rx

/-- `INDICATE_LEGACY_OR_AMSDU`: an A-MSDU goes up in parts, an EAPOL frame goes to the WPA state
machine, and nothing is left of either. -/
def indicateLegacyOrAmsdu (osHz : Nat) (d : RxState) (slot : BaSlot) (rx : Mpdu)
    (nowInd : BitVec 32) : RxState :=
  if rx.fRX_AMSDU then d.announce rx
  else if rx.fRX_EAP then d.announce rx
  else indicateLegacyPacket osHz d slot rx nowInd

/-- `ba_enqueue_reordering_packet`. -/
def baEnqueueReorderingPacket (osHz : Nat) (d : RxState) (rx : Mpdu) (nowInd : BitVec 32) :
    RxState :=
  let (mpdu_blk, pool) := match baMpduBlkAlloc d.ctx.pool with
    | none => (none, d.ctx.pool)
    | some (mpdu_blk, pool) => (some mpdu_blk, pool)
  let c := { d.ctx with pool := pool }
  match mpdu_blk, rx.fRX_EAP with
  | some mpdu_blk, false =>
      let mpdu_blk := { mpdu_blk with
        Sequence := rx.Sequence, OpMode := rx.OpMode, bAMSDU := rx.fRX_AMSDU,
        pPacket := rx.pRxPacket }
      match baReorderingMpduInsertsorted c.ent.list mpdu_blk with
      | none =>
          { d with ctx := { c with pool := baMpduBlkFree c.pool mpdu_blk } }.releaseNdisPacket rx
      | some list => { d with ctx := { c with ent := { c.ent with list := list } } }
  | _, _ =>
      let c := (baIndicateReorderingMpdusLeSeq c rx.Sequence).setLastIndSeq rx.Sequence
      indicateLegacyOrAmsdu osHz { d with ctx := c } .session rx nowInd

/-- `Indicate_AMPDU_Packet` from the sequence checks on. -/
def ampduDeliver (osHz : Nat) (d : RxState) (rx : Mpdu) (now32 nowInd : BitVec 32) : RxState :=
  match ampduCase d.ctx.ent rx.Sequence with
  | .reset =>
      let c := (d.ctx.setLastIndSeq rx.Sequence).setLastIndSeqAtTimer now32
      indicateLegacyOrAmsdu osHz { d with ctx := c } .session rx nowInd
  | .inOrder =>
      let c := d.ctx.setLastIndSeq rx.Sequence
      let d := indicateLegacyOrAmsdu osHz { d with ctx := c } .session rx nowInd
      { d with ctx :=
          (indicateInOrderFrom d.ctx d.ctx.ent.LastIndSeq).setLastIndSeqAtTimer now32 }
  | .duplicate => d.releaseNdisPacket rx
  | .old => d.releaseNdisPacket rx
  | .withinWin => baEnqueueReorderingPacket osHz d rx nowInd
  | .surpassesWin =>
      let start := winStartSeq rx.Sequence d.ctx.ent.BAWinSize
      let c := baIndicateReorderingMpdusLeSeq d.ctx start
      let c := (c.setLastIndSeq start).setLastIndSeqAtTimer now32
      let d := baEnqueueReorderingPacket osHz { d with ctx := c } rx nowInd
      { d with ctx := indicateInOrderFrom d.ctx d.ctx.ent.LastIndSeq }

/-- `Indicate_AMPDU_Packet`. -/
def indicateAmpduPacket (osHz : Nat) (d : RxState) (slot : BaSlot) (rx : Mpdu)
    (now32 nowInd : BitVec 32) : RxState :=
  if rx.oversize then d.releaseNdisPacket rx
  else
    match slot with
    | .noStation => d.releaseNdisPacket rx
    | .tornDown => indicateLegacyOrAmsdu osHz d slot rx nowInd
    | .session =>
        ampduDeliver osHz { d with ctx := ampduArrive osHz d.ctx now32 } rx now32 nowInd

/-! ## What is wanted -/

/-- The frames of a session that have a place: up the stack, or in the hold-back list. -/
def frames (c : RxCtx) : List Indicated := c.up ++ c.held.map ReorderingMpdu.indicated

/-- All frames with a place. -/
def RxState.frames (d : RxState) : List Indicated := Disposal.frames d.ctx ++ d.released

/-- The sequence number lies in the window of the entry. -/
def InWindow (ent : BaRecEntry) (s : Nat) : Prop :=
  1 ≤ fwd 4096 ent.LastIndSeq s ∧ fwd 4096 ent.LastIndSeq s ≤ ent.BAWinSize

instance (ent : BaRecEntry) (s : Nat) : Decidable (InWindow ent s) :=
  inferInstanceAs (Decidable (_ ∧ _))

/-- The frame is the last one indicated, or an older one. -/
def Passed (ent : BaRecEntry) (s : Nat) : Prop :=
  s = ent.LastIndSeq ∨ 2048 ≤ fwd 4096 ent.LastIndSeq s

/-- The LLC header would be removed from a frame that is shorter than it. -/
def Mpdu.Short (rx : Mpdu) : Prop :=
  rx.fRX_AMSDU = false ∧ rx.fRX_EAP = false ∧ rx.removesLlc = true ∧ rx.DataSize < length8021H

instance (rx : Mpdu) : Decidable rx.Short := inferInstanceAs (Decidable (_ ∧ _ ∧ _ ∧ _))

/-- Why a frame is given back: its size, no station, or it is old or held already, seen after the
time-out flush its arrival triggers. -/
inductive Reason (osHz : Nat) (d : RxState) (slot : BaSlot) (rx : Mpdu) (now32 : BitVec 32) : Prop
  | oversize (h : rx.oversize = true)
  | short (h : rx.Short)
  | noStation (h : slot = .noStation)
  | passed (hslot : slot = .session) (h : Passed (ampduArrive osHz d.ctx now32).ent rx.Sequence)
  | held (hslot : slot = .session)
      (h : (rx.Sequence : Nat) ∈ heldSeqs (ampduArrive osHz d.ctx now32).held)

/-! ## What keeps the frames -/

theorem frames_release (c : RxCtx) (k : Nat) : frames (c.release k) = frames c := by
  simp only [frames, RxCtx.release_up, RxCtx.release_held, List.append_assoc]
  rw [← List.map_append, List.take_append_drop]

@[simp] theorem frames_setLastIndSeq (c : RxCtx) (s : Nat) :
    frames (c.setLastIndSeq s) = frames c := rfl

@[simp] theorem frames_setLastIndSeqAtTimer (c : RxCtx) (now : BitVec 32) :
    frames (c.setLastIndSeqAtTimer now) = frames c := rfl

@[simp] theorem frames_leSeq (c : RxCtx) (s : Nat) :
    frames (baIndicateReorderingMpdusLeSeq c s) = frames c := by
  rw [baIndicateReorderingMpdusLeSeq_eq, frames_release]

@[simp] theorem frames_inOrderFrom (c : RxCtx) (s : Nat) :
    frames (indicateInOrderFrom c s) = frames c := by
  rw [indicateInOrderFrom_eq, frames_setLastIndSeq, frames_release]

@[simp] theorem frames_refresh (c : RxCtx) : frames (baRefreshReorderingMpdus c) = frames c := by
  rw [baRefreshReorderingMpdus_eq, frames_setLastIndSeq, frames_release]

/-- A time-out flush moves held frames up, and that is all. -/
@[simp] theorem frames_flush (osHz : Nat) (c : RxCtx) (now32 : BitVec 32) :
    frames (baFlushReorderingTimeoutMpdus osHz c now32) = frames c := by
  unfold baFlushReorderingTimeoutMpdus
  split
  · rfl
  · split
    · simp
    · split
      · simp
      · rfl

@[simp] theorem frames_arrive (osHz : Nat) (c : RxCtx) (now32 : BitVec 32) :
    frames (ampduArrive osHz c now32) = frames c := by
  simp [ampduArrive]

theorem frames_announce (c : RxCtx) (rx : RxBlk) :
    (frames (c.announce rx)).Perm (rx.indicated :: frames c) := by
  simp only [frames, RxCtx.announce, List.append_assoc, List.singleton_append]
  exact List.perm_middle

/-- A frame put into the list is in it once. -/
theorem insertScan_perm {mpdu : ReorderingMpdu} {xs ys : List ReorderingMpdu}
    (h : insertScan mpdu xs = some ys) : ys.Perm (mpdu :: xs) := by
  induction xs generalizing ys with
  | nil =>
    cases h
    exact List.Perm.refl _
  | cons scan rest ih =>
    simp only [insertScan] at h
    split at h
    · obtain ⟨zs, hz, rfl⟩ := Option.map_eq_some_iff.mp h
      exact ((ih hz).cons scan).trans (List.Perm.swap mpdu scan rest)
    · split at h
      · cases h
      · cases h
        exact List.Perm.refl _

/-- A frame refused has its number in the list already. -/
theorem mem_of_insertScan_none {mpdu : ReorderingMpdu} {xs : List ReorderingMpdu}
    (h : insertScan mpdu xs = none) : (mpdu.Sequence : Nat) ∈ heldSeqs xs := by
  induction xs with
  | nil => cases h
  | cons scan rest ih =>
    simp only [insertScan] at h
    split at h
    · exact List.mem_cons_of_mem _ (ih (Option.map_eq_none_iff.mp h))
    · split at h
      · rename_i heq
        rw [heldSeqs, List.map_cons, heq]
        exact List.mem_cons_self
      · cases h

/-! ## Where the frame ends -/

/-- The frame has a place now, and nothing is given back. -/
structure Placed (d d' : RxState) (rx : Mpdu) : Prop where
  perm : (frames d'.ctx).Perm (rx.indicated :: frames d.ctx)
  released : d'.released = d.released

/-- The frame is given back, and the others are where they were. -/
structure GivenBack (d d' : RxState) (rx : Mpdu) : Prop where
  same : frames d'.ctx = frames d.ctx
  released : d'.released = d.released ++ [rx.indicated]

section

variable {d d' : RxState} {rx : Mpdu} {slot : BaSlot} {osHz : Nat} {now32 nowInd : BitVec 32}

theorem Placed.announce (d : RxState) (rx : Mpdu) : Placed d (d.announce rx) rx :=
  ⟨frames_announce d.ctx rx.toRxBlk, rfl⟩

theorem GivenBack.releaseNdisPacket (d : RxState) (rx : Mpdu) :
    GivenBack d (d.releaseNdisPacket rx) rx :=
  ⟨rfl, rfl⟩

/-- What went before only moved frames up. -/
theorem Placed.after {c : RxCtx} (h : Placed { d with ctx := c } d' rx)
    (hc : frames c = frames d.ctx) : Placed d d' rx := by
  refine ⟨?_, h.released⟩
  rw [← hc]
  exact h.perm

theorem GivenBack.after {c : RxCtx} (h : GivenBack { d with ctx := c } d' rx)
    (hc : frames c = frames d.ctx) : GivenBack d d' rx :=
  ⟨h.same.trans hc, h.released⟩

/-- What comes after only moves frames up. -/
theorem Placed.before {c : RxCtx} (h : Placed d d' rx) (hc : frames c = frames d'.ctx) :
    Placed d { d' with ctx := c } rx := by
  refine ⟨?_, h.released⟩
  show (frames c).Perm _
  rw [hc]
  exact h.perm

theorem GivenBack.before {c : RxCtx} (h : GivenBack d d' rx) (hc : frames c = frames d'.ctx) :
    GivenBack d { d' with ctx := c } rx :=
  ⟨hc.trans h.same, h.released⟩

theorem oversize_eq_false (h : rx.oversize = false) (ha : rx.fRX_AMSDU = false) :
    rx.DataSize ≤ maxRxPktLen := by
  simpa [RxBlk.oversize, ha] using h

/-- The second size check fails for a short frame alone. -/
theorem convertedSize_lt (hle : rx.DataSize ≤ maxRxPktLen) :
    maxRxPktLen < rx.convertedSize ↔ rx.removesLlc = true ∧ rx.DataSize < length8021H := by
  have hle' : rx.DataSize ≤ 1520 := hle
  unfold Mpdu.convertedSize
  cases rx.removesLlc with
  | false =>
    have hnat : (BitVec.ofNat 16 rx.DataSize).toNat = rx.DataSize := by
      rw [BitVec.toNat_ofNat]
      omega
    simp only [Bool.false_eq_true, if_false, false_and, iff_false, hnat]
    omega
  | true =>
    simp only [if_true, true_and, BitVec.toNat_sub, BitVec.toNat_ofNat, maxRxPktLen, length8021H]
    omega

/-- **`INDICATE_LEGACY_OR_AMSDU`**: the frame goes up, unless it is short. -/
theorem indicate_once (slot : BaSlot) (nowInd : BitVec 32) (h : rx.oversize = false) :
    (rx.Short ∧ GivenBack d (indicateLegacyOrAmsdu osHz d slot rx nowInd) rx) ∨
      (¬ rx.Short ∧ Placed d (indicateLegacyOrAmsdu osHz d slot rx nowInd) rx) := by
  unfold indicateLegacyOrAmsdu
  cases ha : rx.fRX_AMSDU with
  | true =>
    refine Or.inr ⟨fun hs => ?_, Placed.announce d rx⟩
    exact Bool.noConfusion (hs.1.symm.trans ha)
  | false =>
    cases he : rx.fRX_EAP with
    | true =>
      refine Or.inr ⟨fun hs => ?_, Placed.announce d rx⟩
      exact Bool.noConfusion (hs.2.1.symm.trans he)
    | false =>
      have hsize := convertedSize_lt (oversize_eq_false h ha)
      simp only [Bool.false_eq_true, if_false, indicateLegacyPacket]
      split
      · rename_i hbig
        exact Or.inl ⟨⟨ha, he, hsize.mp hbig⟩, GivenBack.releaseNdisPacket d rx⟩
      · rename_i hbig
        refine Or.inr ⟨fun hs => hbig (hsize.mpr hs.2.2), ?_⟩
        split
        · exact (Placed.announce _ rx).after (frames_flush osHz d.ctx nowInd)
        · exact Placed.announce d rx

/-- **`ba_enqueue_reordering_packet`**: the frame is held or goes up, unless it is held already or
short. -/
theorem enqueue_once (nowInd : BitVec 32) (h : rx.oversize = false) :
    ((rx.Short ∨ (rx.Sequence : Nat) ∈ heldSeqs d.ctx.held) ∧
        GivenBack d (baEnqueueReorderingPacket osHz d rx nowInd) rx) ∨
      Placed d (baEnqueueReorderingPacket osHz d rx nowInd) rx := by
  have hflush (pool : ReorderingList) := @indicate_once
    ⟨(baIndicateReorderingMpdusLeSeq { d.ctx with pool := pool } rx.Sequence).setLastIndSeq
      rx.Sequence, d.released⟩ rx osHz .session nowInd h
  have hframes (pool : ReorderingList) : frames ((baIndicateReorderingMpdusLeSeq
      { d.ctx with pool := pool } rx.Sequence).setLastIndSeq rx.Sequence) = frames d.ctx := by
    rw [frames_setLastIndSeq, frames_leSeq]
    rfl
  have hup (pool : ReorderingList) := (hflush pool).imp
    (fun h => And.intro (Or.inl h.1 : rx.Short ∨ (rx.Sequence : Nat) ∈ heldSeqs d.ctx.held)
      (h.2.after (hframes pool))) (fun h => h.2.after (hframes pool))
  unfold baEnqueueReorderingPacket
  cases hp : d.ctx.pool.next with
  | nil =>
    rw [baMpduBlkAlloc_nil hp]
    exact hup d.ctx.pool
  | cons b rest =>
    rw [baMpduBlkAlloc_cons hp]
    cases he : rx.fRX_EAP with
    | true => exact hup (.ofList rest)
    | false =>
      dsimp only
      rw [baReorderingMpduInsertsorted_eq]
      cases hins : insertScan ⟨b.addr, rx.Sequence, rx.OpMode, rx.fRX_AMSDU, rx.pRxPacket⟩
        d.ctx.ent.list.next with
      | none =>
        refine Or.inl ⟨Or.inr (mem_of_insertScan_none hins), ?_⟩
        exact ⟨rfl, rfl⟩
      | some xs =>
        refine Or.inr ⟨?_, rfl⟩
        have hperm := (insertScan_perm hins).map ReorderingMpdu.indicated
        exact (hperm.append_left d.ctx.up).trans List.perm_middle

/-- Why the sequence checks give a frame back. -/
def DeliverReason (c : RxCtx) (rx : Mpdu) : Prop :=
  rx.Short ∨ Passed c.ent rx.Sequence ∨ (rx.Sequence : Nat) ∈ heldSeqs c.held

theorem passed_of_duplicate {ent : BaRecEntry} {s : Nat} (h : ampduCase ent s = .duplicate) :
    Passed ent s := by
  unfold ampduCase at h
  split_ifs at h with _ _ heq
  exact Or.inl heq

theorem passed_of_old {ent : BaRecEntry} {s : Nat} (h : ampduCase ent s = .old) :
    Passed ent s := by
  unfold ampduCase at h
  split_ifs at h with _ _ _ hsm
  exact Or.inr ((seqSmaller_iff s ent.LastIndSeq).mp hsm)

/-- **The sequence checks**: one place for the frame in every case. -/
theorem deliver_once (h : rx.oversize = false) :
    (DeliverReason d.ctx rx ∧ GivenBack d (ampduDeliver osHz d rx now32 nowInd) rx) ∨
      Placed d (ampduDeliver osHz d rx now32 nowInd) rx := by
  unfold ampduDeliver
  cases hcase : ampduCase d.ctx.ent rx.Sequence with
  | reset =>
    have hind := @indicate_once
      ⟨(d.ctx.setLastIndSeq rx.Sequence).setLastIndSeqAtTimer now32, d.released⟩ rx osHz
      .session nowInd h
    rcases hind with ⟨hshort, hback⟩ | ⟨-, hplaced⟩
    · exact Or.inl ⟨Or.inl hshort, hback.after rfl⟩
    · exact Or.inr (hplaced.after rfl)
  | inOrder =>
    have hind := @indicate_once ⟨d.ctx.setLastIndSeq rx.Sequence, d.released⟩ rx osHz .session
      nowInd h
    rcases hind with ⟨hshort, hback⟩ | ⟨-, hplaced⟩
    · refine Or.inl ⟨Or.inl hshort, (hback.after rfl).before ?_⟩
      rw [frames_setLastIndSeqAtTimer, frames_inOrderFrom]
    · refine Or.inr ((hplaced.after rfl).before ?_)
      rw [frames_setLastIndSeqAtTimer, frames_inOrderFrom]
  | duplicate =>
    exact Or.inl ⟨Or.inr (Or.inl (passed_of_duplicate hcase)), GivenBack.releaseNdisPacket d rx⟩
  | old =>
    exact Or.inl ⟨Or.inr (Or.inl (passed_of_old hcase)), GivenBack.releaseNdisPacket d rx⟩
  | withinWin =>
    rcases @enqueue_once d rx osHz nowInd h with ⟨hshort | hmem, hback⟩ | hplaced
    · exact Or.inl ⟨Or.inl hshort, hback⟩
    · exact Or.inl ⟨Or.inr (Or.inr hmem), hback⟩
    · exact Or.inr hplaced
  | surpassesWin =>
    -- what falls out of the window goes up first, the list only shrinks
    have hframes : frames (d.ctx.moveWindow (winStartSeq rx.Sequence d.ctx.ent.BAWinSize) now32)
        = frames d.ctx := by
      rw [RxCtx.moveWindow, frames_setLastIndSeqAtTimer, frames_setLastIndSeq, frames_leSeq]
    have hsub : heldSeqs (d.ctx.moveWindow (winStartSeq rx.Sequence d.ctx.ent.BAWinSize)
        now32).held ⊆ heldSeqs d.ctx.held := by
      intro x hx
      have hmem : x ∈ heldSeqs (baIndicateReorderingMpdusLeSeq d.ctx
        (winStartSeq rx.Sequence d.ctx.ent.BAWinSize)).held := hx
      rw [leSeq_held] at hmem
      exact (List.dropWhile_sublist _).mem hmem
    have henq := @enqueue_once ⟨d.ctx.moveWindow (winStartSeq rx.Sequence d.ctx.ent.BAWinSize)
      now32, d.released⟩ rx osHz nowInd h
    rcases henq with ⟨hshort | hmem, hback⟩ | hplaced
    · exact Or.inl ⟨Or.inl hshort, (hback.after hframes).before (frames_inOrderFrom _ _)⟩
    · refine Or.inl ⟨Or.inr (Or.inr (hsub hmem)), (hback.after hframes).before ?_⟩
      exact frames_inOrderFrom _ _
    · exact Or.inr ((hplaced.after hframes).before (frames_inOrderFrom _ _))

/-- **`Indicate_AMPDU_Packet`**: the frame has a place now, or it is given back for a reason. -/
theorem ampdu_once (slot : BaSlot) :
    (Reason osHz d slot rx now32 ∧
        GivenBack d (indicateAmpduPacket osHz d slot rx now32 nowInd) rx) ∨
      Placed d (indicateAmpduPacket osHz d slot rx now32 nowInd) rx := by
  unfold indicateAmpduPacket
  cases hover : rx.oversize with
  | true => exact Or.inl ⟨.oversize hover, GivenBack.releaseNdisPacket d rx⟩
  | false =>
    cases slot with
    | noStation => exact Or.inl ⟨.noStation rfl, GivenBack.releaseNdisPacket d rx⟩
    | tornDown =>
      rcases @indicate_once d rx osHz .tornDown nowInd hover with
        ⟨hshort, hback⟩ | ⟨-, hplaced⟩
      · exact Or.inl ⟨.short hshort, hback⟩
      · exact Or.inr hplaced
    | session =>
      have hframes := frames_arrive osHz d.ctx now32
      rcases @deliver_once ⟨ampduArrive osHz d.ctx now32, d.released⟩ rx osHz now32 nowInd hover
        with ⟨hwhy, hback⟩ | hplaced
      · refine Or.inl ⟨?_, hback.after hframes⟩
        rcases hwhy with hshort | hpassed | hheld
        · exact .short hshort
        · exact .passed rfl hpassed
        · exact .held rfl hheld
      · exact Or.inr (hplaced.after hframes)

theorem Placed.frames_perm (h : Placed d d' rx) : d'.frames.Perm (rx.indicated :: d.frames) := by
  simp only [RxState.frames, h.released]
  exact h.perm.append_right d.released

theorem GivenBack.frames_perm (h : GivenBack d d' rx) :
    d'.frames.Perm (rx.indicated :: d.frames) := by
  simp only [RxState.frames, h.same, h.released, ← List.append_assoc]
  exact List.perm_append_singleton _ _

/-- A number in the window has not been passed. -/
theorem InWindow.not_passed {ent : BaRecEntry} {s : Nat} (h : InWindow ent s) (hs : s < 4096)
    (hw : ent.BAWinSize ≤ 255) : ¬ Passed ent s := by
  obtain ⟨hlow, hhigh⟩ := h
  rintro (rfl | hfar)
  · rw [fwd_self hs] at hlow
    omega
  · omega

/-- Nothing gives back a new frame of the window. -/
theorem released_of_new (hw : d.ctx.ent.BAWinSize ≤ 255) (hover : rx.oversize = false)
    (hshort : ¬ rx.Short) (hwin : InWindow (ampduArrive osHz d.ctx now32).ent rx.Sequence)
    (hnew : (rx.Sequence : Nat) ∉ heldSeqs (ampduArrive osHz d.ctx now32).held) :
    (indicateAmpduPacket osHz d .session rx now32 nowInd).released = d.released := by
  rcases @ampdu_once d rx osHz now32 nowInd .session with ⟨hwhy, -⟩ | hplaced
  · have hsize : (ampduArrive osHz d.ctx now32).ent.BAWinSize = d.ctx.ent.BAWinSize :=
      congrArg (·.2.2.1) (arrive_terms osHz now32)
    cases hwhy with
    | oversize h => exact Bool.noConfusion (hover.symm.trans h)
    | short h => exact absurd h hshort
    | noStation h => cases h
    | passed _ h => exact absurd h (hwin.not_passed rx.Sequence.isLt (hsize.le.trans hw))
    | held _ h => exact absurd h hnew
  · exact hplaced.released

/-- Without a flush of one frame on arrival, the window is the one before, or there is none. -/
theorem arrive_window {c : RxCtx} (h : flushAllDue osHz c.ent now32 = true ∨
    flushOneDue osHz c.ent now32 = false) :
    ampduArrive osHz c now32 = c.setLastIndSeqAtTimer now32 ∨
      (ampduArrive osHz c now32).ent.LastIndSeq = resetRcvSeq := by
  unfold ampduArrive
  cases hall : flushAllDue osHz c.ent now32 with
  | true =>
    refine Or.inr ?_
    have hlen : ¬ c.ent.list.qlen ≤ 0 := by
      have hlt : 1 < c.ent.list.qlen := by
        simp only [flushAllDue, Bool.and_eq_true, decide_eq_true_eq] at hall
        exact hall.2
      omega
    unfold baFlushReorderingTimeoutMpdus
    rw [if_neg hlen, if_pos hall, baRefreshReorderingMpdus_eq]
    rfl
  | false =>
    rw [hall] at h
    have hone := h.resolve_left Bool.false_ne_true
    rw [flush_quiet hall hone]
    exact Or.inl rfl

/-- The first frame after a reset goes up. -/
theorem released_of_reset (hover : rx.oversize = false) (hshort : ¬ rx.Short)
    (h : (ampduArrive osHz d.ctx now32).ent.LastIndSeq = resetRcvSeq) :
    (indicateAmpduPacket osHz d .session rx now32 nowInd).released = d.released := by
  have hcase : ampduCase (ampduArrive osHz d.ctx now32).ent rx.Sequence = .reset := if_pos h
  have hdeliver : indicateAmpduPacket osHz d .session rx now32 nowInd
      = indicateLegacyOrAmsdu osHz ⟨((ampduArrive osHz d.ctx now32).setLastIndSeq
          rx.Sequence).setLastIndSeqAtTimer now32, d.released⟩ .session rx nowInd := by
    unfold indicateAmpduPacket ampduDeliver
    rw [hover]
    dsimp only
    rw [hcase]
    rfl
  rw [hdeliver]
  exact (((indicate_once .session nowInd hover).resolve_left fun hb => hshort hb.1).2).released

end

/-! ## The session underneath -/

section

variable {rx : Mpdu} (osHz : Nat) (d : RxState) (now32 nowInd : BitVec 32)

theorem indicate_ctx (hover : rx.oversize = false) (hshort : ¬ rx.Short) :
    (indicateLegacyOrAmsdu osHz d .session rx nowInd).ctx
      = Rt3370.indicateLegacyOrAmsdu osHz d.ctx rx.toRxBlk nowInd := by
  unfold indicateLegacyOrAmsdu Rt3370.indicateLegacyOrAmsdu
  cases ha : rx.fRX_AMSDU with
  | true => rfl
  | false =>
    cases he : rx.fRX_EAP with
    | true => rfl
    | false =>
      have hsize : ¬ maxRxPktLen < rx.convertedSize := by
        rw [convertedSize_lt (oversize_eq_false hover ha)]
        exact fun hb => hshort ⟨ha, he, hb⟩
      simp only [Bool.false_eq_true, if_false, indicateLegacyPacket, if_neg hsize, decide_true,
        Bool.true_and]
      split <;> rfl

theorem enqueue_ctx (hover : rx.oversize = false) (hshort : ¬ rx.Short) :
    (baEnqueueReorderingPacket osHz d rx nowInd).ctx
      = Rt3370.baEnqueueReorderingPacket osHz d.ctx rx.toRxBlk nowInd := by
  unfold baEnqueueReorderingPacket Rt3370.baEnqueueReorderingPacket
  cases baMpduBlkAlloc d.ctx.pool with
  | none => exact indicate_ctx osHz _ nowInd hover hshort
  | some x =>
    cases he : rx.fRX_EAP with
    | true => exact indicate_ctx osHz _ nowInd hover hshort
    | false =>
      dsimp only
      cases baReorderingMpduInsertsorted d.ctx.ent.list
        ⟨x.1.addr, rx.Sequence, rx.OpMode, rx.fRX_AMSDU, rx.pRxPacket⟩ with
      | none => rfl
      | some list => rfl

/-- What is kept beside the session changes nothing in it. -/
theorem ampdu_ctx (hover : rx.oversize = false) (hshort : ¬ rx.Short) :
    (indicateAmpduPacket osHz d .session rx now32 nowInd).ctx
      = ampduAtEntry osHz d.ctx rx.toRxBlk now32 nowInd := by
  simp only [indicateAmpduPacket, hover, Bool.false_eq_true, if_false]
  rw [ampduAtEntry, ampduDeliver, Rt3370.ampduDeliver]
  cases ampduCase (ampduArrive osHz d.ctx now32).ent rx.Sequence with
  | reset => exact indicate_ctx osHz _ nowInd hover hshort
  | inOrder =>
    dsimp only
    rw [indicate_ctx osHz _ nowInd hover hshort]
  | duplicate => rfl
  | old => rfl
  | withinWin => exact enqueue_ctx osHz _ nowInd hover hshort
  | surpassesWin =>
    dsimp only
    rw [enqueue_ctx osHz _ nowInd hover hshort]

end

/-- **The disposal of an A-MPDU frame**: it is handed up, held or given back, once, and no other
frame with it. It is given back only for its size, for want of a station, or as passed or held
already after the time-out flush its arrival triggers; never when it is new in the window that
flush leaves, nor when it is new in the window it meets and the flush does not skip a frame. -/
theorem ampdu_disposed_once (osHz : Nat) (d : RxState) (slot : BaSlot) (rx : Mpdu)
    (now32 nowInd : BitVec 32) (hw : d.ctx.ent.BAWinSize ≤ 255) :
    (indicateAmpduPacket osHz d slot rx now32 nowInd).frames.Perm (rx.indicated :: d.frames) ∧
      ((indicateAmpduPacket osHz d slot rx now32 nowInd).released ≠ d.released →
        Reason osHz d slot rx now32) ∧
      (slot = .session → rx.oversize = false → ¬ rx.Short →
        InWindow (ampduArrive osHz d.ctx now32).ent rx.Sequence →
        (rx.Sequence : Nat) ∉ heldSeqs (ampduArrive osHz d.ctx now32).held →
        (indicateAmpduPacket osHz d slot rx now32 nowInd).released = d.released) ∧
      (slot = .session → rx.oversize = false → ¬ rx.Short →
        flushAllDue osHz d.ctx.ent now32 = true ∨ flushOneDue osHz d.ctx.ent now32 = false →
        InWindow d.ctx.ent rx.Sequence → (rx.Sequence : Nat) ∉ heldSeqs d.ctx.held →
        (indicateAmpduPacket osHz d slot rx now32 nowInd).released = d.released) := by
  refine ⟨?_, ?_, ?_, ?_⟩
  · rcases @ampdu_once d rx osHz now32 nowInd slot with ⟨-, hback⟩ | hplaced
    · exact hback.frames_perm
    · exact hplaced.frames_perm
  · intro hne
    rcases @ampdu_once d rx osHz now32 nowInd slot with ⟨hwhy, -⟩ | hplaced
    · exact hwhy
    · exact absurd hplaced.released hne
  · rintro rfl hover hshort hwin hnew
    exact released_of_new hw hover hshort hwin hnew
  · rintro rfl hover hshort hdue hwin hnew
    rcases arrive_window hdue with hsame | hreset
    · refine released_of_new hw hover hshort ?_ ?_
      · rw [hsame]
        exact hwin
      · rw [hsame]
        exact hnew
    · exact released_of_reset hover hshort hreset

/-- A frame of `size` bytes, all zero. -/
def mpduOf (s : Fin 4096) (size : Nat) : Mpdu :=
  { frameOf s false with DataSize := size, pData := Vector.replicate 8 0 }

/-- Frame 2 starts the session and frame 4 is held at tick 0. -/
def waiting : RxState where
  ctx := Run.exec (sessionStep 100) (sessionStart 0 1 0 8 64 0)
    [.mpdu oneBlock (frameOf 2 false) 0 0, .mpdu oneBlock (frameOf 4 false) 0 0]
  released := []

/-- Frame 3 arrives in time, and goes up with frame 4. -/
theorem ampdu_disposed_once_waiting :
    (indicateAmpduPacket 100 waiting .session (mpduOf 3 100) 5 5).frames.Perm
        ((mpduOf 3 100).indicated :: waiting.frames) ∧
      (indicateAmpduPacket 100 waiting .session (mpduOf 3 100) 5 5).released
        = waiting.released := by
  have h := ampdu_disposed_once 100 waiting .session (mpduOf 3 100) 5 5 (by decide)
  exact ⟨h.1, h.2.2.1 rfl (by decide) (by decide) (by decide) (by decide)⟩

/-- A new frame of the window is given back when it is too long, and when the flush its own arrival
triggers has given up on it. -/
theorem ampdu_disposed_once_broken :
    (¬ ∀ (d : RxState) (rx : Mpdu) (now32 nowInd : BitVec 32),
      flushOneDue 100 d.ctx.ent now32 = false →
      InWindow d.ctx.ent rx.Sequence → (rx.Sequence : Nat) ∉ heldSeqs d.ctx.held →
      (rx.Sequence : Nat) ∉ upSeqs d.ctx.up →
      (indicateAmpduPacket 100 d .session rx now32 nowInd).released = d.released) ∧
    ¬ ∀ (d : RxState) (rx : Mpdu) (now32 nowInd : BitVec 32), rx.oversize = false →
      InWindow d.ctx.ent rx.Sequence → (rx.Sequence : Nat) ∉ heldSeqs d.ctx.held →
      (rx.Sequence : Nat) ∉ upSeqs d.ctx.up →
      (indicateAmpduPacket 100 d .session rx now32 nowInd).released = d.released := by
  refine ⟨fun h => ?_, fun h => ?_⟩
  · have hlong := h waiting (mpduOf 3 1521) 5 5 (by decide) (by decide) (by decide) (by decide)
    revert hlong
    decide
  · have hlate := h waiting (mpduOf 3 100) 20 20 (by decide) (by decide) (by decide) (by decide)
    revert hlate
    decide

end ExtDrv.Rt3370.Disposal
