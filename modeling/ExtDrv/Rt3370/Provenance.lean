import ExtDrv.Rt3370.BlockPool

/-!
# Where packets come from

The block-ack code makes up no packets: what it holds back and what it hands up
was in a list before, or is the packet of the MPDU at hand. So a property of
packets that the received ones have is one of everything handed up
(`Carries.step`).
-/

namespace ExtDrv.Rt3370

variable {S : Nat → Prop}

/-! ## One entry -/

/-- Every packet of the entry, handed up or held, has the property. -/
structure RxCtx.From (S : Nat → Prop) (c : RxCtx) : Prop where
  up : ∀ i ∈ c.up, S i.pPacket
  held : ∀ mpdu ∈ c.held, S mpdu.pPacket

theorem RxCtx.From.release {c : RxCtx} (h : c.From S) (k : Nat) : (c.release k).From S := by
  constructor
  · intro i hi
    rw [RxCtx.release_up] at hi
    rcases List.mem_append.mp hi with hold | hnew
    · exact h.up i hold
    · obtain ⟨mpdu, hmem, rfl⟩ := List.mem_map.mp hnew
      exact h.held mpdu (List.mem_of_mem_take hmem)
  · intro mpdu hmem
    exact h.held mpdu (List.mem_of_mem_drop hmem)

theorem RxCtx.From.announce {c : RxCtx} (h : c.From S) {rx : RxBlk} (hrx : S rx.pRxPacket) :
    (c.announce rx).From S := by
  refine ⟨fun i hi => ?_, h.held⟩
  rcases List.mem_append.mp hi with hold | hnew
  · exact h.up i hold
  · rw [List.mem_singleton.mp hnew]
    exact hrx

theorem RxCtx.From.setLastIndSeq {c : RxCtx} (h : c.From S) (s : Nat) :
    (c.setLastIndSeq s).From S := ⟨h.up, h.held⟩

theorem RxCtx.From.setLastIndSeqAtTimer {c : RxCtx} (h : c.From S) (now : BitVec 32) :
    (c.setLastIndSeqAtTimer now).From S := ⟨h.up, h.held⟩

theorem RxCtx.From.leSeq {c : RxCtx} (h : c.From S) (s : Nat) :
    (baIndicateReorderingMpdusLeSeq c s).From S := by
  rw [baIndicateReorderingMpdusLeSeq_eq]
  exact h.release _

theorem RxCtx.From.refresh {c : RxCtx} (h : c.From S) : (baRefreshReorderingMpdus c).From S := by
  rw [baRefreshReorderingMpdus_eq]
  exact (h.release _).setLastIndSeq _

theorem RxCtx.From.inOrder {c : RxCtx} (h : c.From S) (s : Nat) :
    (indicateInOrderFrom c s).From S := by
  rw [indicateInOrderFrom_eq]
  exact (h.release _).setLastIndSeq _

theorem RxCtx.From.flush {c : RxCtx} (h : c.From S) (osHz : Nat) (now32 : BitVec 32) :
    (baFlushReorderingTimeoutMpdus osHz c now32).From S := by
  unfold baFlushReorderingTimeoutMpdus
  split
  · exact h
  · split
    · exact h.refresh.setLastIndSeqAtTimer now32
    · split
      · exact (((h.leSeq _).setLastIndSeqAtTimer now32).setLastIndSeq _).inOrder _
      · exact h

theorem RxCtx.From.indicate {c : RxCtx} (h : c.From S) (osHz : Nat) {rx : RxBlk}
    (hrx : S rx.pRxPacket) (nowInd : BitVec 32) :
    (indicateLegacyOrAmsdu osHz c rx nowInd).From S := by
  unfold indicateLegacyOrAmsdu
  split
  · exact h.announce hrx
  · split
    · exact h.announce hrx
    · split
      · exact (h.flush osHz nowInd).announce hrx
      · exact h.announce hrx

/-- A block enters the list it is sorted into, and nothing else does. -/
theorem mem_insertScan {mpdu m : ReorderingMpdu} {xs ys : List ReorderingMpdu}
    (h : insertScan mpdu xs = some ys) (hm : m ∈ ys) : m = mpdu ∨ m ∈ xs := by
  induction xs generalizing ys with
  | nil =>
      cases h
      exact Or.inl (List.mem_singleton.mp hm)
  | cons scan rest ih =>
      simp only [insertScan] at h
      split at h
      · obtain ⟨zs, hz, rfl⟩ := Option.map_eq_some_iff.mp h
        rcases List.mem_cons.mp hm with rfl | htail
        · exact Or.inr List.mem_cons_self
        · exact (ih hz htail).imp id (List.mem_cons_of_mem scan)
      · split at h
        · cases h
        · cases h
          exact List.mem_cons.mp hm

theorem RxCtx.From.enqueue {c : RxCtx} (h : c.From S) (osHz : Nat) {rx : RxBlk}
    (hrx : S rx.pRxPacket) (nowInd : BitVec 32) :
    (baEnqueueReorderingPacket osHz c rx nowInd).From S := by
  by_cases hfl : FlushesInstead c rx
  · rw [baEnqueueReorderingPacket_flush osHz nowInd hfl]
    have hpop : c.popBlock.From S := ⟨h.up, h.held⟩
    exact ((hpop.leSeq _).setLastIndSeq _).indicate osHz hrx nowInd
  · obtain ⟨hE, hpool⟩ := not_or.mp hfl
    obtain ⟨b, rest, hp⟩ := List.exists_cons_of_ne_nil hpool
    rw [baEnqueueReorderingPacket_insert osHz nowInd (by simpa using hE) hp]
    cases hins : insertScan (rx.block b.addr) c.held with
    | none => exact ⟨h.up, h.held⟩
    | some xs =>
        refine ⟨h.up, fun m hm => ?_⟩
        rcases mem_insertScan hins hm with rfl | hold
        · exact hrx
        · exact h.held m hold

theorem RxCtx.From.ampdu {c : RxCtx} (h : c.From S) (osHz : Nat) {rx : RxBlk}
    (hrx : S rx.pRxPacket) (now32 nowInd : BitVec 32) :
    (ampduAtEntry osHz c rx now32 nowInd).From S := by
  have hin : (ampduArrive osHz c now32).From S := (h.flush osHz now32).setLastIndSeqAtTimer now32
  unfold ampduAtEntry ampduDeliver
  cases ampduCase (ampduArrive osHz c now32).ent rx.Sequence with
  | reset => exact ((hin.setLastIndSeq _).setLastIndSeqAtTimer now32).indicate osHz hrx nowInd
  | inOrder =>
      exact (((hin.setLastIndSeq _).indicate osHz hrx nowInd).inOrder _).setLastIndSeqAtTimer now32
  | duplicate => exact hin
  | old => exact hin
  | withinWin => exact hin.enqueue osHz hrx nowInd
  | surpassesWin =>
      have hmoved := ((hin.leSeq (winStartSeq rx.Sequence
        (ampduArrive osHz c now32).ent.BAWinSize)).setLastIndSeq (winStartSeq rx.Sequence
        (ampduArrive osHz c now32).ent.BAWinSize)).setLastIndSeqAtTimer now32
      exact (hmoved.enqueue osHz hrx nowInd).inOrder _

theorem RxCtx.From.bar {c : RxCtx} (h : c.From S) (startSeq : Fin 4096) :
    (barAtEntry c startSeq).From S := by
  unfold barAtEntry
  split
  · exact (h.leSeq _).setLastIndSeq _
  · exact h

theorem RxCtx.From.idle {c : RxCtx} (h : c.From S) (now32 : BitVec 32) :
    (baRecSessionIdleTimeout c now32).From S := by
  unfold baRecSessionIdleTimeout
  split
  · split
    · exact h.refresh
    · exact h
  · exact h

theorem RxCtx.From.close {c : RxCtx} (h : c.From S) : c.closeSession.From S :=
  ⟨h.refresh.up, h.refresh.held⟩

/-! ## The adapter -/

/-- Every packet handed up or held in a list of the adapter has the property. -/
structure Carries (S : Nat → Prop) (ad : RtmpAdapter) : Prop where
  up : ∀ i ∈ ad.up, S i.pPacket
  held : ∀ e, ∀ mpdu ∈ (ad.BARecEntry e).list.next, S mpdu.pPacket

theorem Carries.mono {S' : Nat → Prop} {ad : RtmpAdapter} (h : Carries S ad)
    (himp : ∀ p, S p → S' p) : Carries S' ad :=
  ⟨fun i hi => himp _ (h.up i hi), fun e m hm => himp _ (h.held e m hm)⟩

theorem Carries.recCtx {ad : RtmpAdapter} (h : Carries S ad) (i : Fin 128) :
    (ad.recCtx i).From S := ⟨h.up, h.held i⟩

theorem Carries.putRec {ad : RtmpAdapter} (h : Carries S ad) {i : Fin 128} {c : RxCtx}
    (hc : c.From S) : Carries S (ad.putRec i c) := by
  refine ⟨hc.up, fun e mpdu hm => ?_⟩
  by_cases he : e = i
  · subst he
    simp only [RtmpAdapter.putRec, Function.update_self] at hm
    exact hc.held mpdu hm
  · simp only [RtmpAdapter.putRec, Function.update_of_ne he] at hm
    exact h.held e mpdu hm

/-- The lists and what was handed up are the same. -/
theorem Carries.same {ad ad' : RtmpAdapter} (h : Carries S ad) (hlists : SameLists ad ad')
    (hup : ad'.up = ad.up) : Carries S ad' := by
  refine ⟨fun i hi => h.up i (hup ▸ hi), fun e mpdu hm => ?_⟩
  rw [hlists.held e] at hm
  exact h.held e mpdu hm

theorem Carries.sameRec {ad ad' : RtmpAdapter} (h : Carries S ad) (hrec : SameRec ad ad') :
    Carries S ad' :=
  h.same hrec.sameLists hrec.up

theorem Carries.announce {ad : RtmpAdapter} (h : Carries S ad) {x : Indicated}
    (hx : S x.pPacket) : Carries S { ad with up := ad.up ++ [x] } := by
  refine ⟨fun i hi => ?_, h.held⟩
  rcases List.mem_append.mp hi with hold | hnew
  · exact h.up i hold
  · rw [List.mem_singleton.mp hnew]
    exact hx

/-! ## The table operations hand up nothing -/

@[simp] theorem freeRec_up (ad : RtmpAdapter) (idx : Fin 128) :
    (ad.baTableFreeRecEntry idx).up = ad.up := by
  unfold RtmpAdapter.baTableFreeRecEntry
  split
  · rfl
  · dsimp only
    split <;> rfl

@[simp] theorem allocRec_up (ad : RtmpAdapter) (idx : Fin 128) :
    (ad.baTableAllocRecEntry idx).1.up = ad.up := by
  unfold RtmpAdapter.baTableAllocRecEntry
  split
  · rfl
  · split <;> rfl

/-! ## One step -/

theorem Carries.recAdd {ad : RtmpAdapter} (h : Carries S ad) (w : Fin 32) (f : FrameAddba) :
    Carries S (ad.baRecSessionAdd w f).2 := by
  unfold RtmpAdapter.baRecSessionAdd
  dsimp only
  generalize (ad.Content w).recSlot f.TID = idx
  have hr : Carries S (if idx = 0 then ad.baTableAllocRecEntry idx
      else (ad.putRec idx (baRefreshReorderingMpdus (ad.recCtx idx)), some idx, idx)).1 := by
    split
    · exact h.same (allocRec_sameLists ad idx) (allocRec_up ad idx)
    · exact h.putRec (h.recCtx idx).refresh
  generalize (if idx = 0 then ad.baTableAllocRecEntry idx
    else (ad.putRec idx (baRefreshReorderingMpdus (ad.recCtx idx)), some idx, idx)) = r at hr ⊢
  obtain ⟨ad', ent, idx'⟩ := r
  cases ent with
  | none => exact hr
  | some i => exact hr.same (.update rfl rfl rfl) rfl

theorem Carries.recTearDown {ad : RtmpAdapter} (h : Carries S ad) (wcid : Nat) (tid : Fin 16)
    (bPassive memOk : Bool) : Carries S (ad.baRecSessionTearDown wcid tid bPassive memOk) := by
  unfold RtmpAdapter.baRecSessionTearDown
  split
  · rename_i hw
    dsimp only
    generalize (ad.Content ⟨wcid, hw⟩).recSlot tid = idx
    split
    · exact h
    · split
      · split
        · exact h
        · have hclosed : Carries S (ad.putRec idx (ad.recCtx idx).closeSession) :=
            h.putRec (h.recCtx idx).close
          refine hclosed.same (((setSta_sameLists _ _ _).trans (setSta_sameLists _ _ _)).trans
            (freeRec_sameLists _ _)) ?_
          rw [freeRec_up]
          rfl
      · exact h.same (freeRec_sameLists ad _) (freeRec_up ad _)
  · exact h

theorem Carries.addBaReq {ad : RtmpAdapter} (h : Carries S ad) (wcid : Nat) (f : FrameAddba) :
    Carries S (ad.peerAddBaReqAction wcid f) := by
  unfold RtmpAdapter.peerAddBaReqAction
  split
  · split
    · exact h.recAdd _ f
    · exact h
  · exact h

theorem Carries.delBa {ad : RtmpAdapter} (h : Carries S ad) (wcid : Nat) (lenOk initiator : Bool)
    (tid : Fin 16) : Carries S (ad.peerDelBaAction wcid lenOk initiator tid) := by
  unfold RtmpAdapter.peerDelBaAction
  split
  · split
    · exact h.recTearDown wcid tid true true
    · exact h.sameRec (oriTearDown_sameRec wcid tid true true)
  · exact h

/-- **A data MPDU**: its packet is the only new one. -/
theorem Carries.ampdu {ad : RtmpAdapter} (h : Carries S ad) {rx : RxBlk} (hrx : S rx.pRxPacket)
    (now32 nowInd : BitVec 32) : Carries S (ad.indicateAmpduPacket rx now32 nowInd) := by
  unfold RtmpAdapter.indicateAmpduPacket
  split
  · exact h
  · split
    · rename_i hw
      dsimp only
      generalize (ad.Content ⟨rx.WirelessCliID, hw⟩).recSlot rx.TID = idx
      split
      · exact h.announce hrx
      · exact h.putRec ((h.recCtx idx).ampdu ad.cfg.osHz hrx now32 nowInd)
    · exact h

theorem Carries.bar {ad : RtmpAdapter} (h : Carries S ad) (wcid : Nat) (frameOk : Bool)
    (tid : Fin 16) (startSeq : Fin 4096) :
    Carries S (ad.cntlEnqueueForRecv wcid frameOk tid startSeq) := by
  unfold RtmpAdapter.cntlEnqueueForRecv
  split
  · split
    · exact h.putRec ((h.recCtx _).bar startSeq)
    · exact h
  · exact h

theorem Carries.legacyFlush {ad : RtmpAdapter} (h : Carries S ad) (wcid : Nat) (tid : Fin 16)
    (now32 : BitVec 32) : Carries S (ad.legacyFlush wcid tid now32) := by
  unfold RtmpAdapter.legacyFlush
  split
  · split
    · exact h
    · dsimp only
      split
      · exact h.putRec ((h.recCtx _).flush _ now32)
      · exact h
  · exact h

/-- **One step** of the block-ack code: a received MPDU that has the property, or
no MPDU at all. -/
theorem Carries.step {ad : RtmpAdapter} (h : Carries S ad) (op : BaOp)
    (hop : ∀ rx now32 nowInd, op = .ampdu rx now32 nowInd → S rx.pRxPacket) :
    Carries S (baStep ad op) := by
  cases op with
  | oriSetUp w tid timeOut isForced =>
      exact h.sameRec (oriSetUp_sameRec w tid timeOut isForced)
  | oriTearDown wcid tid bPassive memOk =>
      exact h.sameRec (oriTearDown_sameRec wcid _ bPassive memOk)
  | oriTimeout i busy scan =>
      exact h.sameRec (oriTimeout_sameRec i busy scan)
  | recTearDown wcid tid bPassive memOk => exact h.recTearDown wcid tid bPassive memOk
  | addBaReq wcid f => exact h.addBaReq wcid f
  | addBaRsp wcid f memOk => exact h.sameRec (addBaRsp_sameRec wcid f memOk)
  | delBa wcid lenOk initiator tid => exact h.delBa wcid lenOk initiator tid
  | ampdu rx now32 nowInd => exact h.ampdu (hop rx now32 nowInd rfl) now32 nowInd
  | bar wcid frameOk tid startSeq => exact h.bar wcid frameOk tid startSeq
  | legacy wcid tid now32 => exact h.legacyFlush wcid tid now32
  | idleTimeout i now32 => exact h.putRec ((h.recCtx i).idle now32)

end ExtDrv.Rt3370
