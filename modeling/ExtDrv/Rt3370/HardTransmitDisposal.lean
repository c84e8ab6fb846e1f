import ExtDrv.Rt3370.DeQueueBatches
import ExtDrv.Rt3370.HardTransmit

/-!
# Transmitted packets are disposed of

When every packet of a batch is released once and not touched afterwards: the expansion for the
software encryption does not lose it, and the ring takes every fragment but the last one. A caller
that looked at what the writer returns would not need the second.
-/

namespace ExtDrv.Rt3370.HardTransmit

open Disposal DeQueue

/-! ## One packet -/

/-- One packet alone. -/
def only (h : Handle) : Handle → Bool := fun x => decide (x = h)

section One

variable {h : Handle}

@[simp] theorem only_self (h : Handle) : only h h = true := decide_eq_true rfl

/-- Its release leaves nothing. -/
theorem update_only (h : Handle) : Function.update (only h) h false = fun _ => false := by
  funext x
  by_cases hx : x = h
  · rw [hx, Function.update_self]
  · rw [Function.update_of_ne hx]
    exact decide_eq_false hx

theorem next_ne (h : Handle) : h.next ≠ h := by
  intro heq
  have hcopy := congrArg Handle.copy heq
  exact Nat.succ_ne_self h.copy hcopy

theorem run_only_touch (as : Acts) : run (only h) (.touch (some h) :: as) = run (only h) as :=
  run_touch (only_self h) as

theorem run_only_release (as : Acts) :
    run (only h) (.release (some h) :: as) = run (fun _ => false) as := by
  rw [run_release (only_self h), update_only]

theorem disposed_only_touch (as : Acts) :
    Disposed (only h) (.touch (some h) :: as) ↔ Disposed (only h) as := by
  unfold Disposed
  rw [run_only_touch]

theorem disposed_only_release : Disposed (only h) [.release (some h)] := by
  refine ⟨fun _ => false, ?_, fun _ => rfl⟩
  rw [run_only_release]
  rfl

/-- The copy takes the place of the packet. -/
theorem run_copied (as : Acts) :
    run (only h) ((makeRoom .copied h).1 ++ as) = run (only h.next) as := by
  have hfresh : only h h.next = false := decide_eq_false (next_ne h)
  have hold : Function.update (only h) h.next true h = true := by
    rw [Function.update_of_ne (next_ne h).symm]
    exact only_self h
  show run (only h) (.touch (some h) :: .alloc h.next :: .release (some h) :: as) = _
  rw [run_only_touch, run_alloc hfresh, run_release hold]
  congr 1
  funext x
  by_cases hx : x = h
  · rw [hx, Function.update_self]
    exact (decide_eq_false (next_ne h).symm).symm
  · rw [Function.update_of_ne hx]
    by_cases hn : x = h.next
    · rw [hn, Function.update_self]
      exact (only_self h.next).symm
    · rw [Function.update_of_ne hn]
      exact (decide_eq_false hx).trans (decide_eq_false hn).symm

theorem run_failed (as : Acts) :
    run (only h) ((makeRoom .failed h).1 ++ as) = run (fun _ => false) as := by
  show run (only h) (.touch (some h) :: .release (some h) :: as) = _
  rw [run_only_touch, run_only_release]

/-- **The expansion** must not lose the packet; NULL would be released. -/
theorem disposed_afterExpand {a : Answers} {k : Handle → Acts} {Q : Prop}
    (hk : ∀ h, Disposed (only h) (k h) ↔ Q) (h : Handle) :
    Disposed (only h) (afterExpand (expandForSwEncrypt a h) k) ↔
      (a.swEncrypt = true → a.expand ≠ .failed) ∧ Q := by
  unfold expandForSwEncrypt
  cases hsw : a.swEncrypt with
  | false =>
    rw [if_neg Bool.noConfusion]
    exact (hk h).trans (and_iff_right nofun).symm
  | true =>
    rw [if_pos rfl]
    cases hroom : a.expand with
    | enough =>
      show Disposed (only h) (.touch (some h) :: k h) ↔ _
      rw [disposed_only_touch, hk]
      exact (and_iff_right nofun).symm
    | copied =>
      show Disposed (only h) ((makeRoom .copied h).1 ++ k h.next) ↔ _
      unfold Disposed
      rw [run_copied]
      exact (hk h.next).trans (and_iff_right nofun).symm
    | failed =>
      refine iff_of_false (not_disposed_of_none ?_) fun hgood => hgood.1 rfl rfl
      show run (only h) ((makeRoom .failed h).1 ++ [.release none]) = none
      rw [run_failed]
      rfl

theorem disposed_writeTxResource (takes : Bool) (h : Handle) :
    Disposed (only h) (writeTxResource takes h) := by
  cases takes with
  | false => exact disposed_only_release
  | true => exact (disposed_only_touch _).mpr disposed_only_release

theorem disposed_staLegacyFrameTx (a : Answers) (h : Handle) :
    Disposed (only h) (staLegacyFrameTx a h) ↔ (a.swEncrypt = true → a.expand ≠ .failed) := by
  have hall : ∀ h, Disposed (only h) (.touch (some h) :: writeTxResource (a.takes 0) h) ↔ True :=
    fun h => iff_true_intro ((disposed_only_touch _).mpr (disposed_writeTxResource _ h))
  refine (disposed_only_touch _).trans ((disposed_afterExpand hall h).trans ?_)
  exact iff_of_eq (and_true _)

end One

/-! ## Fragments -/

section Fragments

variable {a : Answers} {h : Handle}

/-- One turn of the loop. -/
def fragmentTurn (a : Answers) (h : Handle) (fragNum : Nat) : Acts :=
  (if a.swEncrypt then [.touch (some h)] else []) ++ rtmpUsbWriteFragTxResource a h fragNum

/-- A turn that the ring takes, and not the last one. -/
theorem run_fragmentTurn_takes {fragNum : Nat} (htakes : a.takes fragNum = true)
    (hlast : fragNum ≠ a.lastFrag) (as : Acts) :
    run (only h) (fragmentTurn a h fragNum ++ as) = run (only h) as := by
  unfold fragmentTurn rtmpUsbWriteFragTxResource
  rw [if_pos htakes, if_neg hlast]
  cases a.swEncrypt with
  | false => exact run_only_touch as
  | true => exact (run_only_touch _).trans (run_only_touch as)

/-- The others release the packet. -/
theorem run_fragmentTurn_releases {fragNum : Nat}
    (h' : a.takes fragNum = false ∨ fragNum = a.lastFrag) (as : Acts) :
    run (only h) (fragmentTurn a h fragNum ++ as) = run (fun _ => false) as := by
  have hwrite : run (only h) (rtmpUsbWriteFragTxResource a h fragNum ++ as)
      = run (fun _ => false) as := by
    unfold rtmpUsbWriteFragTxResource
    cases htakes : a.takes fragNum with
    | false =>
      rw [if_neg Bool.noConfusion]
      exact run_only_release as
    | true =>
      rcases h' with hno | hlast
      · rw [htakes] at hno
        cases hno
      · rw [if_pos rfl, if_pos hlast]
        exact (run_only_touch _).trans (run_only_release as)
  unfold fragmentTurn
  cases a.swEncrypt with
  | false => exact hwrite
  | true => exact (run_only_touch _).trans hwrite

/-- A turn without the packet. -/
theorem run_fragmentTurn_dead (fragNum : Nat) (as : Acts) :
    run (fun _ => false) (fragmentTurn a h fragNum ++ as) = none := by
  unfold fragmentTurn rtmpUsbWriteFragTxResource
  cases a.swEncrypt with
  | true => exact run_dead rfl (Or.inl rfl) _
  | false =>
    cases a.takes fragNum with
    | true => exact run_dead rfl (Or.inl rfl) _
    | false => exact run_dead rfl (Or.inr rfl) _

/-- **The loop**, from fragment `i` on: the ring must take every fragment but the last. -/
theorem disposed_fragmentTurns (m : Nat) {i : Nat} (hi : i + m = a.lastFrag) :
    Disposed (only h) ((List.range' i (m + 1)).flatMap (fragmentTurn a h)) ↔
      ∀ j, i ≤ j → j < a.lastFrag → a.takes j = true := by
  induction m generalizing i with
  | zero =>
    refine iff_of_true ⟨fun _ => false, ?_, fun _ => rfl⟩ fun j hij hj => by omega
    have hlast : i = a.lastFrag := hi
    show run (only h) (fragmentTurn a h i ++ []) = _
    rw [run_fragmentTurn_releases (Or.inr hlast)]
    rfl
  | succ m ih =>
    rw [List.range'_succ, List.flatMap_cons]
    unfold Disposed
    cases htakes : a.takes i with
    | true =>
      rw [run_fragmentTurn_takes htakes (by omega)]
      refine (ih (by omega)).trans ⟨fun hall j hij hj => ?_, fun hall j hij hj => hall j (by omega) hj⟩
      by_cases hji : j = i
      · rw [hji]
        exact htakes
      · exact hall j (by omega) hj
    | false =>
      rw [run_fragmentTurn_releases (Or.inl htakes), List.range'_succ, List.flatMap_cons,
        run_fragmentTurn_dead]
      refine iff_of_false nofun fun hall => ?_
      have htrue := hall i (Nat.le_refl i) (by omega)
      rw [htakes] at htrue
      cases htrue

theorem disposed_fragmentLoop (a : Answers) (h : Handle) :
    Disposed (only h) (fragmentLoop a h) ↔ ∀ j < a.lastFrag, a.takes j = true := by
  unfold fragmentLoop
  rw [List.range_eq_range']
  refine (disposed_fragmentTurns a.lastFrag (Nat.zero_add _)).trans ?_
  exact ⟨fun hall j hj => hall j (Nat.zero_le j) hj, fun hall j _ hj => hall j hj⟩

theorem disposed_fragmentFrame (a : Answers) (h : Handle) :
    Disposed (only h) (fragmentFrame a h) ↔
      ((a.swEncrypt = true → a.memory = true) → ∀ j < a.lastFrag, a.takes j = true) := by
  unfold fragmentFrame
  rw [disposed_only_touch]
  by_cases hmem : a.swEncrypt = true ∧ a.memory = false
  · rw [if_pos hmem]
    refine iff_of_true disposed_only_release fun hall => ?_
    have htrue := hall hmem.1
    rw [hmem.2] at htrue
    cases htrue
  · rw [if_neg hmem, disposed_fragmentLoop]
    refine ⟨fun hall _ => hall, fun hall => hall fun hsw => ?_⟩
    exact Bool.of_not_eq_false fun hno => hmem ⟨hsw, hno⟩

end Fragments

/-- The loop over the fragments is reached. -/
def Loops (a : Answers) : Prop :=
  (a.tkip = true → a.duplicate ≠ .failed) ∧ (a.swEncrypt = true → a.memory = true)

theorem disposed_staFragmentFrameTx (a : Answers) (h : Handle) :
    Disposed (only h) (staFragmentFrameTx a h) ↔ (a.swEncrypt = true → a.expand ≠ .failed) ∧
      (Loops a → ∀ j < a.lastFrag, a.takes j = true) := by
  refine (disposed_only_touch _).trans (disposed_afterExpand (fun h => ?_) h)
  unfold Loops
  cases htkip : a.tkip with
  | false =>
    rw [if_neg Bool.noConfusion, disposed_fragmentFrame]
    exact ⟨fun hall hl => hall hl.2, fun hall hmem => hall ⟨nofun, hmem⟩⟩
  | true =>
    rw [if_pos rfl]
    cases hroom : a.duplicate with
    | enough =>
      refine (disposed_only_touch _).trans ((disposed_fragmentFrame a h).trans ?_)
      exact ⟨fun hall hl => hall hl.2, fun hall hmem => hall ⟨nofun, hmem⟩⟩
    | copied =>
      show Disposed (only h) ((makeRoom .copied h).1 ++ fragmentFrame a h.next) ↔ _
      have hrun : Disposed (only h) ((makeRoom .copied h).1 ++ fragmentFrame a h.next) ↔
          Disposed (only h.next) (fragmentFrame a h.next) := by
        unfold Disposed
        rw [run_copied]
      rw [hrun, disposed_fragmentFrame]
      exact ⟨fun hall hl => hall hl.2, fun hall hmem => hall ⟨nofun, hmem⟩⟩
    | failed =>
      show Disposed (only h) ((makeRoom .failed h).1 ++ []) ↔ _
      refine iff_of_true ⟨fun _ => false, ?_, fun _ => rfl⟩ fun hl => absurd rfl (hl.1 rfl)
      rw [run_failed]
      rfl

/-! ## Aggregates -/

section Aggregates

variable {n k : Nat}

theorem queued_self (hk : k < n) : queued n k ⟨k, 0⟩ = true :=
  decide_eq_true ⟨rfl, Nat.le_refl k, hk⟩

theorem update_queued (n k : Nat) : Function.update (queued n k) ⟨k, 0⟩ false = queued n (k + 1) := by
  funext x
  by_cases hx : x = ⟨k, 0⟩
  · rw [hx, Function.update_self]
    exact (decide_eq_false fun h => absurd h.2.1 (Nat.not_succ_le_self k)).symm
  · rw [Function.update_of_ne hx]
    unfold queued
    refine decide_eq_decide.mpr ⟨fun h => ⟨h.1, ?_, h.2.2⟩, fun h => ⟨h.1, ?_, h.2.2⟩⟩
    · refine Nat.lt_of_le_of_ne h.2.1 fun heq => hx ?_
      obtain ⟨packet, copy⟩ := x
      exact congrArg₂ Handle.mk heq.symm h.1
    · exact Nat.le_of_succ_le h.2.1

theorem queued_all (n : Nat) : queued n n = fun _ => false := by
  funext x
  exact decide_eq_false fun h => absurd h.2.2 (Nat.not_lt_of_le h.2.1)

theorem queued_one : queued 1 0 = only ⟨0, 0⟩ := by
  funext x
  obtain ⟨packet, copy⟩ := x
  unfold queued only
  refine decide_eq_decide.mpr ⟨fun h => ?_, fun h => ?_⟩
  · exact congrArg₂ Handle.mk (Nat.lt_one_iff.mp h.2.2) h.1
  · obtain ⟨rfl, rfl⟩ := Handle.mk.inj h
    decide

theorem run_writeTxResource (takes : Bool) (hk : k < n) (as : Acts) :
    run (queued n k) (writeTxResource takes ⟨k, 0⟩ ++ as) = run (queued n (k + 1)) as := by
  have hrelease : run (queued n k) (.release (some ⟨k, 0⟩) :: as) = run (queued n (k + 1)) as := by
    rw [run_release (queued_self hk), update_queued]
  cases takes with
  | false => exact hrelease
  | true => exact (run_touch (queued_self hk) _).trans hrelease

theorem run_amsduTurn (a : Answers) (hk : k < n) (as : Acts) :
    run (queued n k) (amsduTurn a ⟨k, 0⟩ ++ as) = run (queued n (k + 1)) as :=
  (run_touch (queued_self hk) _).trans
    ((run_touch (queued_self hk) _).trans (run_writeTxResource _ hk as))

theorem run_aralinkTurn (a : Answers) (hn : 1 < n) (hk : k < n) (as : Acts) :
    run (queued n k) (aralinkTurn n a ⟨k, 0⟩ ++ as) = run (queued n (k + 1)) as := by
  have hrest : run (queued n k) (.touch (some ⟨k, 0⟩) :: (writeTxResource (a.takes k) ⟨k, 0⟩ ++ as))
      = run (queued n (k + 1)) as :=
    (run_touch (queued_self hk) _).trans (run_writeTxResource _ hk as)
  unfold aralinkTurn
  refine (run_touch (queued_self hk) _).trans ?_
  by_cases hzero : k = 0
  · have hnext : queued n k ⟨1, 0⟩ = true := decide_eq_true ⟨rfl, by omega, hn⟩
    rw [if_pos (show (⟨k, 0⟩ : Handle).packet = 0 from hzero), if_pos hn]
    exact (run_touch hnext _).trans hrest
  · rw [if_neg (show ¬ (⟨k, 0⟩ : Handle).packet = 0 from hzero)]
    exact hrest

/-- **All packets of an aggregate**, one turn for each. -/
theorem run_turns {turn : Nat → Acts}
    (hturn : ∀ k < n, ∀ as, run (queued n k) (turn k ++ as) = run (queued n (k + 1)) as)
    (m : Nat) (hk : k + m = n) :
    run (queued n k) ((List.range' k m).flatMap turn) = some (queued n n) := by
  induction m generalizing k with
  | zero =>
    obtain rfl : k = n := hk
    rfl
  | succ m ih =>
    rw [List.range'_succ, List.flatMap_cons, hturn k (by omega)]
    exact ih (by omega)

theorem disposed_turns {turn : Nat → Acts}
    (hturn : ∀ k < n, ∀ as, run (queued n k) (turn k ++ as) = run (queued n (k + 1)) as) :
    Disposed (queued n 0) ((List.range n).flatMap turn) := by
  refine ⟨queued n n, ?_, fun h => congrFun (queued_all n) h⟩
  rw [List.range_eq_range']
  exact run_turns hturn n (Nat.zero_add n)

end Aggregates

/-! ## Every batch -/

/-- When the packets of a batch are disposed of. -/
structure Clear (answers : Nat → Answers) (b : Batch) : Prop where
  expands : b.TxFrameType ≠ .amsdu → b.TxFrameType ≠ .ralink → (answers 0).swEncrypt = true →
    (answers 0).expand ≠ .failed
  fragments : b.TxFrameType = .frag → Loops (answers 0) →
    ∀ j < (answers 0).lastFrag, (answers 0).takes j = true

/-- A batch has one packet, or is an aggregate of more. -/
theorem formBatch_shape (r : Round) (p : QueuedPacket) (rest : List QueuedPacket) :
    ((formBatch r p rest).1.TxPacketList.length = 1 ∧ (formBatch r p rest).1.TxFrameType ≠ .amsdu ∧
        (formBatch r p rest).1.TxFrameType ≠ .ralink) ∨
      (1 < (formBatch r p rest).1.TxPacketList.length ∧
        ((formBatch r p rest).1.TxFrameType = .amsdu ∨
          (formBatch r p rest).1.TxFrameType = .ralink)) := by
  unfold formBatch
  dsimp only
  by_cases hty : txPktClassification r p = .ralink ∨ txPktClassification r p = .amsdu
  · rw [if_pos hty]
    generalize (addAggregates r (txPktClassification r p) (BitVec.ofNat 16 p.len) 1 rest).1 = taken
    cases taken with
    | nil =>
      rw [if_pos rfl]
      exact Or.inl ⟨rfl, nofun, nofun⟩
    | cons p' taken =>
      rw [if_neg nofun]
      exact Or.inr ⟨Nat.succ_lt_succ (Nat.succ_pos _), hty.symm⟩
  · rw [if_neg hty]
    exact Or.inl ⟨rfl, fun h => hty (Or.inr h), fun h => hty (Or.inl h)⟩

theorem disposed_single (answers : Nat → Answers) {b : Batch} (hlen : b.TxPacketList.length = 1)
    (hamsdu : b.TxFrameType ≠ .amsdu) (hralink : b.TxFrameType ≠ .ralink) :
    Disposed (queued b.TxPacketList.length 0) (staHardTransmit answers b) ↔ Clear answers b := by
  have hone : ∀ as, Disposed (only ⟨0, 0⟩) (.touch (some ⟨0, 0⟩) :: as) ↔ Disposed (only ⟨0, 0⟩) as :=
    fun as => disposed_only_touch as
  have hlegacy := disposed_staLegacyFrameTx (answers 0) ⟨0, 0⟩
  unfold staHardTransmit
  dsimp only
  rw [hlen, queued_one, if_neg Nat.one_ne_zero, hone]
  obtain ⟨ty, ps⟩ := b
  cases ty with
  | amsdu => exact absurd rfl hamsdu
  | ralink => exact absurd rfl hralink
  | legacy => exact hlegacy.trans ⟨fun h => ⟨fun _ _ => h, nofun⟩, fun h => h.expands nofun nofun⟩
  | mcast => exact hlegacy.trans ⟨fun h => ⟨fun _ _ => h, nofun⟩, fun h => h.expands nofun nofun⟩
  | ampdu =>
    show Disposed _ (staLegacyFrameTx (answers 0) ⟨0, 0⟩ ++ []) ↔ _
    rw [List.append_nil]
    exact hlegacy.trans ⟨fun h => ⟨fun _ _ => h, nofun⟩, fun h => h.expands nofun nofun⟩
  | frag =>
    refine (disposed_staFragmentFrameTx (answers 0) ⟨0, 0⟩).trans ⟨fun h => ?_, fun h => ?_⟩
    · exact ⟨fun _ _ => h.1, fun _ => h.2⟩
    · exact ⟨h.expands nofun nofun, h.fragments rfl⟩

theorem disposed_aggregate (answers : Nat → Answers) {b : Batch} (hlen : 1 < b.TxPacketList.length)
    (hty : b.TxFrameType = .amsdu ∨ b.TxFrameType = .ralink) :
    Disposed (queued b.TxPacketList.length 0) (staHardTransmit answers b) := by
  have hfirst : ∀ as, Disposed (queued b.TxPacketList.length 0) (.touch (some ⟨0, 0⟩) :: as) ↔
      Disposed (queued b.TxPacketList.length 0) as := by
    intro as
    unfold Disposed
    rw [run_touch (queued_self (by omega))]
  unfold staHardTransmit
  dsimp only
  rw [if_neg (by omega), hfirst]
  rcases hty with hty | hty
  · rw [hty]
    exact disposed_turns fun k hk as => run_amsduTurn _ hk as
  · rw [hty]
    exact disposed_turns fun k hk as => run_aralinkTurn _ hlen hk as

/-- **The packets of a batch** that is taken off the queue. -/
theorem disposed_formBatch (answers : Nat → Answers) (r : Round) (p : QueuedPacket)
    (rest : List QueuedPacket) :
    Disposed (queued (formBatch r p rest).1.TxPacketList.length 0)
        (staHardTransmit answers (formBatch r p rest).1) ↔ Clear answers (formBatch r p rest).1 := by
  rcases formBatch_shape r p rest with ⟨hlen, hamsdu, hralink⟩ | ⟨hlen, hty⟩
  · exact disposed_single answers hlen hamsdu hralink
  · refine iff_of_true (disposed_aggregate answers hlen hty) ⟨fun ha hr => ?_, fun hf => ?_⟩
    · rcases hty with h | h
      · exact absurd h ha
      · exact absurd h hr
    · rw [hf] at hty
      rcases hty with h | h <;> cases h

/-! ## In terms of single acts -/

/-- No packet of the batch comes to be on the way; copies do. -/
def Fresh (as : Acts) : Prop := ∀ k, .alloc ⟨k, 0⟩ ∉ as

section Fresh

theorem fresh_nil : Fresh [] := fun _ => List.not_mem_nil

theorem fresh_cons {a : Act Handle} {as : Acts} (ha : ∀ k, .alloc ⟨k, 0⟩ ≠ a) (h : Fresh as) :
    Fresh (a :: as) := by
  intro k hk
  rcases List.mem_cons.mp hk with heq | hk
  · exact ha k heq
  · exact h k hk

theorem fresh_touch {h : Option Handle} {as : Acts} (has : Fresh as) : Fresh (.touch h :: as) :=
  fresh_cons nofun has

theorem fresh_release {h : Option Handle} {as : Acts} (has : Fresh as) : Fresh (.release h :: as) :=
  fresh_cons nofun has

theorem fresh_append {as bs : Acts} (ha : Fresh as) (hb : Fresh bs) : Fresh (as ++ bs) := by
  intro k hk
  rcases List.mem_append.mp hk with hk | hk
  · exact ha k hk
  · exact hb k hk

theorem fresh_flatMap {turn : Nat → Acts} (h : ∀ k, Fresh (turn k)) (ks : List Nat) :
    Fresh (ks.flatMap turn) := by
  intro k hk
  obtain ⟨j, -, hj⟩ := List.mem_flatMap.mp hk
  exact h j k hj

theorem fresh_ite {P : Prop} [Decidable P] {as bs : Acts} (ha : Fresh as) (hb : Fresh bs) :
    Fresh (if P then as else bs) := by
  split
  · exact ha
  · exact hb

theorem fresh_makeRoom (room : Room) (h : Handle) : Fresh (makeRoom room h).1 := by
  cases room with
  | enough => exact fresh_touch fresh_nil
  | failed => exact fresh_touch (fresh_release fresh_nil)
  | copied =>
    refine fresh_touch (fresh_cons (fun k heq => ?_) (fresh_release fresh_nil))
    have hcopy := congrArg Handle.copy (Act.alloc.inj heq)
    exact Nat.succ_ne_zero h.copy hcopy.symm

theorem fresh_afterExpand (a : Answers) (h : Handle) {k : Handle → Acts} (hk : ∀ h, Fresh (k h)) :
    Fresh (afterExpand (expandForSwEncrypt a h) k) := by
  have hacts : Fresh (expandForSwEncrypt a h).1 := by
    unfold expandForSwEncrypt
    split
    · exact fresh_makeRoom _ h
    · exact fresh_nil
  unfold afterExpand
  refine fresh_append hacts ?_
  split
  · exact fresh_release fresh_nil
  · exact hk _

theorem fresh_writeTxResource (takes : Bool) (h : Handle) : Fresh (writeTxResource takes h) :=
  fresh_append (fresh_ite (fresh_touch fresh_nil) fresh_nil) (fresh_release fresh_nil)

theorem fresh_staLegacyFrameTx (a : Answers) (h : Handle) : Fresh (staLegacyFrameTx a h) :=
  fresh_append (fresh_touch fresh_nil)
    (fresh_afterExpand a h fun h => fresh_touch (fresh_writeTxResource _ h))

theorem fresh_fragmentFrame (a : Answers) (h : Handle) : Fresh (fragmentFrame a h) := by
  have hturn : ∀ fragNum, Fresh (fragmentTurn a h fragNum) := fun fragNum =>
    fresh_append (fresh_ite (fresh_touch fresh_nil) fresh_nil)
      (fresh_ite (fresh_touch (fresh_ite (fresh_release fresh_nil) fresh_nil))
        (fresh_release fresh_nil))
  exact fresh_touch (fresh_ite (fresh_release fresh_nil) (fresh_flatMap hturn _))

theorem fresh_staFragmentFrameTx (a : Answers) (h : Handle) : Fresh (staFragmentFrameTx a h) := by
  refine fresh_append (fresh_touch fresh_nil) (fresh_afterExpand a h fun h => ?_)
  refine fresh_ite (fresh_append (fresh_makeRoom _ h) ?_) (fresh_fragmentFrame a h)
  split
  · exact fresh_nil
  · exact fresh_fragmentFrame a _

theorem fresh_staHardTransmit (answers : Nat → Answers) (b : Batch) :
    Fresh (staHardTransmit answers b) := by
  unfold staHardTransmit
  refine fresh_ite fresh_nil (fresh_touch ?_)
  split
  · exact fresh_flatMap (fun k => fresh_staLegacyFrameTx _ _) _
  · exact fresh_flatMap (fun k => fresh_touch (fresh_touch (fresh_writeTxResource _ _))) _
  · refine fresh_flatMap (fun k => fresh_append (fresh_append (fresh_touch fresh_nil) ?_)
      (fresh_touch (fresh_writeTxResource _ _))) _
    exact fresh_ite (fresh_touch fresh_nil) fresh_nil
  · exact fresh_staLegacyFrameTx _ _
  · exact fresh_staLegacyFrameTx _ _
  · exact fresh_staFragmentFrameTx _ _

end Fresh

/-- **Released once**: every packet of the batch, and every copy that takes the place of one; a
released packet is not mentioned again, and no pointer is NULL. -/
structure ReleasedOnce (n : Nat) (as : Acts) : Prop where
  disposed : Disposed (queued n 0) as
  once : ∀ k < n, as.count (.release (some ⟨k, 0⟩)) = 1
  notAfter : ∀ bs k cs, as = bs ++ .release (some ⟨k, 0⟩) :: cs → ∀ c ∈ cs, c.handle ≠ some ⟨k, 0⟩
  notNull : ∀ a ∈ as, a.handle ≠ none

theorem releasedOnce_iff {n : Nat} {as : Acts} (hfresh : Fresh as) :
    ReleasedOnce n as ↔ Disposed (queued n 0) as := by
  refine ⟨ReleasedOnce.disposed, fun h => ⟨h, fun k hk => ?_, fun bs k cs heq => ?_, h.not_null⟩⟩
  · exact h.once (decide_eq_true ⟨rfl, Nat.zero_le k, hk⟩) (hfresh k)
  · rw [heq] at h hfresh
    exact h.not_after fun hk =>
      hfresh k (List.mem_append_right bs (List.mem_cons_of_mem _ hk))

theorem releasedOnce_formBatch (answers : Nat → Answers) (r : Round) (p : QueuedPacket)
    (rest : List QueuedPacket) : ReleasedOnce (formBatch r p rest).1.TxPacketList.length
        (staHardTransmit answers (formBatch r p rest).1) ↔ Clear answers (formBatch r p rest).1 :=
  (releasedOnce_iff (fresh_staHardTransmit _ _)).trans (disposed_formBatch answers r p rest)

/-- **Transmitted packets are released once** exactly if their expansion does not fail and the ring
takes all fragments but the last. -/
theorem releasedOnce_iff_clear (answers : Nat → Answers) (r : Round) (p : QueuedPacket)
    (rest : List QueuedPacket) : ReleasedOnce (formBatch r p rest).1.TxPacketList.length
        (staHardTransmit answers (formBatch r p rest).1) ↔ Clear answers (formBatch r p rest).1 :=
  releasedOnce_formBatch answers r p rest

/-- The ring is full: nothing is taken of two fragments. -/
def ringFull : Answers where
  swEncrypt := false
  tkip := false
  expand := .enough
  duplicate := .enough
  memory := true
  lastFrag := 1
  lastFrag_lt := by decide
  takes _ := false

/-- A packet of two fragments. -/
def twoFragments : QueuedPacket where
  bytes := List.replicate 600 0
  header := by rw [List.length_replicate]; decide
  mcast := false
  vlan := false
  dhcp := false
  eapol := false
  wai := false
  Wcid := 1
  UserPriority := 0
  TxRate := 11
  Fragments := 2
  MoreData := false
  mcast_eq := rfl

/-- **A full ring** releases a packet of two fragments twice. -/
theorem releasedOnce_broken : ¬ ∀ (answers : Nat → Answers) (r : Round) (p : QueuedPacket)
    (rest : List QueuedPacket), ReleasedOnce (formBatch r p rest).1.TxPacketList.length
      (staHardTransmit answers (formBatch r p rest).1) := by
  intro h
  have hclear := (releasedOnce_formBatch _ _ _ _).mp (h (fun _ => ringFull) alone twoFragments [])
  have htakes := hclear.fragments rfl ⟨nofun, nofun⟩ 0 (by decide)
  exact Bool.noConfusion htakes

end ExtDrv.Rt3370.HardTransmit
