import ExtDrv.Rt3370.RateSwitchRuns

/-!
# Rates of different peers

The loops over the MAC table keep locals from one peer to the next. What a peer gets from the
one-second routine goes by itself alone, but for direct-link peers behind another one; the fast
routine ends with the first peer that has few transmissions. A peer that goes by itself climbs to
the last entry of its table if all is acknowledged.
-/

namespace ExtDrv.Rt3370.RateSwitch

open Run Sweep

/-! ## The one-second routine -/

theorem mem_slots {i : Nat} : i ∈ slots ↔ 1 ≤ i ∧ i < 32 := by
  simp [slots, List.mem_range'_1]

/-- The slots before a slot, and those behind it. -/
theorem slots_split {i : Nat} (hi : i ∈ slots) :
    slots = List.range' 1 (i - 1) ++ i :: List.range' (i + 1) (31 - i) := by
  have hrange := mem_slots.mp hi
  have hcons : i :: List.range' (i + 1) (31 - i) = List.range' (1 + (i - 1)) (31 - i + 1) := by
    rw [List.range'_succ, Nat.add_sub_cancel' hrange.1]
  rw [hcons, List.range'_append_1]
  unfold slots
  congr 1
  omega

theorem mem_before {i j : Nat} (hi : i ∈ slots) :
    j ∈ List.range' 1 (i - 1) ↔ j ∈ slots ∧ j < i := by
  have hrange := mem_slots.mp hi
  rw [mem_slots, List.mem_range'_1]
  omega

section Split

variable {turn : Carry → Nat → Entry → Carry × Entry} {w : Carry} {content : Nat → Entry} {i : Nat}

/-- An entry after a loop: its own turn, behind those of the slots before it. -/
theorem sweep_slot (hi : i ∈ slots) : (sweep turn slots w content).2 i
    = (turn (sweep turn (List.range' 1 (i - 1)) w content).1 i (content i)).2 := by
  have hsplit := slots_split hi
  have hnodup := slots_nodup
  rw [hsplit] at hnodup
  rw [hsplit]
  exact sweep_split hnodup

theorem before_nodup (i : Nat) : (List.range' 1 (i - 1)).Nodup := List.nodup_range'

end Split

section Dynamic

variable {behind : Behind} {c : Config} {hw : TxStaCnt} {select : Select} {w w' : Carry} {i : Nat}
  {e : Entry} {content : Nat → Entry}

theorem dynamicTurn_new (h : takesPart c e = true) :
    (dynamicTurn behind c hw select w i e).2 = (store behind c w.shared (select i e) e
      (dynamicDecide behind c hw (select i e) (dynamicRssi c i e)
        (w.counts.next hw (dynamicHardware c e) e.rate) w.neighbours e.HTPhyMode.MCS e.rate)).2 := by
  rw [dynamicTurn, if_pos h]
  rfl

theorem dynamicTurn_rate (h : takesPart c e = true) :
    (dynamicTurn behind c hw select w i e).2.rate
      = (dynamicDecide behind c hw (select i e) (dynamicRssi c i e)
        (w.counts.next hw (dynamicHardware c e) e.rate) w.neighbours e.HTPhyMode.MCS e.rate).rate := by
  rw [dynamicTurn_new h, store_rate]

/-- A decision goes by the neighbours of its own index, and by the error ratio only if there are
transmissions enough. -/
theorem dynamicDecide_congr {t : Table} {Rssi : Int} {l l' : Counts} {n n' : Neighbours}
    {MCS : BitVec 7} {r : RateState} (htotal : l'.TxTotalCnt = l.TxTotalCnt)
    (hratio : ¬ l.TxTotalCnt ≤ 15 → l'.TxErrorRatio = l.TxErrorRatio) :
    dynamicDecide behind c hw t Rssi l' n' MCS r = dynamicDecide behind c hw t Rssi l n MCS r := by
  have hsize := t.size_bounds
  have hnext : n'.next (currRateIdx t r) t.size = n.next (currRateIdx t r) t.size := by
    have hlt : currRateIdx t r < t.size := currRateIdx_lt
    unfold Neighbours.next
    split
    · rfl
    · split
      · rfl
      · rw [if_pos (by omega), if_pos (by omega)]
  unfold dynamicDecide
  simp only [hnext, htotal]
  by_cases hfew : l.TxTotalCnt ≤ 15
  · simp only [if_pos hfew]
  · simp only [if_neg hfew, hratio hfew]

/-- The counts of a turn go by those carried on only for the total, and that only if the counters
are the hardware's. -/
theorem Counts.next_congr (hw : TxStaCnt) {l l' : Counts} {hardware : Bool} {r : RateState}
    (h : hardware = true → l'.TxTotalCnt = l.TxTotalCnt) :
    (l'.next hw hardware r).TxTotalCnt = (l.next hw hardware r).TxTotalCnt ∧
      ((l.next hw hardware r).TxTotalCnt ≠ 0 →
        (l'.next hw hardware r).TxErrorRatio = (l.next hw hardware r).TxErrorRatio) := by
  unfold Counts.next
  cases hardware with
  | true =>
      have htotal := h rfl
      rw [if_pos rfl, if_pos rfl, htotal]
      split
      · exact ⟨rfl, fun _ => rfl⟩
      · rename_i hzero
        exact ⟨htotal, fun hne => absurd hne hzero⟩
  | false =>
      simp only [Bool.false_eq_true, if_false]
      split
      · exact ⟨rfl, fun _ => rfl⟩
      · rename_i hzero
        exact ⟨rfl, fun hne => absurd hne hzero⟩

theorem dynamicTurn_rate_congr
    (h : dynamicHardware c e = true → w'.counts.TxTotalCnt = w.counts.TxTotalCnt) :
    (dynamicTurn behind c hw select w' i e).2.rate
      = (dynamicTurn behind c hw select w i e).2.rate := by
  cases hpart : takesPart c e with
  | false => simp [dynamicTurn, hpart]
  | true =>
      obtain ⟨htotal, hratio⟩ := Counts.next_congr hw (r := e.rate) h
      rw [dynamicTurn_rate hpart, dynamicTurn_rate hpart]
      congr 1
      apply dynamicDecide_congr htotal
      intro hmany
      apply hratio
      intro hzero
      apply hmany
      rw [hzero]
      decide

/-- The total that the one-second routine carries on. -/
def totalNext (c : Config) (total : BitVec 32) (e : Entry) : BitVec 32 :=
  if takesPart c e && !dynamicHardware c e then e.rate.total else total

theorem Counts.next_total (l : Counts) (hardware : Bool) (r : RateState) :
    (l.next hw hardware r).TxTotalCnt = if hardware then l.TxTotalCnt else r.total := by
  unfold Counts.next
  cases hardware <;> simp only [Bool.false_eq_true, if_false, if_true] <;> split <;> rfl

theorem dynamicTurn_total : (dynamicTurn behind c hw select w i e).1.counts.TxTotalCnt
    = totalNext c w.counts.TxTotalCnt e := by
  unfold totalNext
  cases hpart : takesPart c e with
  | false => simp [dynamicTurn, hpart]
  | true =>
      rw [dynamicTurn, if_pos hpart]
      show (w.counts.next hw (dynamicHardware c e) e.rate).TxTotalCnt = _
      rw [Counts.next_total]
      cases dynamicHardware c e <;> simp

theorem sweep_total (ks : List Nat) (hks : ks.Nodup) :
    (sweep (dynamicTurn behind c hw select) ks w content).1.counts.TxTotalCnt
      = ks.foldl (fun total k => totalNext c total (content k)) w.counts.TxTotalCnt :=
  sweep_carry (fun w : Carry => w.counts.TxTotalCnt) (fun total _ e => totalNext c total e)
    (fun _ _ _ => dynamicTurn_total) hks

/-- What the one-second routine leaves in a slot. -/
def afterSecond (behind : Behind) (c : Config) (hw : TxStaCnt) (a : Adapter) (i : Nat) : RateState :=
  ((mlmeDynamicTxRateSwitching behind c hw (ofTables c) a).1.content i).rate

/-- The kind of a peer, by which it takes part or not. -/
def SameKind (e e' : Entry) : Prop := e'.EntryType = e.EntryType ∧ e'.assoc = e.assoc

theorem takesPart_congr {e e' : Entry} (h : SameKind e e') : takesPart c e' = takesPart c e := by
  unfold takesPart rtmpCheckEntryEnableAutoRateSwitch
  rw [h.1, h.2]

theorem dynamicHardware_congr {e e' : Entry} (h : SameKind e e') :
    dynamicHardware c e' = dynamicHardware c e := by
  unfold dynamicHardware
  rw [h.1]

/-- A slot whose peer goes by itself: there are no turns, or not for it; or its counters are its own;
or those before it that take part go by the hardware's as well. -/
def Alone (c : Config) (kinds : Nat → Entry) (i : Nat) : Prop :=
  c.ateOn = true ∨ takesPart c (kinds i) = false ∨ dynamicHardware c (kinds i) = false ∨
    ∀ j ∈ slots, j < i → takesPart c (kinds j) = true → dynamicHardware c (kinds j) = true

theorem afterSecond_on {a : Adapter} (hate : c.ateOn = false) (hi : i ∈ slots) :
    afterSecond behind c hw a i = (dynamicTurn behind c hw (ofTables c)
      (sweep (dynamicTurn behind c hw (ofTables c)) (List.range' 1 (i - 1))
        (Carry.start a.shared hw) a.content).1 i (a.content i)).2.rate := by
  unfold afterSecond
  rw [mlmeDynamicTxRateSwitching_on hate]
  exact congrArg Entry.rate (sweep_slot hi)

theorem foldl_totalNext_hardware {ks : List Nat} {total : BitVec 32}
    (h : ∀ k ∈ ks, takesPart c (content k) = true → dynamicHardware c (content k) = true) :
    ks.foldl (fun total k => totalNext c total (content k)) total = total := by
  induction ks with
  | nil => rfl
  | cons k ks ih =>
      have hk : totalNext c total (content k) = total := by
        unfold totalNext
        cases hpart : takesPart c (content k) with
        | false => rfl
        | true => simp [h k List.mem_cons_self hpart]
      rw [List.foldl_cons, hk]
      exact ih fun k' hk' => h k' (List.mem_cons_of_mem _ hk')

theorem foldl_totalNext_own {ks : List Nat} {total v : BitVec 32}
    (hv : ∀ k ∈ ks, (content k).rate.total = v)
    (h : ∃ k ∈ ks, takesPart c (content k) = true ∧ dynamicHardware c (content k) = false) :
    ks.foldl (fun total k => totalNext c total (content k)) total = v := by
  have hkeep : ∀ (ks : List Nat), (∀ k ∈ ks, (content k).rate.total = v) →
      ks.foldl (fun total k => totalNext c total (content k)) v = v := by
    intro ks hv
    induction ks with
    | nil => rfl
    | cons k ks ih =>
        have hk : totalNext c v (content k) = v := by
          unfold totalNext
          rw [hv k List.mem_cons_self]
          split <;> rfl
        rw [List.foldl_cons, hk]
        exact ih fun k' hk' => hv k' (List.mem_cons_of_mem _ hk')
  induction ks generalizing total with
  | nil => simp at h
  | cons k ks ih =>
      have hv' : ∀ k' ∈ ks, (content k').rate.total = v :=
        fun k' hk' => hv k' (List.mem_cons_of_mem _ hk')
      rw [List.foldl_cons]
      by_cases hk : takesPart c (content k) = true ∧ dynamicHardware c (content k) = false
      · have hnext : totalNext c total (content k) = v := by
          simp [totalNext, hk.1, hk.2, hv k List.mem_cons_self]
        rw [hnext]
        exact hkeep ks hv'
      · apply ih hv'
        obtain ⟨k', hk', hown⟩ := h
        rcases List.mem_cons.mp hk' with rfl | hk'
        · exact absurd hown hk
        · exact ⟨k', hk', hown⟩

theorem afterSecond_alone {a a' : Adapter} (hi : i ∈ slots) (h : Alone c a.content i)
    (hkind : ∀ j, SameKind (a.content j) (a'.content j)) (hsame : a'.content i = a.content i) :
    afterSecond behind c hw a' i = afterSecond behind c hw a i := by
  cases hate : c.ateOn with
  | true =>
      unfold afterSecond
      rw [mlmeDynamicTxRateSwitching_off hate, mlmeDynamicTxRateSwitching_off hate, hsame]
  | false =>
      rw [afterSecond_on hate hi, afterSecond_on hate hi, hsame]
      cases hpart : takesPart c (a.content i) with
      | false => simp [dynamicTurn, hpart]
      | true =>
          apply dynamicTurn_rate_congr
          intro hhard
          have hbefore : ∀ j ∈ List.range' 1 (i - 1), takesPart c (a.content j) = true →
              dynamicHardware c (a.content j) = true := by
            intro j hj
            obtain ⟨hslot, hlt⟩ := (mem_before hi).mp hj
            rcases h with h | h | h | h
            · simp [hate] at h
            · simp [hpart] at h
            · simp [hhard] at h
            · exact h j hslot hlt
          rw [sweep_total _ (before_nodup i), sweep_total _ (before_nodup i),
            foldl_totalNext_hardware hbefore, foldl_totalNext_hardware]
          · rfl
          · intro j hj
            rw [takesPart_congr (hkind j), dynamicHardware_congr (hkind j)]
            exact hbefore j hj

@[simp] theorem RateState.weigh_flag (r : RateState) (ratio : BitVec 32) (up down : BitVec 8)
    (cur upIdx : Nat) :
    (r.weigh ratio up down cur upIdx).fLastSecAccordingRSSI = r.fLastSecAccordingRSSI := by
  simp only [RateState.weigh]
  repeat' split
  all_goals rfl

@[simp] theorem RateState.move_flag (r : RateState) (trains : Bool) (idx : Nat) (n : Neighbours) :
    (r.move trains idx n).fLastSecAccordingRSSI = r.fLastSecAccordingRSSI := by
  unfold RateState.move
  repeat' split
  all_goals rfl

@[simp] theorem RateState.settle_flag (r : RateState) (hw : TxStaCnt) (idx : Nat) :
    (r.settle hw idx).rate.fLastSecAccordingRSSI = r.fLastSecAccordingRSSI := by
  unfold RateState.settle
  repeat' split
  all_goals rfl

/-- A peer whose rate is that of its index notes whether it was decided on the signal. -/
theorem dynamicDecide_flag {t : Table} {Rssi : Int} {l : Counts} {n : Neighbours} {MCS : BitVec 7}
    {r : RateState} (hsync : MCS.toNat = (record behind t (currRateIdx t r)).CurrMCS.toNat)
    (hflag : r.fLastSecAccordingRSSI = false) :
    (dynamicDecide behind c hw t Rssi l n MCS r).rate.fLastSecAccordingRSSI
      = decide (l.TxTotalCnt ≤ 15) := by
  simp only [dynamicDecide, if_neg (not_not.mpr hsync)]
  by_cases hfew : l.TxTotalCnt ≤ 15
  · simp only [hfew, decide_true]
    rfl
  · simp only [hflag, hfew, decide_false, Bool.false_eq_true, if_false]
    rw [RateState.settle_flag, RateState.move_flag]
    exact (RateState.weigh_flag ..).trans rfl

/-- A peer of a kind, with `total` transmissions and in sync with the first entry of its table. -/
def fresh (behind : Behind) (c : Config) (kind : Entry) (total : BitVec 32) : Entry :=
  let e : Entry :=
    { EntryType := kind.EntryType, assoc := kind.assoc, RateLen := 0, MCSSet0 := 0, MCSSet1 := 0
      MCSSet2 := 0, sgi20Capable := false, sgi40Capable := false, RssiSample := ⟨0, 0, 0⟩
      HTPhyMode := ⟨0, false, false, 0, 0⟩
      rate := ⟨0, fun _ => 0, fun _ => 0, 0, 0, false, 0, 0, 0, total, 0, 0⟩ }
  { e with
    HTPhyMode := { e.HTPhyMode with
      MCS := (record behind (mlmeSelectTxRateTable c e) 0).CurrMCS.setWidth 7 } }

theorem fresh_total (kind : Entry) (total : BitVec 32) :
    (fresh behind c kind total).rate.total = total := by
  simp [fresh, RateState.total]

theorem fresh_sync (kind : Entry) (total : BitVec 32) :
    let e := fresh behind c kind total
    e.HTPhyMode.MCS.toNat = (record behind (mlmeSelectTxRateTable c e)
      (currRateIdx (mlmeSelectTxRateTable c e) e.rate)).CurrMCS.toNat := by
  intro e
  have hsize := (mlmeSelectTxRateTable c e).size_bounds
  have hidx : currRateIdx (mlmeSelectTxRateTable c e) e.rate = 0 :=
    currRateIdx_of_lt (show 0 < _ by omega)
  have hmcs : (record behind (mlmeSelectTxRateTable c e) 0).CurrMCS.toNat < 16 :=
    record_mcs behind (by omega)
  rw [hidx]
  show ((record behind (mlmeSelectTxRateTable c e) 0).CurrMCS.setWidth 7).toNat = _
  rw [BitVec.toNat_setWidth]
  omega

theorem fresh_flag {a : Adapter} {kind : Entry} {v : BitVec 32} (hate : c.ateOn = false)
    (hi : i ∈ slots) (hentry : a.content i = fresh behind c kind 0)
    (hpart : takesPart c kind = true) (hhard : dynamicHardware c kind = true)
    (htotal : (List.range' 1 (i - 1)).foldl (fun total k => totalNext c total (a.content k)) hw.total
      = v) : (afterSecond behind c hw a i).fLastSecAccordingRSSI = decide (v ≤ 15) := by
  have hkind : SameKind kind (fresh behind c kind 0) := ⟨rfl, rfl⟩
  rw [afterSecond_on hate hi, hentry, dynamicTurn_rate ((takesPart_congr hkind).trans hpart)]
  unfold ofTables
  rw [dynamicDecide_flag (fresh_sync kind 0) rfl, Counts.next_total, dynamicHardware_congr hkind, hhard,
    sweep_total _ (before_nodup i)]
  exact congrArg (fun total => decide (total ≤ 15)) htotal

theorem Alone.congr {kinds content : Nat → Entry} (hkind : ∀ j, SameKind (kinds j) (content j))
    (h : Alone c kinds i) : Alone c content i := by
  rcases h with h | h | h | h
  · exact Or.inl h
  · exact Or.inr (Or.inl ((takesPart_congr (hkind i)).trans h))
  · exact Or.inr (Or.inr (Or.inl ((dynamicHardware_congr (hkind i)).trans h)))
  · refine Or.inr (Or.inr (Or.inr fun j hj hlt hpart => ?_))
    rw [dynamicHardware_congr (hkind j)]
    exact h j hj hlt ((takesPart_congr (hkind j)).symm.trans hpart)

/-- **Peers do not interfere in the one-second routine, but for one case.** The rate state that a
slot is left with goes by the rate states of the others exactly if its peer is a direct-link one that goes by the
hardware's counters, behind another kind of peer that takes part. -/
theorem afterSecond_noninterference_iff {kinds : Nat → Entry} (hi : i ∈ slots) :
    (∀ a a' : Adapter, (∀ j, SameKind (kinds j) (a.content j)) →
      (∀ j, a'.content j = { a.content j with rate := (a'.content j).rate }) →
        a'.content i = a.content i → afterSecond behind c hw a' i = afterSecond behind c hw a i) ↔
      Alone c kinds i := by
  constructor
  · intro hall
    by_contra halone
    simp only [Alone, not_or, not_forall, Bool.not_eq_true, Bool.not_eq_false] at halone
    obtain ⟨hate, hpart, hhard, j, hj, hlt, hjpart, hjhard⟩ := halone
    let a (v : BitVec 32) : Adapter :=
      { shared := ⟨⟨0, false, false, 0, 0⟩, ⟨0, false, false, 0, 0⟩, 0, 0, 0, false⟩
        content := fun k => fresh behind c (kinds k) (if k = i then 0 else v) }
    have hflag : ∀ v, (afterSecond behind c hw (a v) i).fLastSecAccordingRSSI = decide (v ≤ 15) := by
      intro v
      apply fresh_flag hate hi (by simp [a]) hpart hhard
      apply foldl_totalNext_own
      · intro k hk
        have hne : k ≠ i := by
          have hbefore := (mem_before hi).mp hk
          omega
        simp [a, hne, fresh_total]
      · have hkind : SameKind (kinds j) ((a v).content j) := ⟨rfl, rfl⟩
        exact ⟨j, (mem_before hi).mpr ⟨hj, hlt⟩, (takesPart_congr hkind).trans hjpart,
          (dynamicHardware_congr hkind).trans hjhard⟩
    have hsame := hall (a 0) (a 100) (fun _ => ⟨rfl, rfl⟩) (fun _ => rfl) (by simp [a])
    have hflags := congrArg RateState.fLastSecAccordingRSSI hsame
    rw [hflag, hflag] at hflags
    exact absurd hflags (by decide)
  · intro halone a a' hkinds hrates hsame
    have hkind : ∀ j, SameKind (a.content j) (a'.content j) := by
      intro j
      rw [hrates j]
      exact ⟨rfl, rfl⟩
    exact afterSecond_alone hi (halone.congr hkinds) hkind hsame

/-- A first peer that had seven failures. -/
def failing : Entry := { accessPoint with rate := { accessPoint.rate with OneSecTxFailCount := 7 } }

/-- The second peer is left with the same, whatever became of what the first had sent. -/
theorem afterSecond_failing :
    afterSecond (fun _ _ => 0) station ⟨3, 40, 2⟩
        { associated with content := Function.update associated.content 1 failing } 2
      = afterSecond (fun _ _ => 0) station ⟨3, 40, 2⟩ associated 2 := by
  have hhard : dynamicHardware station accessPoint = true := by decide
  have halone : Alone station (fun _ => accessPoint) 2 :=
    Or.inr (Or.inr (Or.inr fun _ _ _ _ => hhard))
  apply (afterSecond_noninterference_iff (by decide)).mpr halone
  · exact fun _ => ⟨rfl, rfl⟩
  · intro j
    by_cases hj : j = 1
    · subst hj
      rfl
    · simp [Function.update_of_ne hj]
  · rfl

end Dynamic

/-! ## The fast routine -/

section Quick

variable {behind : Behind} {c : Config} {hw : TxStaCnt} {select : Select} {w : Carry} {i : Nat}
  {e : Entry} {content : Nat → Entry}

/-- The counts by which the fast routine goes for a peer. -/
def quickCounts (c : Config) (hw : TxStaCnt) (e : Entry) : Counts :=
  Counts.next hw (quickHardware c) ⟨hw.total, 0⟩ e.rate

/-- A peer that takes part, and ends the fast routine. -/
def endsQuick (c : Config) (hw : TxStaCnt) (e : Entry) : Bool :=
  takesPart c e && fewTransmissions (quickCounts c hw e)

/-- What the fast routine makes of a peer, from its own state. -/
def quickAlone (behind : Behind) (c : Config) (hw : TxStaCnt) (select : Select) (i : Nat)
    (e : Entry) : RateState :=
  (quickDecide behind hw (select i e) (quickRssi c i e) (quickCounts c hw e)
    (Neighbours.next ⟨0, 0⟩ e.rate.CurrTxRateIndex (select i e).size) e.rate).rate

theorem Neighbours.next_congr {idx size : Nat} (hsize : 2 ≤ size) (h : idx < size)
    (n n' : Neighbours) : n'.next idx size = n.next idx size := by
  unfold Neighbours.next
  split
  · rfl
  · split
    · rfl
    · rw [if_pos (by omega), if_pos (by omega)]

theorem quickDecide_congr {t : Table} {Rssi : Int} {l l' : Counts} {n : Neighbours} {r : RateState}
    (htotal : l'.TxTotalCnt = l.TxTotalCnt)
    (hratio : ¬ l.TxTotalCnt ≤ 12 → l'.TxErrorRatio = l.TxErrorRatio) :
    quickDecide behind hw t Rssi l' n r = quickDecide behind hw t Rssi l n r := by
  simp only [quickDecide, fewTransmissions, htotal]
  by_cases hfew : l.TxTotalCnt ≤ 12
  · simp only [hfew, decide_true, if_true]
  · rw [hratio hfew]
    rfl

/-- As long as the routine goes on, the total is that of the hardware where it goes by it. -/
def Straight (c : Config) (hw : TxStaCnt) (w : Carry) : Prop :=
  quickHardware c = true → w.counts.TxTotalCnt = hw.total

theorem quickTurn_straight (h : Straight c hw w) :
    Straight c hw (quickTurn behind c hw select w i e).1 := by
  intro hhard
  unfold quickTurn
  split
  · exact h hhard
  · split
    · show (w.counts.next hw (quickHardware c) e.rate).TxTotalCnt = _
      rw [Counts.next_total, hhard]
      exact h hhard
    · exact h hhard

theorem quickTurn_returns (h : Straight c hw w) :
    (quickTurn behind c hw select w i e).1.returned = (w.returned || endsQuick c hw e) := by
  have htotal := (Counts.next_congr hw (l := ⟨hw.total, 0⟩) (r := e.rate) h).1
  unfold endsQuick
  cases hret : w.returned with
  | true => simp [quickTurn, hret]
  | false =>
    cases hpart : takesPart c e with
    | false => simp [quickTurn, hpart, hret]
    | true =>
        rw [quickTurn, hret, if_neg (by simp), if_pos hpart]
        show fewTransmissions _ = fewTransmissions _
        unfold fewTransmissions
        rw [htotal]
        rfl

theorem sweep_quick (behind : Behind) (select : Select) (content : Nat → Entry) (ks : List Nat)
    (h : Straight c hw w) (hks : ks.Nodup) :
    Straight c hw (sweep (quickTurn behind c hw select) ks w content).1 ∧
      (sweep (quickTurn behind c hw select) ks w content).1.returned
        = (w.returned || ks.any fun k => endsQuick c hw (content k)) := by
  induction ks generalizing w content with
  | nil => simp [h]
  | cons k ks ih =>
      rw [List.nodup_cons] at hks
      refine ⟨(ih _ (quickTurn_straight h) hks.2).1, ?_⟩
      rw [sweep_cons, (ih _ (quickTurn_straight h) hks.2).2, quickTurn_returns h, List.any_cons, Bool.or_assoc]
      congr 2
      rw [Bool.eq_iff_iff, List.any_eq_true, List.any_eq_true]
      refine exists_congr fun k' => and_congr_right fun hk' => ?_
      have hne : k' ≠ k := fun heq => hks.1 (heq ▸ hk')
      rw [Function.update_of_ne hne]

/-- **The fast routine decides up to the first peer with few transmissions.** A peer whose index
fits, and before which none ends the routine, is left with what its own state alone gives; any other
keeps its rate state. -/
theorem quick_entry {a : Adapter} (hi : i ∈ slots)
    (hfit : (a.content i).rate.CurrTxRateIndex < (select i (a.content i)).size) :
    ((staQuickResponeForRateUpExec behind c hw select a).1.content i).rate
      = if takesPart c (a.content i) = true ∧ ∀ j ∈ slots, j < i → endsQuick c hw (a.content j) = false
        then quickAlone behind c hw select i (a.content i) else (a.content i).rate := by
  let s : Shared := { a.shared with StaQuickResponeForRateUpTimerRunning := false }
  have hstart : Straight c hw (Carry.start s hw) := fun _ => rfl
  obtain ⟨hstraight, hret⟩ := sweep_quick behind select a.content (List.range' 1 (i - 1)) hstart
    (before_nodup i)
  have hslot : (staQuickResponeForRateUpExec behind c hw select a).1.content i
      = (quickTurn behind c hw select (sweep (quickTurn behind c hw select) (List.range' 1 (i - 1))
          (Carry.start s hw) a.content).1 i (a.content i)).2 := sweep_slot hi
  rw [hslot]
  generalize (sweep (quickTurn behind c hw select) (List.range' 1 (i - 1)) (Carry.start s hw)
    a.content).1 = w at hstraight hret
  have hnone : w.returned = false ↔ ∀ j ∈ slots, j < i → endsQuick c hw (a.content j) = false := by
    rw [hret]
    simp [Carry.start, mem_before hi]
  by_cases hpass : takesPart c (a.content i) = true ∧
      ∀ j ∈ slots, j < i → endsQuick c hw (a.content j) = false
  · rw [if_pos hpass, quickTurn, hnone.mpr hpass.2, if_neg (by simp), if_pos hpass.1]
    have hsize := (select i (a.content i)).size_bounds
    obtain ⟨htotal, hratio⟩ := Counts.next_congr hw (l := ⟨hw.total, 0⟩)
      (r := (a.content i).rate) hstraight
    refine store_rate.trans ?_
    unfold quickAlone
    rw [Neighbours.next_congr (by omega) hfit ⟨0, 0⟩ w.neighbours]
    congr 1
    apply quickDecide_congr htotal
    intro hmany
    apply hratio
    intro hzero
    apply hmany
    rw [hzero]
    decide
  · rw [if_neg hpass]
    unfold quickTurn
    split
    · rfl
    · rename_i hgo
      split
      · rename_i hpart
        exact absurd ⟨hpart, hnone.mp (by simpa using hgo)⟩ hpass
      · rfl

/-- An access point whose last second went up. -/
def risen : Entry :=
  { accessPoint with rate := { accessPoint.rate with LastSecTxRateChangeAction := 1 } }

/-- It goes back when little was sent since. -/
theorem quick_entry_risen :
    ((staQuickResponeForRateUpExec (fun _ _ => 0) station ⟨0, 5, 0⟩ (ofTables station)
      { associated with content := fun _ => risen }).1.content 1).rate.CurrTxRateIndex = 11 := by
  rw [quick_entry (by decide) (by decide)]
  decide

end Quick

/-! ## Climbing -/

/-- A peer with the rate of its index, which is in the table, and no quality behind the worst. -/
structure Ready (behind : Behind) (t : Table) (e : Entry) : Prop where
  fits : e.rate.CurrTxRateIndex < t.size
  sync : e.HTPhyMode.MCS.toNat = (record behind t e.rate.CurrTxRateIndex).CurrMCS.toNat
  quality : ∀ k, (e.rate.TxQuality k).toNat ≤ 8

/-- How many good seconds it takes to the last entry at most: one if the rate was just decided on the
signal, those that pay off the penalty and the quality of the next rate, and one for each entry. -/
def toTop (t : Table) (r : RateState) : Nat :=
  if r.CurrTxRateIndex + 1 = t.size then 0
  else (if r.fLastSecAccordingRSSI then 1 else 0) + r.TxRateUpPenalty.toNat
    + (r.TxQuality (r.CurrTxRateIndex + 1)).toNat + (t.size - 1 - r.CurrTxRateIndex)

theorem record_trainDown (behind : Behind) {t : Table} {idx : Nat} (h : idx < t.size) :
    13 ≤ (record behind t idx).TrainDown.toNat ∧ (record behind t idx).TrainDown.toNat ≤ 101 := by
  rw [record_congr behind (fun _ _ => 0) h]
  have hall : ∀ k < t.size, 13 ≤ (record (fun _ _ => 0) t k).TrainDown.toNat ∧
      (record (fun _ _ => 0) t k).TrainDown.toNat ≤ 101 := by
    cases t <;> decide
  exact hall idx h

/-- No table calls an errorless second a bad one. -/
theorem train_pos (behind : Behind) {t : Table} {idx : Nat} (h : idx < t.size) (Rssi : Int) :
    ¬ (train Rssi (record behind t idx)).2.setWidth 32 ≤ (0 : BitVec 32) := by
  have hdown := record_trainDown behind h
  have hpos : 0 < (train Rssi (record behind t idx)).2.toNat := by
    unfold train
    split
    · simp [BitVec.toNat_add, Nat.shiftRight_eq_div_pow]
      omega
    · show 0 < (record behind t idx).TrainDown.toNat
      omega
  rw [BitVec.le_def, BitVec.toNat_setWidth]
  simp
  omega

section Climb

variable {behind : Behind} {c : Config} {hw : TxStaCnt} {t : Table} {i : Nat} {e : Entry}

theorem RateState.weigh_penalty {r : RateState} {ratio : BitVec 32} {up down : BitVec 8}
    {cur upIdx : Nat} (hdown : ¬ down.setWidth 32 ≤ ratio) (hup : ratio ≤ up.setWidth 32) :
    ((r.weigh ratio up down cur upIdx).TxRateUpPenalty).toNat = r.TxRateUpPenalty.toNat - 1 := by
  simp only [RateState.weigh, if_neg hdown, if_pos hup, RateState.lower_penalty]
  by_cases hpen : r.TxRateUpPenalty = 0
  · rw [if_neg (not_not.mpr hpen), RateState.lower_penalty, RateState.lower_penalty, hpen]
    rfl
  · have hne : r.TxRateUpPenalty.toNat ≠ 0 := fun heq => hpen (BitVec.eq_of_toNat_eq heq)
    have hlt := r.TxRateUpPenalty.isLt
    simp only [hpen, ne_eq, not_false_eq_true, if_true]
    rw [BitVec.toNat_sub]
    simp
    omega

/-- A rate state is one good second nearer to the last entry. -/
structure Nearer (t : Table) (r : RateState) (d : Decision) : Prop where
  quality : ∀ k, (d.rate.TxQuality k).toNat ≤ 8
  nearer : toTop t d.rate ≤ toTop t r - 1

theorem RateState.settle_same {r : RateState} {idx : Nat} (h : r.CurrTxRateIndex = idx)
    (hw : TxStaCnt) : (r.settle hw idx).set = none ∧
      (r.settle hw idx).rate.TxQuality = r.TxQuality ∧
      (r.settle hw idx).rate.CurrTxRateIndex = idx ∧
      (r.settle hw idx).rate.TxRateUpPenalty = r.TxRateUpPenalty := by
  unfold RateState.settle
  rw [if_neg (by omega), if_neg (by omega)]
  exact ⟨rfl, rfl, h, rfl⟩

theorem RateState.settle_up {r : RateState} {idx : Nat} (h : r.CurrTxRateIndex = idx + 1)
    (hw : TxStaCnt) :
      (r.settle hw idx).rate.TxQuality = r.clearHistory.TxQuality ∧
      (r.settle hw idx).rate.CurrTxRateIndex = idx + 1 ∧
      (r.settle hw idx).rate.TxRateUpPenalty = 0 := by
  unfold RateState.settle
  rw [if_pos (by omega)]
  exact ⟨rfl, h, rfl⟩

/-- What a rate that is not at its worst is left at. -/
theorem RateState.move_stay {r : RateState} {idx : Nat} {n : Neighbours}
    (hgood : ¬ drsTxQualityWorstBound ≤ r.TxQuality idx)
    (hup : idx = n.UpRateIdx ∨ r.TxQuality n.UpRateIdx ≠ 0) : r.move true idx n = r := by
  unfold RateState.move
  rw [if_pos rfl, if_neg (fun h => hgood h.2), if_neg]
  rintro ⟨hne, hle⟩
  rcases hup with heq | hnonzero
  · exact hne heq
  · exact hnonzero (BitVec.le_zero_iff.mp hle)

theorem RateState.move_up {r : RateState} {idx : Nat} {n : Neighbours}
    (hgood : ¬ drsTxQualityWorstBound ≤ r.TxQuality idx) (hne : idx ≠ n.UpRateIdx)
    (hzero : r.TxQuality n.UpRateIdx = 0) :
    r.move true idx n = { r with CurrTxRateIndex := n.UpRateIdx } := by
  unfold RateState.move
  rw [if_pos rfl, if_neg (fun h => hgood h.2), if_pos ⟨hne, by simp [hzero]⟩]

/-- Training in a good second: the next entry if its quality is paid off, and else one off. -/
theorem train_nearer (hw : TxStaCnt) (n : Neighbours) (per up : BitVec 8) {down : BitVec 8}
    {r : RateState}
    (hfit : r.CurrTxRateIndex < t.size) (hflag : r.fLastSecAccordingRSSI = false)
    (hquality : ∀ k, (r.TxQuality k).toNat ≤ 8) (hdown : ¬ down.setWidth 32 ≤ (0 : BitVec 32)) :
    Nearer t r ((((r.weigh 0 up down r.CurrTxRateIndex
        (n.next r.CurrTxRateIndex t.size).UpRateIdx).setPER r.CurrTxRateIndex per).move
      true r.CurrTxRateIndex (n.next r.CurrTxRateIndex t.size)).settle hw r.CurrTxRateIndex) := by
  have hsize := t.size_bounds
  have hup : (0 : BitVec 32) ≤ up.setWidth 32 := by simp [BitVec.le_def]
  generalize hn : n.next r.CurrTxRateIndex t.size = n'
  generalize hr' : (r.weigh 0 up down r.CurrTxRateIndex n'.UpRateIdx).setPER r.CurrTxRateIndex per
    = r'
  have hq : ∀ k, (r'.TxQuality k).toNat = (r.TxQuality k).toNat
      - (if k = r.CurrTxRateIndex then 1 else 0)
      - if k = n'.UpRateIdx ∧ r.TxRateUpPenalty = 0 then 1 else 0 := by
    intro k
    rw [← hr']
    exact RateState.weigh_quality hdown hup k
  have hp : r'.TxRateUpPenalty.toNat = r.TxRateUpPenalty.toNat - 1 := by
    rw [← hr']
    exact RateState.weigh_penalty hdown hup
  have hidx : r'.CurrTxRateIndex = r.CurrTxRateIndex := by simp [← hr']
  have hflag' : r'.fLastSecAccordingRSSI = false := by
    rw [← hr']
    exact (RateState.weigh_flag ..).trans hflag
  have hbound : ∀ k, (r'.TxQuality k).toNat ≤ 8 := by
    intro k
    have hk := hq k
    have hk' := hquality k
    omega
  have hgood : ¬ drsTxQualityWorstBound ≤ r'.TxQuality r.CurrTxRateIndex := by
    rw [BitVec.le_def, hq, if_pos rfl]
    have hcur := hquality r.CurrTxRateIndex
    show ¬ 8 ≤ _
    omega
  by_cases htop : r.CurrTxRateIndex + 1 = t.size
  -- at the last entry
  · have hup' : n'.UpRateIdx = r.CurrTxRateIndex := by
      rw [← hn, Neighbours.next, if_neg (by omega), if_neg (by omega), if_pos (by omega)]
    rw [RateState.move_stay hgood (Or.inl hup'.symm)]
    obtain ⟨-, hquality', hidx', -⟩ := RateState.settle_same hidx hw
    constructor
    · rw [hquality']
      exact hbound
    · unfold toTop
      rw [hidx', if_pos htop]
      omega
  · have hup' : n'.UpRateIdx = r.CurrTxRateIndex + 1 := by
      rw [← hn, Neighbours.next]
      split
      · rfl
      · rw [if_pos (by omega)]
    have hfar : toTop t r = r.TxRateUpPenalty.toNat
        + (r.TxQuality (r.CurrTxRateIndex + 1)).toNat + (t.size - 1 - r.CurrTxRateIndex) := by
      simp [toTop, if_neg htop, hflag]
    by_cases hzero : r'.TxQuality (r.CurrTxRateIndex + 1) = 0
    -- one entry up, with a clean history
    · rw [RateState.move_up hgood (by omega) (by rw [hup']; exact hzero), hup']
      obtain ⟨hquality', hidx', hpen'⟩ := RateState.settle_up
        (r := { r' with CurrTxRateIndex := r.CurrTxRateIndex + 1 }) rfl hw
      constructor
      · rw [hquality']
        intro k
        simp only [RateState.clearHistory]
        split
        · simp
        · exact hbound k
      · rw [hfar]
        unfold toTop
        rw [hidx', hpen', hquality', RateState.settle_flag]
        simp only [hflag', RateState.clearHistory, maxStepOfTxRateSwitch]
        have hin : r.CurrTxRateIndex + 1 + 1 < 32 := by omega
        split
        · omega
        · simp [hin]
          omega
    -- one off what is to be paid
    · rw [RateState.move_stay hgood (Or.inr (by rwa [hup']))]
      obtain ⟨-, hquality', hidx', hpen'⟩ := RateState.settle_same hidx hw
      constructor
      · rw [hquality']
        exact hbound
      · rw [hfar]
        unfold toTop
        rw [hidx', hpen', hquality', RateState.settle_flag, if_neg htop, hflag', hp, hq, hup']
        have hpaid : (r'.TxQuality (r.CurrTxRateIndex + 1)).toNat ≠ 0 :=
          fun heq => hzero (BitVec.eq_of_toNat_eq heq)
        rw [hq, hup'] at hpaid
        by_cases hpen : r.TxRateUpPenalty = 0
        · simp [hpen] at hpaid ⊢
          omega
        · have hne : r.TxRateUpPenalty.toNat ≠ 0 := fun heq => hpen (BitVec.eq_of_toNat_eq heq)
          simp only [hpen, and_false, if_false, Bool.false_eq_true]
          omega

theorem dynamicDecide_nearer {Rssi : Int} {l : Counts} {n : Neighbours} (h : Ready behind t e)
    (hmany : ¬ l.TxTotalCnt ≤ 15) (hratio : l.TxErrorRatio = 0) :
    Nearer t e.rate (dynamicDecide behind c hw t Rssi l n e.HTPhyMode.MCS e.rate) := by
  simp only [dynamicDecide, currRateIdx_of_lt h.fits, if_neg (not_not.mpr h.sync), if_neg hmany,
    hratio]
  by_cases hflag : e.rate.fLastSecAccordingRSSI = true
  · rw [if_pos hflag]
    constructor
    · exact h.quality
    · by_cases htop : e.rate.CurrTxRateIndex + 1 = t.size
      · simp [toTop, RateState.resetOneSecTxCnt, htop]
      · simp [toTop, RateState.resetOneSecTxCnt, htop, hflag]
        omega
  · rw [if_neg hflag]
    have htrain : decide ((train Rssi (record behind t e.rate.CurrTxRateIndex)).2.setWidth 32
        ≤ (0 : BitVec 32) ∨ 0 ≤ (train Rssi (record behind t e.rate.CurrTxRateIndex)).1.setWidth 32)
        = true := by simp [BitVec.le_def]
    rw [htrain]
    have hnearer := train_nearer hw n ((0 : BitVec 32).setWidth 8)
      (train Rssi (record behind t e.rate.CurrTxRateIndex)).1 (r := { e.rate with
        LastTimeTxRateChangeAction := e.rate.LastSecTxRateChangeAction
        CurrTxRateStableTime := e.rate.CurrTxRateStableTime + 1 }) h.fits (by simpa using hflag)
      h.quality (train_pos behind h.fits Rssi)
    exact ⟨hnearer.quality, hnearer.nearer⟩

/-- Enough was sent in the second, and all of it acknowledged at once: by the hardware's counters if
there is one peer, and else by the peer's own. -/
def Good (c : Config) (hw : TxStaCnt) (e : Entry) : Prop :=
  c.macTabSize = 1 ∧ hw.TxRetransmit = 0 ∧ hw.TxFailCount = 0 ∧ 15 < hw.TxSuccess ∨
    dynamicHardware c e = false ∧ e.rate.OneSecTxRetryOkCount = 0 ∧ e.rate.OneSecTxFailCount = 0 ∧
      15 < e.rate.OneSecTxNoRetryOkCount

theorem Good.counts {l : Counts} (h : Good c hw e)
    (hl : c.macTabSize = 1 → l.TxTotalCnt = hw.total) :
    ¬ (l.next hw (dynamicHardware c e) e.rate).TxTotalCnt ≤ 15 ∧
      (l.next hw (dynamicHardware c e) e.rate).TxErrorRatio = 0 := by
  rcases h with ⟨hsize, hretry, hfail, hok⟩ | ⟨hown, hretry, hfail, hok⟩
  · have hhard : dynamicHardware c e = true := by simp [dynamicHardware, hsize]
    have htotal : hw.total = hw.TxSuccess.setWidth 32 := by simp [TxStaCnt.total, hretry, hfail]
    have hmany : ¬ hw.TxSuccess.setWidth 32 ≤ (15 : BitVec 32) := by
      rw [BitVec.lt_def] at hok
      simp [BitVec.le_def] at hok ⊢
      omega
    have hne : hw.TxSuccess.setWidth 32 ≠ (0 : BitVec 32) := by
      intro hzero
      exact hmany (by simp [hzero])
    simp only [Counts.next, hhard, if_true, hl hsize, htotal, if_pos hne, hretry, hfail]
    exact ⟨hmany, by simp⟩
  · have htotal : e.rate.total = e.rate.OneSecTxNoRetryOkCount := by
      simp [RateState.total, hretry, hfail]
    have hmany : ¬ e.rate.OneSecTxNoRetryOkCount ≤ 15 := BitVec.not_le.mpr hok
    have hne : e.rate.OneSecTxNoRetryOkCount ≠ 0 := by
      intro hzero
      exact hmany (by simp [hzero])
    simp only [Counts.next, hown, Bool.false_eq_true, if_false, htotal, if_pos hne, hretry, hfail]
    exact ⟨hmany, by simp⟩

theorem store_of_none {s : Shared} {d : Decision} (h : d.set = none) :
    (store behind c s t e d).2 = { e with rate := d.rate } := by
  unfold store
  rw [h]

theorem dynamicTurn_climbs {select : Select} {w : Carry} (h : Ready behind t e)
    (hpart : takesPart c e = true) (hsel : select i e = t) (hgood : Good c hw e)
    (hw' : c.macTabSize = 1 → w.counts.TxTotalCnt = hw.total) :
    Ready behind t (dynamicTurn behind c hw select w i e).2 ∧
      toTop t (dynamicTurn behind c hw select w i e).2.rate ≤ toTop t e.rate - 1 := by
  obtain ⟨hmany, hratio⟩ := hgood.counts hw'
  rw [dynamicTurn_new hpart, hsel, store_rate]
  generalize hd : dynamicDecide behind c hw t (dynamicRssi c i e)
    (w.counts.next hw (dynamicHardware c e) e.rate) w.neighbours e.HTPhyMode.MCS e.rate = d
  have hnearer : Nearer t e.rate d := hd ▸ dynamicDecide_nearer h hmany hratio
  have hsteps : d.Steps t.size e.rate.CurrTxRateIndex (Chosen behind c t (dynamicRssi c i e)) :=
    hd ▸ dynamicDecide_steps h.fits
  refine ⟨?_, hnearer.nearer⟩
  constructor
  · rw [store_rate]
    exact hsteps.fits
  · rw [store_rate]
    rcases hsteps.set with hset | ⟨hnone, hsame⟩
    · exact store_mcs hset hsteps.fits
    · rw [store_of_none hnone, hsame]
      exact h.sync
  · rw [store_rate]
    exact hnearer.quality

/-- An operation between two good seconds of a peer: the one-second routine, or what leaves its rate
alone but for the counters. -/
def Op.GoodFor (t : Table) (i : Nat) (a : Adapter) : Op → Prop
  | .dynamic c hw select => c.ateOn = false ∧ takesPart c (a.content i) = true ∧
      select i (a.content i) = t ∧ Good c hw (a.content i)
  | .quick .. => False
  | .others a' => (a'.content i).HTPhyMode.MCS = (a.content i).HTPhyMode.MCS ∧
      (a'.content i).rate = { (a.content i).rate with
        OneSecTxNoRetryOkCount := (a'.content i).rate.OneSecTxNoRetryOkCount
        OneSecTxRetryOkCount := (a'.content i).rate.OneSecTxRetryOkCount
        OneSecTxFailCount := (a'.content i).rate.OneSecTxFailCount }

def Op.isSecond : Op → Bool
  | .dynamic .. => true
  | .quick .. | .others _ => false

theorem step_climbs {a : Adapter} {op : Op} (hi : i ∈ slots) (h : Ready behind t (a.content i))
    (hop : op.GoodFor t i a) : Ready behind t ((step behind a op).content i) ∧
      toTop t ((step behind a op).content i).rate
        ≤ toTop t (a.content i).rate - if op.isSecond then 1 else 0 := by
  cases op with
  | quick c hw select => exact hop.elim
  | others a' =>
      obtain ⟨hmcs, hrate⟩ := hop
      have hidx := congrArg RateState.CurrTxRateIndex hrate
      have hquality := congrArg RateState.TxQuality hrate
      have hpenalty := congrArg RateState.TxRateUpPenalty hrate
      have hflag := congrArg RateState.fLastSecAccordingRSSI hrate
      show Ready behind t (a'.content i) ∧ toTop t (a'.content i).rate ≤ toTop t (a.content i).rate - 0
      refine ⟨⟨?_, ?_, ?_⟩, ?_⟩
      · rw [hidx]
        exact h.fits
      · rw [hmcs, hidx]
        exact h.sync
      · rw [hquality]
        exact h.quality
      · unfold toTop
        rw [hidx, hquality, hpenalty, hflag]
        exact Nat.le_refl _
  | dynamic c hw select =>
      obtain ⟨hate, hpart, hsel, hgood⟩ := hop
      have hrun : (step behind a (.dynamic c hw select)).content i
          = (dynamicTurn behind c hw select (sweep (dynamicTurn behind c hw select)
            (List.range' 1 (i - 1)) (Carry.start a.shared hw) a.content).1 i (a.content i)).2 := by
        show (mlmeDynamicTxRateSwitching behind c hw select a).1.content i = _
        rw [mlmeDynamicTxRateSwitching_on hate]
        exact sweep_slot hi
      rw [hrun]
      apply dynamicTurn_climbs h hpart hsel hgood
      intro hsize
      rw [sweep_total _ (before_nodup i), foldl_totalNext_hardware]
      · rfl
      · intro k _ _
        simp [dynamicHardware, hsize]

/-- **Good seconds lead to the last entry.** A peer in step with its table that has as many good
seconds as it takes, with nothing else done to its rate, is sent to at the last rate of the table. -/
theorem climbs {a : Adapter} {ops : List Op} (hi : i ∈ slots) (h : Ready behind t (a.content i))
    (hops : Along (step behind) (Op.GoodFor t i) a ops)
    (hlong : toTop t (a.content i).rate ≤ ops.countP Op.isSecond) :
    ((exec (step behind) a ops).content i).rate.CurrTxRateIndex = t.size - 1 ∧
      ((exec (step behind) a ops).content i).HTPhyMode.MCS.toNat
        = (record behind t (t.size - 1)).CurrMCS.toNat := by
  have hend : Ready behind t ((exec (step behind) a ops).content i) ∧
      toTop t ((exec (step behind) a ops).content i).rate = 0 := by
    induction ops generalizing a with
    | nil => exact ⟨h, Nat.le_zero.mp hlong⟩
    | cons op ops ih =>
        obtain ⟨hready, hnearer⟩ := step_climbs hi h hops.1
        apply ih hready hops.2
        rw [List.countP_cons] at hlong
        cases hsecond : op.isSecond with
        | true =>
            rw [hsecond, if_pos rfl] at hnearer hlong
            omega
        | false =>
            rw [hsecond, if_neg (by simp)] at hnearer hlong
            omega
  have hfits := hend.1.fits
  have htop : ((exec (step behind) a ops).content i).rate.CurrTxRateIndex = t.size - 1 := by
    have hzero := hend.2
    unfold toTop at hzero
    split at hzero <;> omega
  refine ⟨htop, ?_⟩
  rw [← htop]
  exact hend.1.sync

end Climb

/-- The access point is one entry from the last. -/
theorem climbs_associated :
    ((exec (step fun _ _ => 0) associated [.dynamic station ⟨0, 100, 0⟩ (ofTables station)]).content
      1).rate.CurrTxRateIndex = 13 := by
  have hready : Ready (fun _ _ => 0) .rateSwitchTable11BGN2S (associated.content 1) :=
    ⟨by decide, by decide, fun _ => show 0 ≤ 8 by omega⟩
  have hgood : Op.GoodFor .rateSwitchTable11BGN2S 1 associated
      (.dynamic station ⟨0, 100, 0⟩ (ofTables station)) :=
    ⟨rfl, by decide, by decide, Or.inl ⟨rfl, rfl, rfl, by decide⟩⟩
  have hgoods : Along (step fun _ _ => 0) (Op.GoodFor .rateSwitchTable11BGN2S 1) associated
      [.dynamic station ⟨0, 100, 0⟩ (ofTables station)] := ⟨hgood, trivial⟩
  exact (climbs (by decide) hready hgoods (by decide)).1

end ExtDrv.Rt3370.RateSwitch
