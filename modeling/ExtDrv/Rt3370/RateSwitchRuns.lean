import ExtDrv.Lib.Run
import ExtDrv.Rt3370.RateSwitch

/-!
# Rate switching stays in its tables

A peer's index is made for one table and used on the one that is selected now. As long as it fits,
a turn reads records of the table alone, and leaves an index that fits.
-/

namespace ExtDrv.Rt3370.RateSwitch

open Run Sweep

/-! ## The tables -/

theorem Table.size_bounds (t : Table) : 4 ≤ t.size ∧ t.size ≤ 17 := by
  cases t <;> decide

theorem Table.initTxRateIdx_lt (t : Table) : t.initTxRateIdx < t.size := by
  cases t <;> decide

set_option maxRecDepth 1000 in
theorem Table.size_le_length (t : Table) : (t.size + 1) * 5 ≤ t.bytes.length := by
  cases t <;> decide

section Record

variable {behind behind' : Behind} {t : Table} {idx : Nat}

/-- A record of the table is the same whatever stands behind it. -/
theorem record_congr (behind behind' : Behind) (h : idx < t.size) :
    record behind t idx = record behind' t idx := by
  have hlen := t.size_le_length
  have hbyte : ∀ k < 5, t.bytes.getD ((idx + 1) * 5 + k) (behind t ((idx + 1) * 5 + k))
      = t.bytes.getD ((idx + 1) * 5 + k) (behind' t ((idx + 1) * 5 + k)) := by
    intro k hk
    have hin : (idx + 1) * 5 + k < t.bytes.length := by omega
    simp [List.getElem?_eq_getElem hin]
  unfold record
  rw [hbyte 1 (by omega), hbyte 2 (by omega), hbyte 3 (by omega), hbyte 4 (by omega)]
  congr 1
  exact hbyte 0 (by omega)

/-- Every rate of a table has a MCS, none is `MCS_AUTO`. -/
theorem record_mcs (behind : Behind) (h : idx < t.size) :
    (record behind t idx).CurrMCS.toNat < 16 := by
  rw [record_congr behind (fun _ _ => 0) h]
  have hall : ∀ k < t.size, (record (fun _ _ => 0) t k).CurrMCS.toNat < 16 := by
    cases t <;> decide
  exact hall idx h

theorem mcsIdx_lt (mcs : BitVec 8) : mcsIdx behind t mcs < t.size := by
  have hfold : ∀ (p : Nat → Prop) [DecidablePred p] (l : List Nat) (found : Nat),
      found < t.size → (∀ k ∈ l, k < t.size) →
        l.foldl (fun found k => if p k then k else found) found < t.size := by
    intro p _ l
    induction l with
    | nil => exact fun _ h _ => h
    | cons k l ih =>
        intro found hfound hl
        apply ih
        · show (if p k then k else found) < t.size
          split
          · exact hl k List.mem_cons_self
          · exact hfound
        · exact fun k' hk' => hl k' (List.mem_cons_of_mem _ hk')
  have hsize := t.size_bounds
  exact hfold _ _ 0 (by omega) (by simp)

theorem firstFit_lt {enough : Int → Bool} {otherwise : Nat} (h : otherwise < t.size)
    (l : List (BitVec 8 × Int)) : firstFit behind t enough otherwise l < t.size := by
  induction l with
  | nil => exact h
  | cons x l ih =>
      unfold firstFit
      split
      · exact mcsIdx_lt _
      · exact ih

/-- The rate that goes by the signal is one of the table. -/
theorem txRateIdxByRssi_lt (behind : Behind) (c : Config) (t : Table) (Rssi : Int) :
    txRateIdxByRssi behind c t Rssi < t.size := by
  unfold txRateIdxByRssi
  cases t <;> dsimp only <;> apply firstFit_lt <;> (try split) <;>
    first | exact mcsIdx_lt _ | exact firstFit_lt (mcsIdx_lt _) _

theorem mcsIdx_congr (behind behind' : Behind) (mcs : BitVec 8) :
    mcsIdx behind t mcs = mcsIdx behind' t mcs := by
  unfold mcsIdx
  apply List.foldl_ext
  intro found k hk
  rw [record_congr behind behind' (List.mem_range.mp hk)]

/-- The MCS of a list stand in the table one below the other, and above entry `otherwise`. -/
def Descends (behind : Behind) (t : Table) (otherwise : Nat) (l : List (BitVec 8 × Int)) : Prop :=
  l.Pairwise (fun x y => mcsIdx behind t x.1 ≠ 0 → mcsIdx behind t y.1 ≤ mcsIdx behind t x.1) ∧
    ∀ x ∈ l, mcsIdx behind t x.1 ≠ 0 → otherwise ≤ mcsIdx behind t x.1

instance (behind : Behind) (t : Table) (otherwise : Nat) (l : List (BitVec 8 × Int)) :
    Decidable (Descends behind t otherwise l) := inferInstanceAs (Decidable (_ ∧ _))

/-- The tables themselves tell, whatever stands behind them. -/
theorem Descends.of_zero {otherwise : Nat} {l : List (BitVec 8 × Int)}
    (h : Descends (fun _ _ => 0) t otherwise l) : Descends behind t otherwise l := by
  unfold Descends
  simp only [mcsIdx_congr behind fun _ _ => 0]
  exact h

theorem Descends.mono {o o' : Nat} {l : List (BitVec 8 × Int)} (h : Descends behind t o' l)
    (ho : o ≤ o') : Descends behind t o l :=
  ⟨h.1, fun x hx hidx => Nat.le_trans ho (h.2 x hx hidx)⟩

theorem firstFit_le {enough : Int → Bool} {otherwise b : Nat} (ho : otherwise ≤ b)
    {l : List (BitVec 8 × Int)} (hl : ∀ x ∈ l, mcsIdx behind t x.1 ≤ b) :
    firstFit behind t enough otherwise l ≤ b := by
  induction l with
  | nil => exact ho
  | cons x l ih =>
      unfold firstFit
      split
      · exact hl x List.mem_cons_self
      · exact ih fun y hy => hl y (List.mem_cons_of_mem _ hy)

theorem firstFit_mono {enough enough' : Int → Bool} {otherwise otherwise' : Nat}
    (he : ∀ bound, enough bound = true → enough' bound = true) (ho : otherwise ≤ otherwise')
    {l : List (BitVec 8 × Int)} (hl : Descends behind t otherwise l) :
    firstFit behind t enough otherwise l ≤ firstFit behind t enough' otherwise' l := by
  induction l with
  | nil => exact ho
  | cons x l ih =>
      have hrest := ih ⟨hl.1.of_cons, fun y hy => hl.2 y (List.mem_cons_of_mem _ hy)⟩
      unfold firstFit
      by_cases hidx : mcsIdx behind t x.1 = 0
      · simpa [hidx] using hrest
      · by_cases hfit' : enough' x.2 = true
        · have hbelow : firstFit behind t enough otherwise l ≤ mcsIdx behind t x.1 :=
            firstFit_le (hl.2 x List.mem_cons_self hidx)
              fun y hy => List.rel_of_pairwise_cons hl.1 hy hidx
          simp only [hfit', Bool.and_true, decide_eq_true_eq, hidx, ne_eq, not_false_eq_true, if_true]
          split
          · exact Nat.le_refl _
          · exact hbelow
        · have hfit : ¬ enough x.2 = true := fun h => hfit' (he _ h)
          simpa [hfit, hfit'] using hrest

/-- The choice in the tables of legacy rates, where the one below MCS 4 is another choice. -/
theorem slow_mono {enough enough' : Int → Bool} {l : List (BitVec 8 × Int)} {o high : Nat}
    {outer : List (BitVec 8 × Int)}
    (he : ∀ bound, enough bound = true → enough' bound = true)
    (hl : Descends behind t o l) (ho : o ≤ high) (hhigh : ∀ x ∈ l, mcsIdx behind t x.1 ≤ high)
    (houter : Descends behind t high outer) (p : Prop) [Decidable p] :
    firstFit behind t enough (if p then high else firstFit behind t enough o l) outer ≤
      firstFit behind t enough' (if p then high else firstFit behind t enough' o l) outer := by
  apply firstFit_mono he
  · split
    · exact Nat.le_refl _
    · exact firstFit_mono he (Nat.le_refl _) hl
  · apply houter.mono
    split
    · exact Nat.le_refl _
    · exact firstFit_le ho hhigh

/-- **More signal, no slower a rate.** -/
theorem txRateIdxByRssi_mono (c : Config) {Rssi Rssi' : Int} (h : Rssi ≤ Rssi') :
    txRateIdxByRssi behind c t Rssi ≤ txRateIdxByRssi behind c t Rssi' := by
  have hge : ∀ offset bound : Int, decide (bound + offset ≤ Rssi) = true →
      decide (bound + offset ≤ Rssi') = true := by
    intro offset bound
    simp
    omega
  have hgt : ∀ offset bound : Int, decide (bound + offset < Rssi) = true →
      decide (bound + offset < Rssi') = true := by
    intro offset bound
    simp
    omega
  have hlegacy : ∀ bound : Int, decide (bound < Rssi) = true → decide (bound < Rssi') = true := by
    intro bound
    simp
    omega
  have hzero : ∀ mcs, mcsIdx behind t mcs = mcsIdx (fun _ _ => 0) t mcs := fun mcs => mcsIdx_congr behind _ mcs
  unfold txRateIdxByRssi
  rw [hzero 0, hzero 3]
  cases t with
  | rateSwitchTable11N2S | rateSwitchTable11N2SForABand | rateSwitchTable11BGN2S
  | rateSwitchTable11BGN2SForABand =>
      exact firstFit_mono (hge _) (Nat.le_refl _) (.of_zero (by decide))
  | rateSwitchTable11N1S | rateSwitchTable11BGN1S =>
      exact firstFit_mono (hgt _) (Nat.le_refl _) (.of_zero (by decide))
  | rateSwitchTable | rateSwitchTable11B | rateSwitchTable11BG | rateSwitchTable11G =>
      exact slow_mono hlegacy (.of_zero (by decide)) (by decide)
        (by simp only [hzero]; decide) (.of_zero (by decide)) _
end Record

/-! ## Where the index goes -/

@[simp] theorem RateState.setQuality_idx (r : RateState) (k : Nat) (q : BitVec 16) :
    (r.setQuality k q).CurrTxRateIndex = r.CurrTxRateIndex := rfl

@[simp] theorem RateState.setPER_idx (r : RateState) (k : Nat) (p : BitVec 8) :
    (r.setPER k p).CurrTxRateIndex = r.CurrTxRateIndex := rfl

@[simp] theorem RateState.clearHistory_idx (r : RateState) :
    r.clearHistory.CurrTxRateIndex = r.CurrTxRateIndex := rfl

@[simp] theorem RateState.resetOneSecTxCnt_idx (r : RateState) :
    r.resetOneSecTxCnt.CurrTxRateIndex = r.CurrTxRateIndex := rfl

@[simp] theorem RateState.weigh_idx (r : RateState) (ratio : BitVec 32) (up down : BitVec 8)
    (cur upIdx : Nat) : (r.weigh ratio up down cur upIdx).CurrTxRateIndex = r.CurrTxRateIndex := by
  simp only [RateState.weigh]
  repeat' split
  all_goals rfl

/-- At most one entry away. -/
def Near (idx idx' : Nat) : Prop := idx' = idx ∨ idx' = idx + 1 ∨ idx' + 1 = idx

/-- The neighbours of an entry of a table. -/
structure Neighbours.Beside (l : Neighbours) (idx size : Nat) : Prop where
  up : Near idx l.UpRateIdx
  up_lt : l.UpRateIdx < size
  down : Near idx l.DownRateIdx
  down_lt : l.DownRateIdx < size

theorem Neighbours.next_beside (l : Neighbours) {idx size : Nat} (hsize : 2 ≤ size)
    (h : idx < size) : (l.next idx size).Beside idx size := by
  unfold Neighbours.next
  split
  · constructor <;> dsimp only [Near] <;> omega
  · split
    · constructor <;> dsimp only [Near] <;> omega
    · rw [if_pos (by omega)]
      constructor <;> dsimp only [Near] <;> omega

/-- What a decision on an index in the table may do: it reads records of the table, goes to the
next entry up or down or to a chosen one, and sets the rate whenever the index changes. -/
structure Decision.Steps (size idx : Nat) (chosen : Nat → Prop) (d : Decision) : Prop where
  reads : ∀ k ∈ d.reads, k < size
  fits : d.rate.CurrTxRateIndex < size
  moves : Near idx d.rate.CurrTxRateIndex ∨ chosen d.rate.CurrTxRateIndex
  set : d.set = some d.rate.CurrTxRateIndex ∨ d.set = none ∧ d.rate.CurrTxRateIndex = idx

section Steps

variable {r : RateState} {idx size : Nat} {chosen : Nat → Prop} {l : Neighbours}

theorem RateState.move_idx (hl : l.Beside idx size) (hidx : r.CurrTxRateIndex = idx)
    (h : idx < size) (train : Bool) :
    Near idx (r.move train idx l).CurrTxRateIndex ∧ (r.move train idx l).CurrTxRateIndex < size := by
  unfold RateState.move
  split
  · split
    · exact ⟨hl.down, hl.down_lt⟩
    · split
      · exact ⟨hl.up, hl.up_lt⟩
      · exact ⟨Or.inl hidx, hidx ▸ h⟩
  · exact ⟨Or.inl hidx, hidx ▸ h⟩

/-- A turn that sets the rate of the entry it comes to. -/
theorem Decision.steps_of_set {d : Decision} (hreads : d.reads = [idx, d.rate.CurrTxRateIndex])
    (hset : d.set = some d.rate.CurrTxRateIndex) (hfit : d.rate.CurrTxRateIndex < size)
    (hmoves : Near idx d.rate.CurrTxRateIndex ∨ chosen d.rate.CurrTxRateIndex) (h : idx < size) :
    d.Steps size idx chosen where
  reads := by simp [hreads, h, hfit]
  fits := hfit
  moves := hmoves
  set := Or.inl hset

/-- A turn that leaves it. -/
theorem Decision.steps_of_kept {d : Decision} (hreads : d.reads = [idx]) (hset : d.set = none)
    (hsame : d.rate.CurrTxRateIndex = idx) (h : idx < size) : d.Steps size idx chosen where
  reads := by simp [hreads, h]
  fits := hsame ▸ h
  moves := Or.inl (Or.inl hsame)
  set := Or.inr ⟨hset, hsame⟩

theorem RateState.settle_steps (hnear : Near idx r.CurrTxRateIndex) (hfit : r.CurrTxRateIndex < size)
    (h : idx < size) (hw : TxStaCnt) : (r.settle hw idx).Steps size idx chosen := by
  unfold RateState.settle
  split
  · exact Decision.steps_of_set rfl rfl hfit (Or.inl hnear) h
  · split
    · exact Decision.steps_of_set rfl rfl hfit (Or.inl hnear) h
    · have hsame : r.CurrTxRateIndex = idx := by omega
      exact Decision.steps_of_kept rfl rfl hsame h

theorem RateState.settleQuick_steps (hnear : Near idx r.CurrTxRateIndex)
    (hfit : r.CurrTxRateIndex < size) (h : idx < size) :
    (r.settleQuick idx).Steps size idx chosen := by
  unfold RateState.settleQuick
  split
  · exact Decision.steps_of_set rfl rfl hfit (Or.inl hnear) h
  · split
    · exact Decision.steps_of_set rfl rfl hfit (Or.inl hnear) h
    · have hsame : r.CurrTxRateIndex = idx := by omega
      exact Decision.steps_of_kept rfl rfl hsame h

theorem RateState.trainBack_idx (hl : l.Beside idx size) (hidx : r.CurrTxRateIndex = idx)
    (h : idx < size) :
    Near idx (r.trainBack idx l).CurrTxRateIndex ∧ (r.trainBack idx l).CurrTxRateIndex < size := by
  unfold RateState.trainBack
  split
  · exact ⟨hl.down, hl.down_lt⟩
  · split
    · exact ⟨hl.up, hl.up_lt⟩
    · exact ⟨Or.inl hidx, hidx ▸ h⟩

theorem RateState.reconsider_idx (hl : l.Beside idx size) (hidx : r.CurrTxRateIndex = idx)
    (h : idx < size) (hw : TxStaCnt) (ratio : BitVec 32) (down : BitVec 8) :
    Near idx (r.reconsider hw ratio down idx l).CurrTxRateIndex ∧
      (r.reconsider hw ratio down idx l).CurrTxRateIndex < size := by
  have hstay : ∀ r' : RateState, r'.CurrTxRateIndex = r.CurrTxRateIndex →
      Near idx r'.CurrTxRateIndex ∧ r'.CurrTxRateIndex < size := by
    intro r' hr'
    rw [hr', hidx]
    exact ⟨Or.inl rfl, h⟩
  simp only [RateState.reconsider]
  repeat' split
  all_goals first
    | exact ⟨hl.down, hl.down_lt⟩
    | exact ⟨hl.up, hl.up_lt⟩
    | exact hstay _ rfl

end Steps

section Decide

variable {behind : Behind} {c : Config} {hw : TxStaCnt} {t : Table} {Rssi : Int} {l : Counts}
  {n : Neighbours} {MCS : BitVec 7} {r : RateState}

theorem currRateIdx_lt : currRateIdx t r < t.size := by
  have hsize := t.size_bounds
  unfold currRateIdx
  split <;> omega

theorem currRateIdx_of_lt (h : r.CurrTxRateIndex < t.size) : currRateIdx t r = r.CurrTxRateIndex :=
  if_neg (by omega)

/-- The entries the one-second routine may go to without regard to where it is. -/
def Chosen (behind : Behind) (c : Config) (t : Table) (Rssi : Int) (idx : Nat) : Prop :=
  idx = t.initTxRateIdx ∨ idx = txRateIdxByRssi behind c t Rssi

theorem dynamicDecide_steps (h : r.CurrTxRateIndex < t.size) :
    (dynamicDecide behind c hw t Rssi l n MCS r).Steps t.size r.CurrTxRateIndex
      (Chosen behind c t Rssi) := by
  have hsize := t.size_bounds
  simp only [dynamicDecide, currRateIdx_of_lt h]
  split
  -- out of step with the rate in use
  · exact Decision.steps_of_set rfl rfl t.initTxRateIdx_lt (Or.inr (Or.inl rfl)) h
  · split
    · constructor
      · simp [h]
        intro k hk
        rcases hk with hk | rfl
        · exact hk
        · exact txRateIdxByRssi_lt behind c t Rssi
      · exact txRateIdxByRssi_lt behind c t Rssi
      · exact Or.inr (Or.inr rfl)
      · exact Or.inl rfl
    · split
      · exact Decision.steps_of_kept rfl rfl rfl h
      · have hl := n.next_beside (by omega) h
        have hmove : ∀ r' : RateState, r'.CurrTxRateIndex = r.CurrTxRateIndex → ∀ train,
            Near r.CurrTxRateIndex (r'.move train r.CurrTxRateIndex _).CurrTxRateIndex ∧ _ :=
          fun r' hr' train => RateState.move_idx hl hr' h train
        exact RateState.settle_steps (hmove _ (by simp) _).1 (hmove _ (by simp) _).2 h hw

theorem quickDecide_steps (h : r.CurrTxRateIndex < t.size)
    (hn : n.Beside r.CurrTxRateIndex t.size) :
    (quickDecide behind hw t Rssi l n r).Steps t.size r.CurrTxRateIndex (fun _ => False) := by
  simp only [quickDecide]
  split
  · have hback := RateState.trainBack_idx (r := r.clearHistory) hn rfl h
    exact Decision.steps_of_set rfl rfl hback.2 (Or.inl hback.1) h
  · have hidx := RateState.reconsider_idx hn rfl h hw l.TxErrorRatio
    exact RateState.settleQuick_steps (hidx _).1 (hidx _).2 h

/-- Whether a turn of the one-second routine is to go down from the last entry. -/
def GoesDown (behind : Behind) (t : Table) (Rssi : Int) (l : Counts) (r : RateState) : Prop :=
  let (TrainUp, TrainDown) := train Rssi (record behind t (t.size - 1))
  TrainDown.setWidth 32 ≤ l.TxErrorRatio ∨ l.TxErrorRatio ≤ TrainUp.setWidth 32 ∧
    (if r.TxRateUpPenalty ≠ 0 then 9 else 10) ≤ r.TxQuality (t.size - 1)

theorem RateState.settle_reads (r : RateState) (hw : TxStaCnt) {idx size : Nat} (h : idx < size) :
    (∀ k ∈ (r.settle hw idx).reads, k < size) ↔ r.CurrTxRateIndex < size := by
  unfold RateState.settle
  split
  · simp [h]
  · split
    · simp [h]
    · simp [h]
      omega

/-- The quality of one rate is improved. -/
theorem RateState.lower_quality (r : RateState) (j k : Nat) :
    ((if r.TxQuality j ≠ 0 then r.setQuality j (r.TxQuality j - 1) else r).TxQuality k).toNat
      = (r.TxQuality k).toNat - if k = j then 1 else 0 := by
  by_cases hkj : k = j
  · subst hkj
    split
    · rename_i hq
      have hne : (r.TxQuality k).toNat ≠ 0 := fun heq => hq (BitVec.eq_of_toNat_eq heq)
      have hlt := (r.TxQuality k).isLt
      simp [RateState.setQuality, BitVec.toNat_sub]
      omega
    · rename_i hq
      simp [not_not.mp hq]
  · rw [if_neg hkj]
    split
    · simp [RateState.setQuality, hkj]
    · rfl

theorem RateState.lower_penalty (r : RateState) (j : Nat) :
    (if r.TxQuality j ≠ 0 then r.setQuality j (r.TxQuality j - 1) else r).TxRateUpPenalty
      = r.TxRateUpPenalty := by
  split <;> rfl

section Weigh

variable {ratio : BitVec 32} {up down : BitVec 8} {cur upIdx : Nat}

theorem RateState.weigh_quality (hdown : ¬ down.setWidth 32 ≤ ratio) (hup : ratio ≤ up.setWidth 32)
    (k : Nat) : ((r.weigh ratio up down cur upIdx).TxQuality k).toNat
      = (r.TxQuality k).toNat - (if k = cur then 1 else 0)
        - if k = upIdx ∧ r.TxRateUpPenalty = 0 then 1 else 0 := by
  simp only [RateState.weigh, if_neg hdown, if_pos hup, RateState.lower_penalty]
  by_cases hpen : r.TxRateUpPenalty = 0
  · simp only [hpen, ne_eq, not_true_eq_false, if_false, and_true]
    rw [← RateState.lower_quality, ← RateState.lower_quality]
  · simp only [hpen, ne_eq, not_false_eq_true, if_true, and_false, if_false]
    exact RateState.lower_quality r cur k

theorem RateState.weigh_worst (hdown : down.setWidth 32 ≤ ratio) :
    (r.weigh ratio up down cur upIdx).TxQuality cur = drsTxQualityWorstBound := by
  simp [RateState.weigh, hdown, RateState.setQuality]

end Weigh

/-- From the last entry of a table there is only down. -/
theorem RateState.move_last (r : RateState) (trains : Bool) {size : Nat} (hsize : 2 ≤ size)
    (hr : size ≤ r.CurrTxRateIndex) :
    (r.move trains (size - 1) ⟨size - 1, size - 1 - 1⟩).CurrTxRateIndex < size ↔
      trains = true ∧ drsTxQualityWorstBound ≤ r.TxQuality (size - 1) := by
  unfold RateState.move
  cases trains with
  | false => simpa using hr
  | true =>
      by_cases hq : drsTxQualityWorstBound ≤ r.TxQuality (size - 1)
      · have hdown : size - 1 ≠ size - 1 - 1 := by omega
        rw [if_pos rfl, if_pos ⟨hdown, hq⟩]
        refine iff_of_true ?_ ⟨rfl, hq⟩
        show size - 1 - 1 < size
        omega
      · rw [if_pos rfl, if_neg (fun h => hq h.2), if_neg (fun h => h.1 rfl)]
        exact iff_of_false (by omega) (fun h => hq h.2)

theorem worst_le_weigh {up down : BitVec 8} {ratio : BitVec 32} {idx : Nat} :
    (down.setWidth 32 ≤ ratio ∨ ratio ≤ up.setWidth 32) ∧
        drsTxQualityWorstBound ≤ (r.weigh ratio up down idx idx).TxQuality idx ↔
      down.setWidth 32 ≤ ratio ∨ ratio ≤ up.setWidth 32 ∧
        (if r.TxRateUpPenalty ≠ 0 then 9 else 10) ≤ r.TxQuality idx := by
  by_cases hdown : down.setWidth 32 ≤ ratio
  · simp [hdown, RateState.weigh_worst hdown]
  by_cases hup : ratio ≤ up.setWidth 32
  · simp only [hdown, hup, false_or, true_and, BitVec.le_def, RateState.weigh_quality hdown hup,
      if_true]
    by_cases hpen : r.TxRateUpPenalty = 0
    · rw [if_pos hpen, if_neg (not_not.mpr hpen)]
      show 8 ≤ _ ↔ 10 ≤ _
      omega
    · rw [if_neg hpen, if_pos hpen]
      show 8 ≤ _ ↔ 9 ≤ _
      omega
  · simp [hdown, hup]

/-- A turn of the one-second routine whose index is behind the table reads records of the table
alone if it does not get as far as training, or goes down. -/
def DynamicCopes (behind : Behind) (t : Table) (Rssi : Int) (l : Counts) (MCS : BitVec 7)
    (r : RateState) : Prop :=
  r.CurrTxRateIndex < t.size ∨
    MCS.toNat ≠ (record behind t (t.size - 1)).CurrMCS.toNat ∨
    l.TxTotalCnt ≤ 15 ∨ r.fLastSecAccordingRSSI = true ∨ GoesDown behind t Rssi l r

theorem dynamicDecide_reads_iff :
    (∀ k ∈ (dynamicDecide behind c hw t Rssi l n MCS r).reads, k < t.size) ↔
      DynamicCopes behind t Rssi l MCS r := by
  have hsize := t.size_bounds
  by_cases h : r.CurrTxRateIndex < t.size
  · exact iff_of_true (dynamicDecide_steps h).reads (Or.inl h)
  have hcur : currRateIdx t r = t.size - 1 := if_pos (by omega)
  have hnext : n.next (t.size - 1) t.size = ⟨t.size - 1, t.size - 1 - 1⟩ := by
    unfold Neighbours.next
    rw [if_neg (by omega), if_neg (by omega), if_pos rfl]
  unfold DynamicCopes
  simp only [dynamicDecide, hcur, hnext, h, false_or]
  split
  · rename_i hmcs
    refine iff_of_true ?_ (Or.inl hmcs)
    simp [t.initTxRateIdx_lt]
    omega
  · rename_i hmcs
    split
    · rename_i hfew
      refine iff_of_true ?_ (Or.inr (Or.inl hfew))
      have hRssi := txRateIdxByRssi_lt behind c t Rssi
      intro k hk
      simp only [List.mem_cons, List.mem_append, List.mem_range, List.not_mem_nil, or_false] at hk
      omega
    · rename_i hfew
      split
      · rename_i hlast
        refine iff_of_true ?_ (Or.inr (Or.inr (Or.inl hlast)))
        simp
        omega
      · rename_i hlast
        have hlt : t.size - 1 < t.size := by omega
        have hstale : t.size ≤ r.CurrTxRateIndex := by omega
        rw [RateState.settle_reads _ _ hlt, RateState.move_last _ _ (by omega) (by simpa using hstale),
          decide_eq_true_iff]
        refine worst_le_weigh.trans ?_
        rw [or_iff_right hmcs, or_iff_right hfew, or_iff_right hlast]
        exact Iff.rfl

theorem quickDecide_reads_iff (hn : r.CurrTxRateIndex < t.size → n.Beside r.CurrTxRateIndex t.size) :
    (∀ k ∈ (quickDecide behind hw t Rssi l n r).reads, k < t.size) ↔ r.CurrTxRateIndex < t.size := by
  constructor
  · intro hreads
    apply hreads
    simp only [quickDecide]
    split
    · simp
    · unfold RateState.settleQuick
      repeat' split
      all_goals simp
  · exact fun h => (quickDecide_steps h (hn h)).reads

end Decide

/-! ## A turn -/

/-- Of what `MlmeSelectTxRateTable` goes by, the part that is the peer's. -/
def SameRates (e e' : Entry) : Prop :=
  e'.RateLen = e.RateLen ∧ e'.MCSSet0 = e.MCSSet0 ∧ e'.MCSSet1 = e.MCSSet1 ∧ e'.MCSSet2 = e.MCSSet2

theorem mlmeSelectTxRateTable_congr {e e' : Entry} (c : Config) (h : SameRates e e') :
    mlmeSelectTxRateTable c e' = mlmeSelectTxRateTable c e := by
  obtain ⟨hlen, h0, h1, h2⟩ := h
  unfold mlmeSelectTxRateTable
  rw [hlen, h0, h1, h2]

section SetRate

variable {behind : Behind} {c : Config} {s : Shared} {t : Table} {e : Entry} {d : Decision}
  {rec : TxRate} {idx : Nat}

@[simp] theorem mlmeSetTxRate_rate : (mlmeSetTxRate c s e rec).2.rate = e.rate := by
  simp only [mlmeSetTxRate]
  split <;> rfl

theorem mlmeSetTxRate_sameRates : SameRates e (mlmeSetTxRate c s e rec).2 := by
  simp only [mlmeSetTxRate]
  split <;> exact ⟨rfl, rfl, rfl, rfl⟩

theorem mlmeSetTxRate_mcs (h : rec.CurrMCS < mcsAuto) :
    (mlmeSetTxRate c s e rec).2.HTPhyMode.MCS = rec.CurrMCS.setWidth 7 := by
  simp only [mlmeSetTxRate, if_pos h]
  repeat' split
  all_goals rfl

@[simp] theorem store_rate : (store behind c s t e d).2.rate = d.rate := by
  unfold store
  split
  · rfl
  · exact mlmeSetTxRate_rate

theorem store_sameRates : SameRates e (store behind c s t e d).2 := by
  unfold store
  split
  · exact ⟨rfl, rfl, rfl, rfl⟩
  · exact mlmeSetTxRate_sameRates

/-- A rate of the table that is set is the one sent at. -/
theorem store_mcs (hset : d.set = some idx) (h : idx < t.size) :
    (store behind c s t e d).2.HTPhyMode.MCS.toNat = (record behind t idx).CurrMCS.toNat := by
  have hmcs := record_mcs behind h
  have hauto : (record behind t idx).CurrMCS < mcsAuto := by
    rw [BitVec.lt_def]
    simp [mcsAuto]
    omega
  unfold store
  rw [hset]
  show (mlmeSetTxRate c s _ _).2.HTPhyMode.MCS.toNat = _
  rw [mlmeSetTxRate_mcs hauto, BitVec.toNat_setWidth]
  omega

end SetRate

/-- What a turn does if all is well: it reads records of the table alone, leaves an index that fits,
goes there by one entry or as chosen, and sets the rate of an index that is new. -/
structure Turn.Sound (behind : Behind) (chosen : Nat → Prop) (x : Turn) : Prop where
  inTable : ∀ k ∈ x.reads, k < x.table.size
  fits : x.new.rate.CurrTxRateIndex < x.table.size
  moves : Near x.old.rate.CurrTxRateIndex x.new.rate.CurrTxRateIndex ∨
    chosen x.new.rate.CurrTxRateIndex
  programmed : x.new.rate.CurrTxRateIndex ≠ x.old.rate.CurrTxRateIndex →
    x.new.HTPhyMode.MCS.toNat
      = (record behind x.table x.new.rate.CurrTxRateIndex).CurrMCS.toNat

/-- A turn on an entry follows a decision. -/
structure Turn.Follows (behind : Behind) (x : Turn) (d : Decision) : Prop where
  reads : x.reads = d.reads
  rate : x.new.rate = d.rate
  programmed : ∀ idx, d.set = some idx → idx < x.table.size →
    x.new.HTPhyMode.MCS.toNat = (record behind x.table idx).CurrMCS.toNat

theorem Turn.Follows.sound {behind : Behind} {x : Turn} {d : Decision} {chosen : Nat → Prop}
    (hx : x.Follows behind d)
    (hd : d.Steps x.table.size x.old.rate.CurrTxRateIndex chosen) : x.Sound behind chosen := by
  constructor
  · rw [hx.reads]
    exact hd.reads
  · rw [hx.rate]
    exact hd.fits
  · rw [hx.rate]
    exact hd.moves
  · rw [hx.rate]
    intro hmoved
    rcases hd.set with hset | ⟨-, hsame⟩
    · exact hx.programmed _ hset hd.fits
    · exact absurd hsame hmoved

/-- A call of one of the routines, or anything else the driver does to the peers meanwhile. -/
inductive Op
  | dynamic (c : Config) (hw : TxStaCnt) (select : Select)
  | quick (c : Config) (hw : TxStaCnt) (select : Select)
  | others (a : Adapter)

/-- The adapter after an operation, and the turns that were taken in it. -/
def Op.run (behind : Behind) (a : Adapter) : Op → Adapter × List Turn
  | .dynamic c hw select => mlmeDynamicTxRateSwitching behind c hw select a
  | .quick c hw select => staQuickResponeForRateUpExec behind c hw select a
  | .others a' => (a', [])

def step (behind : Behind) (a : Adapter) (op : Op) : Adapter := (op.run behind a).1

/-- What a turn is about: a slot whose peer takes part, with the table selected for it. -/
structure Turn.On (c : Config) (select : Select) (content : Nat → Entry) (x : Turn) : Prop where
  slot : x.slot ∈ slots
  part : takesPart c x.old = true
  old : x.old = content x.slot
  table : x.table = select x.slot x.old
  rates : SameRates x.old x.new

/-- The turns there are in an operation. -/
def Op.Takes (behind : Behind) (content : Nat → Entry) (x : Turn) : Op → Prop
  | .dynamic c hw select => x.On c select content ∧ ∃ n : Neighbours, x.Follows behind
      (dynamicDecide behind c hw x.table x.Rssi x.counts n x.old.HTPhyMode.MCS x.old.rate)
  | .quick c hw select => x.On c select content ∧ ∃ n : Neighbours, x.Follows behind
      (quickDecide behind hw x.table x.Rssi x.counts
        (n.next x.old.rate.CurrTxRateIndex x.table.size) x.old.rate)
  | .others _ => False

section Takes

variable {behind : Behind} {c : Config} {hw : TxStaCnt} {select : Select} {w : Carry} {i : Nat}
  {e : Entry} {content : Nat → Entry}

/-- A turn passes over the entry, or is one of the operation's. -/
def PassesOr (R : Turn → Prop) (w : Carry) (i : Nat) (e : Entry) (w' : Carry × Entry) : Prop :=
  w' = (w, e) ∨ ∃ x, R x ∧ x.slot = i ∧ w'.1.turns = w.turns ++ [x] ∧ w'.2 = x.new

theorem dynamicTurn_takes (hi : i ∈ slots) :
    PassesOr (fun x => (Op.dynamic c hw select).Takes behind content x) w i (content i)
      (dynamicTurn behind c hw select w i (content i)) := by
  cases hpart : takesPart c (content i) with
  | false =>
      left
      simp [dynamicTurn, hpart]
  | true =>
      right
      rw [dynamicTurn, if_pos hpart]
      exact ⟨_, ⟨⟨hi, hpart, rfl, rfl, store_sameRates⟩, w.neighbours, rfl, store_rate,
        fun _ => store_mcs⟩, rfl, rfl, rfl⟩

theorem quickTurn_takes (hi : i ∈ slots) :
    PassesOr (fun x => (Op.quick c hw select).Takes behind content x) w i (content i)
      (quickTurn behind c hw select w i (content i)) := by
  cases hret : w.returned with
  | true => exact Or.inl (if_pos hret)
  | false =>
    cases hpart : takesPart c (content i) with
    | false =>
        left
        simp [quickTurn, hpart]
    | true =>
        right
        rw [quickTurn, hret, if_neg (by simp), if_pos hpart]
        exact ⟨_, ⟨⟨hi, hpart, rfl, rfl, store_sameRates⟩, w.neighbours, rfl, store_rate,
          fun _ => store_mcs⟩, rfl, rfl, rfl⟩

theorem slots_nodup : slots.Nodup := by decide

theorem sweep_takes (hw : TxStaCnt) {turn : Carry → Nat → Entry → Carry × Entry} {R : Turn → Prop}
    (hturn : ∀ w, ∀ i ∈ slots, PassesOr R w i (content i) (turn w i (content i))) (s : Shared) :
    (∀ x ∈ (sweep turn slots (Carry.start s hw) content).1.turns, R x) ∧
      ∀ i ∈ slots, (sweep turn slots (Carry.start s hw) content).2 i = content i ∨
        ∃ x, R x ∧ x.slot = i ∧ (sweep turn slots (Carry.start s hw) content).2 i = x.new := by
  apply sweep_inv (I := fun w : Carry => ∀ x ∈ w.turns, R x) (P := fun i e => e = content i)
    (Q := fun i e => e = content i ∨ ∃ x, R x ∧ x.slot = i ∧ e = x.new)
  · intro w hw' i hi e he
    subst he
    rcases hturn w i hi with hpass | ⟨x, hx, hslot, hturns, hnew⟩
    · rw [hpass]
      exact ⟨hw', Or.inl rfl⟩
    · refine ⟨?_, Or.inr ⟨x, hx, hslot, hnew⟩⟩
      rw [hturns]
      intro y hy
      rcases List.mem_append.mp hy with hy | hy
      · exact hw' y hy
      · rwa [List.mem_singleton.mp hy]
  · exact slots_nodup
  · simp [Carry.start]
  · exact fun _ _ => rfl

/-- The turns of an operation are its own, and an entry is as it was or as its turn left it. -/
theorem Op.run_takes (behind : Behind) (a : Adapter) {op : Op} (hop : ∀ a', op ≠ .others a') :
    (∀ x ∈ (op.run behind a).2, op.Takes behind a.content x) ∧
      ∀ i ∈ slots, (step behind a op).content i = a.content i ∨
        ∃ x, op.Takes behind a.content x ∧ x.slot = i ∧ (step behind a op).content i = x.new := by
  cases op with
  | dynamic c hw select =>
      have hturn : ∀ w, ∀ i ∈ slots,
          PassesOr (fun x => (Op.dynamic c hw select).Takes behind a.content x) w i (a.content i)
            (dynamicTurn behind c hw select w i (a.content i)) :=
        fun _ _ hi => dynamicTurn_takes hi
      have hsweep := sweep_takes hw hturn a.shared
      unfold step
      cases hate : c.ateOn with
      | true =>
          rw [show (Op.dynamic c hw select).run behind a = _ from
            mlmeDynamicTxRateSwitching_off hate]
          exact ⟨by simp, fun _ _ => Or.inl rfl⟩
      | false =>
          rw [show (Op.dynamic c hw select).run behind a = _ from
            mlmeDynamicTxRateSwitching_on hate]
          exact hsweep
  | quick c hw select => exact sweep_takes hw (fun _ _ hi => quickTurn_takes hi) _
  | others a' => exact absurd rfl (hop a')

theorem Op.takes_of_mem {a : Adapter} {op : Op} {x : Turn} (hx : x ∈ (op.run behind a).2) :
    op.Takes behind a.content x := by
  cases op with
  | others a' => exact absurd hx List.not_mem_nil
  | dynamic c hw select => exact (Op.run_takes behind a (by simp)).1 x hx
  | quick c hw select => exact (Op.run_takes behind a (by simp)).1 x hx

end Takes

/-! ## When it is sound -/

/-- The entries a turn may go to from anywhere: the fast routine has none. -/
def Op.chosen (behind : Behind) (x : Turn) : Op → Nat → Prop
  | .dynamic c _ _ => Chosen behind c x.table x.Rssi
  | .quick .. | .others _ => fun _ => False

/-- What it takes for a turn to read records of its table alone. -/
def Op.Copes (behind : Behind) (x : Turn) : Op → Prop
  | .dynamic .. => DynamicCopes behind x.table x.Rssi x.counts x.old.HTPhyMode.MCS x.old.rate
  | .quick .. => x.old.rate.CurrTxRateIndex < x.table.size
  | .others _ => True

section Sound

variable {behind : Behind} {c : Config} {select : Select} {a : Adapter} {content : Nat → Entry}
  {op : Op} {x : Turn}

theorem Op.Takes.sound (hx : op.Takes behind content x)
    (hfit : x.old.rate.CurrTxRateIndex < x.table.size) : x.Sound behind (op.chosen behind x) := by
  cases op with
  | dynamic c hw select =>
      obtain ⟨-, n, hfollows⟩ := hx
      exact hfollows.sound (dynamicDecide_steps hfit)
  | quick c hw select =>
      obtain ⟨-, n, hfollows⟩ := hx
      have hsize := x.table.size_bounds
      exact hfollows.sound (quickDecide_steps hfit (n.next_beside (by omega) hfit))
  | others a' => exact hx.elim

theorem Op.Takes.reads_iff (hx : op.Takes behind content x) :
    (∀ k ∈ x.reads, k < x.table.size) ↔ op.Copes behind x := by
  cases op with
  | dynamic c hw select =>
      obtain ⟨-, n, hfollows⟩ := hx
      rw [hfollows.reads]
      exact dynamicDecide_reads_iff
  | quick c hw select =>
      obtain ⟨-, n, hfollows⟩ := hx
      have hsize := x.table.size_bounds
      rw [hfollows.reads]
      exact quickDecide_reads_iff (n.next_beside (by omega))
  | others a' => exact hx.elim

/-- **When a run reads outside the tables.** Through any calls of the two routines, whatever else
the driver does meanwhile and whichever tables are selected, every record read is one of the
selected table exactly if every turn copes with the index it meets. -/
theorem run_inTable_iff (ops : List Op) :
    Along (step behind) (fun a op => ∀ x ∈ (op.run behind a).2, ∀ k ∈ x.reads, k < x.table.size)
        a ops ↔
      Along (step behind) (fun a op => ∀ x ∈ (op.run behind a).2, op.Copes behind x) a ops := by
  apply along_iff_along (I := fun _ => True)
  · exact fun a op _ => forall₂_congr fun x hx => (Op.takes_of_mem hx).reads_iff
  · exact fun _ _ _ _ => trivial
  · trivial

/-! ## While the selection stays -/

/-- Every index fits in the table that the selection gives its peer. -/
def AllFit (c₀ : Config) (a : Adapter) : Prop :=
  ∀ i ∈ slots, (a.content i).rate.CurrTxRateIndex < (mlmeSelectTxRateTable c₀ (a.content i)).size

/-- The tables are selected by the configuration, and are those that `c₀` selects. -/
structure SelectsAs (c₀ c : Config) (select : Select) : Prop where
  own : ∀ i e, select i e = mlmeSelectTxRateTable c e
  same : ∀ e, mlmeSelectTxRateTable c e = mlmeSelectTxRateTable c₀ e

/-- A peer as it starts: a cleared entry, or one given the initial index of its table. -/
def StartsAnew (c₀ : Config) (e : Entry) : Prop :=
  e.rate.CurrTxRateIndex = 0 ∨
    e.rate.CurrTxRateIndex = (mlmeSelectTxRateTable c₀ e).initTxRateIdx

/-- The operations of a run with one selection: the routines go by it, and what else is done to a
peer starts it anew, or leaves its index and its rates alone. -/
def Op.Keeps (c₀ : Config) (a : Adapter) : Op → Prop
  | .dynamic c _ select | .quick c _ select => SelectsAs c₀ c select
  | .others a' => ∀ i ∈ slots, StartsAnew c₀ (a'.content i) ∨
      SameRates (a.content i) (a'.content i) ∧
        (a'.content i).rate.CurrTxRateIndex = (a.content i).rate.CurrTxRateIndex

theorem StartsAnew.fits {c₀ : Config} {e : Entry} (h : StartsAnew c₀ e) :
    e.rate.CurrTxRateIndex < (mlmeSelectTxRateTable c₀ e).size := by
  have hsize := (mlmeSelectTxRateTable c₀ e).size_bounds
  have hinit := (mlmeSelectTxRateTable c₀ e).initTxRateIdx_lt
  rcases h with hzero | hinitial
  · omega
  · rwa [hinitial]

theorem Turn.On.table_eq {c₀ : Config} (hx : x.On c select a.content)
    (hsel : SelectsAs c₀ c select) : x.table = mlmeSelectTxRateTable c₀ (a.content x.slot) := by
  rw [hx.table, hsel.own, hsel.same, hx.old]

theorem Op.Takes.on {c₀ : Config} (hx : op.Takes behind a.content x) (hop : op.Keeps c₀ a) :
    x.slot ∈ slots ∧ x.old = a.content x.slot ∧
      x.table = mlmeSelectTxRateTable c₀ (a.content x.slot) ∧ SameRates x.old x.new := by
  cases op with
  | dynamic c hw select => exact ⟨hx.1.slot, hx.1.old, hx.1.table_eq hop, hx.1.rates⟩
  | quick c hw select => exact ⟨hx.1.slot, hx.1.old, hx.1.table_eq hop, hx.1.rates⟩
  | others a' => exact hx.elim

theorem AllFit.sound {c₀ : Config} (h : AllFit c₀ a) (hop : op.Keeps c₀ a)
    (hx : op.Takes behind a.content x) : x.Sound behind (op.chosen behind x) := by
  obtain ⟨hslot, hold, htable, -⟩ := hx.on hop
  apply hx.sound
  rw [htable, hold]
  exact h _ hslot

theorem AllFit.step {c₀ : Config} (h : AllFit c₀ a) (hop : op.Keeps c₀ a) :
    AllFit c₀ (step behind a op) := by
  have hrun : (∀ a', op ≠ .others a') → AllFit c₀ (RateSwitch.step behind a op) := by
    intro hcall i hi
    rcases (Op.run_takes behind a hcall).2 i hi with hsame | ⟨x, hx, rfl, hnew⟩
    · rw [hsame]
      exact h i hi
    · obtain ⟨-, hold, htable, hrates⟩ := hx.on hop
      rw [hnew, mlmeSelectTxRateTable_congr c₀ hrates, hold, ← htable]
      exact (h.sound hop hx).fits
  cases op with
  | dynamic c hw select => exact hrun (by simp)
  | quick c hw select => exact hrun (by simp)
  | others a' =>
      intro i hi
      show (a'.content i).rate.CurrTxRateIndex < (mlmeSelectTxRateTable c₀ (a'.content i)).size
      rcases hop i hi with hanew | ⟨hrates, hsame⟩
      · exact hanew.fits
      · rw [mlmeSelectTxRateTable_congr c₀ hrates, hsame]
        exact h i hi

/-- **Rate switching is sound while the selection stays.** From indexes that fit, through any calls
of the two routines with any counters and signals, and anything else that leaves the peers' indexes
and rates alone or starts a peer anew, every turn is sound, and the indexes fit in the end. -/
theorem switching_sound {c₀ : Config} {ops : List Op} (h : AllFit c₀ a)
    (hops : Along (step behind) (fun a op => op.Keeps c₀ a) a ops) :
    Along (step behind) (fun a op => ∀ x ∈ (op.run behind a).2,
        x.Sound behind (op.chosen behind x)) a ops ∧ AllFit c₀ (exec (step behind) a ops) := by
  have halways := always_of_along (I := AllFit c₀) (fun a op hfit hop => hfit.step hop) h hops
  refine ⟨?_, halways.last⟩
  have hboth := (along_of_always (P := fun a _ => AllFit c₀ a) (fun _ _ h => h) halways).and hops
  refine hboth.mono ?_
  intro a op hop x hx
  exact hop.1.sound hop.2 (Op.takes_of_mem hx)

end Sound

/-- A station on channel 6 with two streams, and the access point it is with. -/
def station : Config where
  qosDls := true
  ateOn := false
  opModeSta := true
  adhocOn := false
  infraOn := true
  bAutoTxRateSwitch := true
  macTabSize := 1
  RxPath := 2
  TxPath := 2
  TxStream := 2
  Channel := 6
  PhyMode := 9
  TxRateTableSize := 0
  MaxTxRate := 11
  MinTxRate := 0
  ExternalLNAForG := false
  ExternalLNAForA := false
  RssiSample := ⟨-50, -52, 0⟩
  maxSTBC := true
  maxShortGI := true
  regHtmodeGF := false
  mlmeHtmodeGF := false

def accessPoint : Entry where
  EntryType := .client
  assoc := true
  RateLen := 12
  MCSSet0 := 0xff
  MCSSet1 := 0xff
  MCSSet2 := 0
  sgi20Capable := true
  sgi40Capable := true
  RssiSample := ⟨-50, -52, 0⟩
  HTPhyMode := ⟨15, true, false, 0, 2⟩
  rate := ⟨12, fun _ => 0, fun _ => 0, 0, 0, false, 0, 0, 0, 0, 0, 0⟩

def associated : Adapter where
  shared := ⟨⟨15, true, false, 0, 2⟩, ⟨15, true, false, 0, 2⟩, 0, 0, 0, false⟩
  content _ := accessPoint

def ofTables (c : Config) : Select := fun _ e => mlmeSelectTxRateTable c e

/-- With two streams, 20 dB more are three entries up. -/
theorem txRateIdxByRssi_mono_two_streams :
    txRateIdxByRssi (fun _ _ => 0) station .rateSwitchTable11BGN2S (-75) ≤
      txRateIdxByRssi (fun _ _ => 0) station .rateSwitchTable11BGN2S (-55) :=
  txRateIdxByRssi_mono station (by decide)

/-- A good second goes up to the last entry, and the fast routine then finds nothing sent. -/
theorem switching_sound_associated :
    AllFit station (exec (step fun _ _ => 0) associated
      [.dynamic station ⟨0, 100, 0⟩ (ofTables station), .quick station ⟨0, 0, 0⟩ (ofTables station)]) := by
  have hsel : SelectsAs station station (ofTables station) := ⟨fun _ _ => rfl, fun _ => rfl⟩
  have hfit : AllFit station associated := fun _ _ =>
    show 12 < (mlmeSelectTxRateTable station accessPoint).size by decide
  apply (switching_sound hfit ?_).2
  exact ⟨hsel, hsel, trivial⟩

end ExtDrv.Rt3370.RateSwitch
