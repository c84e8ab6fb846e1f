import ExtDrv.Lib.Table
import Mathlib.Algebra.Order.BigOperators.Group.Finset

/-!
# Session tables

What a table of sessions is for: entries are free or serve one key, every key
has a slot for its entry, and a session is first opened, then established.
Two counters and a flag for each key are kept beside the table. `Sound` says
that the whole agrees; opening, establishing and closing keep it so.
-/

namespace ExtDrv.Table

variable {ι κ : Type*}

/-- A table with its slots, counters and flags. An entry in use has its key,
and whether the session is established. -/
@[ext] structure Sessions (ι κ : Type*) where
  entry : ι → Option (κ × Bool)
  slot : κ → Option ι
  count : ℕ
  done : ℕ
  flag : κ → Bool

namespace Sessions

/-- 1 for an entry in use. -/
def used (e : Option (κ × Bool)) : ℕ := if e.isSome then 1 else 0

/-- 1 for an established session. -/
def live (e : Option (κ × Bool)) : ℕ := if e.any Prod.snd then 1 else 0

@[simp] theorem used_none : used (none : Option (κ × Bool)) = 0 := rfl

@[simp] theorem used_some (x : κ × Bool) : used (some x) = 1 := rfl

@[simp] theorem live_none : live (none : Option (κ × Bool)) = 0 := rfl

@[simp] theorem live_some (k : κ) (b : Bool) : live (some (k, b)) = if b then 1 else 0 := rfl

theorem live_le_used (e : Option (κ × Bool)) : live e ≤ used e := by
  rcases e with _ | ⟨k, _ | _⟩ <;> simp

variable [Fintype ι]

/-- **Soundness**: entries and slots are each other's inverse, the counters
count, and a flag is set exactly for an established session. -/
structure Sound (s : Sessions ι κ) : Prop where
  link : TwoWay (fun i => (s.entry i).map Prod.fst) s.slot
  count : s.count = ∑ i, used (s.entry i)
  done : s.done = ∑ i, live (s.entry i)
  flag : ∀ k, s.flag k = true ↔ ∃ i, s.entry i = some (k, true)

/-- The table without a session. -/
theorem sound_empty : Sound (ι := ι) (κ := κ)
    { entry := fun _ => none, slot := fun _ => none, count := 0, done := 0,
      flag := fun _ => false } := by
  refine ⟨fun i k => ?_, by simp, by simp, fun k => by simp⟩
  constructor <;> exact fun h => nomatch h

variable {s : Sessions ι κ} {i j : ι} {k : κ} {b c : Bool}

theorem Sound.slot_of_entry (h : s.Sound) (hi : s.entry i = some (k, b)) : s.slot k = some i :=
  (h.link i k).mp (by simp [hi])

theorem Sound.entry_of_slot (h : s.Sound) (hk : s.slot k = some i) :
    ∃ b, s.entry i = some (k, b) := by
  have hfst := (h.link i k).mpr hk
  obtain ⟨⟨k', b⟩, he, hk'⟩ := Option.map_eq_some_iff.mp hfst
  subst hk'
  exact ⟨b, he⟩

/-- A key has one entry. -/
theorem Sound.inj (h : s.Sound) (hi : s.entry i = some (k, b)) (hj : s.entry j = some (k, c)) :
    i = j :=
  Option.some.inj ((h.slot_of_entry hi).symm.trans (h.slot_of_entry hj))

theorem Sound.count_pos (h : s.Sound) (hi : s.entry i = some (k, b)) : 0 < s.count := by
  rw [h.count]
  refine Finset.sum_pos' (fun _ _ => Nat.zero_le _) ⟨i, Finset.mem_univ i, ?_⟩
  simp [hi]

theorem Sound.done_pos (h : s.Sound) (hi : s.entry i = some (k, true)) : 0 < s.done := by
  rw [h.done]
  refine Finset.sum_pos' (fun _ _ => Nat.zero_le _) ⟨i, Finset.mem_univ i, ?_⟩
  simp [hi]

/-- Fewer sessions than places leave one free. -/
theorem Sound.exists_free (h : s.Sound) {places : Finset ι} (hroom : s.count < places.card) :
    ∃ i ∈ places, s.entry i = none := by
  by_contra hall
  have hused : ∀ i ∈ places, used (s.entry i) = 1 := by
    intro i hi
    have hne : s.entry i ≠ none := fun he => hall ⟨i, hi, he⟩
    obtain ⟨x, hx⟩ := Option.ne_none_iff_exists'.mp hne
    rw [hx, used_some]
  have hcard : places.card ≤ s.count := by
    calc places.card = ∑ i ∈ places, used (s.entry i) := by
          rw [Finset.sum_congr rfl hused, Finset.sum_const, smul_eq_mul, mul_one]
      _ ≤ ∑ i, used (s.entry i) :=
          Finset.sum_le_sum_of_subset (Finset.subset_univ places)
      _ = s.count := h.count.symm
  omega

/-- With as many established as in use, every session is established. -/
theorem Sound.established (h : s.Sound) (heq : s.done = s.count)
    (hi : s.entry i = some (k, b)) : b = true := by
  rw [h.done, h.count] at heq
  -- equal sums of pointwise smaller summands are equal pointwise
  have hpoint := (Finset.sum_eq_sum_iff_of_le fun i _ => live_le_used (s.entry i)).mp heq
  have hone := hpoint i (Finset.mem_univ i)
  cases b with
  | true => rfl
  | false => simp [hi] at hone

/-! ## Operations -/

section Operations

variable [DecidableEq ι] [DecidableEq κ]

/-- Open a session for `k` in entry `i`. -/
def start (s : Sessions ι κ) (i : ι) (k : κ) : Sessions ι κ :=
  { s with
    entry := Function.update s.entry i (some (k, false)),
    slot := Function.update s.slot k (some i),
    count := s.count + 1 }

/-- The session of `k` in entry `i` is established. -/
def confirm (s : Sessions ι κ) (i : ι) (k : κ) : Sessions ι κ :=
  { s with
    entry := Function.update s.entry i (some (k, true)),
    done := s.done + 1,
    flag := Function.update s.flag k true }

/-- Close the session of `k` in entry `i`; `b` when it was established. -/
def finish (s : Sessions ι κ) (i : ι) (k : κ) (b : Bool) : Sessions ι κ :=
  { entry := Function.update s.entry i none,
    slot := Function.update s.slot k none,
    count := s.count - 1,
    done := if b then s.done - 1 else s.done,
    flag := if b then Function.update s.flag k false else s.flag }

omit [Fintype ι] [DecidableEq κ] in
theorem fst_update (f : ι → Option (κ × Bool)) (i : ι) (x : Option (κ × Bool)) :
    (fun j => (Function.update f i x j).map Prod.fst)
      = Function.update (fun j => (f j).map Prod.fst) i (x.map Prod.fst) :=
  Function.comp_update (Option.map Prod.fst) f i x

/-- **Opening** a session in a free entry for a key without one. -/
theorem Sound.start (h : s.Sound) (hi : s.entry i = none) (hk : s.slot k = none) :
    (s.start i k).Sound where
  link := by
    simp only [Sessions.start, fst_update]
    exact h.link.link (by simp [hi]) hk
  count := by
    have hsum := sum_update (used (κ := κ)) s.entry i (some (k, false))
    rw [hi, used_none, used_some, add_zero, ← h.count] at hsum
    exact hsum.symm
  done := h.done.trans (sum_update_of_eq (by simp [hi])).symm
  flag := by
    intro l
    refine (h.flag l).trans ⟨fun ⟨j, hj⟩ => ⟨j, ?_⟩, fun ⟨j, hj⟩ => ⟨j, ?_⟩⟩
    · have hne : j ≠ i := fun he => by rw [he, hi] at hj; cases hj
      simp only [Sessions.start, Function.update_of_ne hne, hj]
    · by_cases hne : j = i
      · simp [Sessions.start, hne] at hj
      · simpa only [Sessions.start, Function.update_of_ne hne] using hj

/-- **Establishing** an open session. -/
theorem Sound.confirm (h : s.Sound) (hi : s.entry i = some (k, false)) :
    (s.confirm i k).Sound where
  link := by
    simp only [Sessions.confirm, fst_update]
    have hkey : ((some (k, true) : Option (κ × Bool)).map Prod.fst)
        = (s.entry i).map Prod.fst := by simp [hi]
    rw [hkey, Function.update_eq_self]
    exact h.link
  count := h.count.trans (sum_update_of_eq (by simp [hi])).symm
  done := by
    have hsum := sum_update (live (κ := κ)) s.entry i (some (k, true))
    rw [hi, live_some, live_some, if_neg (by decide), if_pos rfl, add_zero, ← h.done] at hsum
    exact hsum.symm
  flag := by
    intro l
    by_cases hl : l = k
    · subst hl
      simp only [Sessions.confirm, Function.update_self, true_iff]
      exact ⟨i, by rw [Function.update_self]⟩
    · simp only [Sessions.confirm, Function.update_of_ne hl]
      refine (h.flag l).trans ⟨fun ⟨j, hj⟩ => ⟨j, ?_⟩, fun ⟨j, hj⟩ => ⟨j, ?_⟩⟩
      · have hne : j ≠ i := fun he => by rw [he, hi] at hj; cases hj
        rw [Function.update_of_ne hne, hj]
      · by_cases hne : j = i
        · rw [hne, Function.update_self] at hj
          exact absurd (congrArg Prod.fst (Option.some.inj hj)).symm hl
        · rwa [Function.update_of_ne hne] at hj

/-- **Closing** a session. -/
theorem Sound.finish (h : s.Sound) (hi : s.entry i = some (k, b)) :
    (s.finish i k b).Sound where
  link := by
    simp only [Sessions.finish, fst_update]
    exact h.link.unlink (by simp [hi])
  count := by
    have hsum := sum_update (used (κ := κ)) s.entry i none
    rw [hi, used_none, used_some, ← h.count] at hsum
    simp only [Sessions.finish]
    omega
  done := by
    have hsum := sum_update (live (κ := κ)) s.entry i none
    rw [hi, live_none, live_some, ← h.done] at hsum
    cases b <;> simp [Sessions.finish] at hsum ⊢ <;> omega
  flag := by
    intro l
    by_cases hl : l = k
    · subst hl
      have hoff : (s.finish i l b).flag l = false := by
        cases b with
        | true => simp [Sessions.finish]
        -- never established: its flag was not set, as it has no other entry
        | false =>
            refine Bool.eq_false_iff.mpr fun hf => ?_
            obtain ⟨j, hj⟩ := (h.flag l).mp hf
            rw [h.inj hj hi, hi] at hj
            cases hj
      refine ⟨fun hf => absurd (hoff.symm.trans hf) (by decide), fun ⟨j, hj⟩ => ?_⟩
      by_cases hne : j = i
      · simp [Sessions.finish, hne] at hj
      · simp only [Sessions.finish, Function.update_of_ne hne] at hj
        exact absurd (h.inj hj hi) hne
    · have hsame : (s.finish i k b).flag l = s.flag l := by
        cases b <;> simp [Sessions.finish, hl]
      rw [hsame, h.flag l]
      refine ⟨fun ⟨j, hj⟩ => ⟨j, ?_⟩, fun ⟨j, hj⟩ => ⟨j, ?_⟩⟩
      · have hne : j ≠ i := by
          rintro rfl
          rw [hi] at hj
          exact hl (congrArg Prod.fst (Option.some.inj hj)).symm
        simp only [Sessions.finish, Function.update_of_ne hne, hj]
      · by_cases hne : j = i
        · simp [Sessions.finish, hne] at hj
        · simpa only [Sessions.finish, Function.update_of_ne hne] using hj

end Operations

end Sessions

end ExtDrv.Table
