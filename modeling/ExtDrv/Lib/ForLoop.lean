import Mathlib.Data.List.Basic
import Mathlib.Logic.Function.Basic

/-!
# Loops over a list of indices

A `for` loop that runs over the entries of a table and changes a state on its way. The invariant
of such a loop speaks of the indices that are still to come.

A sweep goes through the keys of a table, one after the other. A turn reads and writes the entry
of its key, and carries some state on to the next one: the carried state is the only way from one
entry to another.
-/

namespace ExtDrv.ForLoop

variable {σ ι : Type*}

/-- **The invariant rule**, for a body that may fail: it does not, and keeps the invariant. -/
theorem foldlM_inv {f : σ → ι → Option σ} {I : List ι → σ → Prop}
    (hbody : ∀ i is s, I (i :: is) s → ∃ s', f s i = some s' ∧ I is s') {is : List ι} {s : σ}
    (h : I is s) : ∃ s', is.foldlM f s = some s' ∧ I [] s' := by
  induction is generalizing s with
  | nil => exact ⟨s, rfl, h⟩
  | cons i is ih =>
    obtain ⟨t, ht, hinv⟩ := hbody i is s h
    obtain ⟨s', hs', hend⟩ := ih hinv
    refine ⟨s', ?_, hend⟩
    rw [List.foldlM_cons, ht]
    exact hs'

theorem foldl_inv {f : σ → ι → σ} {I : List ι → σ → Prop}
    (hbody : ∀ i is s, I (i :: is) s → I is (f s i)) {is : List ι} {s : σ} (h : I is s) :
    I [] (is.foldl f s) := by
  induction is generalizing s with
  | nil => exact h
  | cons i is ih => exact ih (hbody i is s h)

/-- A loop with nothing to do. -/
theorem foldlM_idle {f : σ → ι → Option σ} {is : List ι} {s : σ} (h : ∀ i ∈ is, f s i = some s) :
    is.foldlM f s = some s := by
  induction is with
  | nil => rfl
  | cons i is ih =>
    rw [List.foldlM_cons, h i List.mem_cons_self]
    exact ih fun j hj => h j (List.mem_cons_of_mem i hj)

/-- A loop with something to do at one index only, before and after that is done. -/
theorem foldlM_single {f : σ → ι → Option σ} {is : List ι} {s : σ} {i : ι} (hi : i ∈ is)
    (hnodup : is.Nodup) (hbefore : ∀ j, j ≠ i → f s j = some s)
    (hafter : ∀ s', f s i = some s' → ∀ j, j ≠ i → f s' j = some s') :
    is.foldlM f s = f s i := by
  induction is with
  | nil => cases hi
  | cons j is ih =>
    obtain ⟨hj, hrest⟩ := List.nodup_cons.mp hnodup
    rw [List.foldlM_cons]
    by_cases hji : j = i
    · subst hji
      cases hs' : f s j with
      | none => rfl
      | some s' =>
        refine foldlM_idle fun k hk => hafter s' hs' k ?_
        rintro rfl
        exact hj hk
    · rw [hbefore j hji]
      exact ih ((List.mem_cons.mp hi).resolve_left (Ne.symm hji)) hrest

end ExtDrv.ForLoop

/-! ## Turns undone in the other order

A loop whose turns are undone one by one, the last one first, is undone as a whole. The two
loops may run on states of different types; a relation says which of them belong together.
-/

namespace ExtDrv.Undo

variable {σ τ α : Type*} {R : σ → τ → Prop} {f : σ → α → σ} {g : τ → α → τ}

/-- If `g` takes back a turn of `f`, it takes back all of them. -/
theorem foldl_reverse {as : List α} (h : ∀ a ∈ as, ∀ s t, R (f s a) t → R s (g t a)) {s : σ} {t : τ} :
    R (as.foldl f s) t → R s (as.reverse.foldl g t) := by
  induction as generalizing s with
  | nil => exact id
  | cons a as ih =>
    intro hr
    rw [List.reverse_cons, List.foldl_append, List.foldl_cons, List.foldl_nil]
    refine h a List.mem_cons_self s _ ?_
    exact ih (fun b hb => h b (List.mem_cons_of_mem a hb)) hr

end ExtDrv.Undo

namespace ExtDrv.Sweep

variable {γ γ' κ α : Type*} [DecidableEq κ]

/-- The carried state and the table after the turns of `ks`. -/
def sweep (turn : γ → κ → α → γ × α) : List κ → γ → (κ → α) → γ × (κ → α)
  | [], c, f => (c, f)
  | k :: ks, c, f => sweep turn ks (turn c k (f k)).1 (Function.update f k (turn c k (f k)).2)

variable {turn : γ → κ → α → γ × α} {ks : List κ} {k : κ} {c : γ} {f g : κ → α}

@[simp] theorem sweep_nil : sweep turn [] c f = (c, f) := rfl

@[simp] theorem sweep_cons : sweep turn (k :: ks) c f =
    sweep turn ks (turn c k (f k)).1 (Function.update f k (turn c k (f k)).2) := rfl

theorem sweep_append (ks ks' : List κ) : sweep turn (ks ++ ks') c f =
    sweep turn ks' (sweep turn ks c f).1 (sweep turn ks c f).2 := by
  induction ks generalizing c f with
  | nil => rfl
  | cons k ks ih => exact ih

/-- What is not gone through stays as it is. -/
theorem sweep_of_not_mem (h : k ∉ ks) : (sweep turn ks c f).2 k = f k := by
  induction ks generalizing c f with
  | nil => rfl
  | cons k' ks ih =>
      rw [List.mem_cons, not_or] at h
      simp [ih h.2, Function.update_of_ne h.1]

/-- The entry of a key after the sweep: its turn on the entry there was, with the state that the
turns before it carry on. -/
theorem sweep_split {before after : List κ} (h : (before ++ k :: after).Nodup) :
    (sweep turn (before ++ k :: after) c f).2 k
      = (turn (sweep turn before c f).1 k (f k)).2 := by
  rw [List.nodup_append] at h
  have hbefore : k ∉ before := fun hk => h.2.2 k hk k List.mem_cons_self rfl
  have hafter : k ∉ after := (List.nodup_cons.mp h.2.1).1
  simp [sweep_append, sweep_of_not_mem hafter, sweep_of_not_mem hbefore]

/-- A part of the carried state that each turn makes from that part, the key and the entry is the
fold over the entries there were. -/
theorem sweep_carry (part : γ → γ') (next : γ' → κ → α → γ')
    (hnext : ∀ c k a, part (turn c k a).1 = next (part c) k a) (hks : ks.Nodup) :
    part (sweep turn ks c f).1 = ks.foldl (fun p k => next p k (f k)) (part c) := by
  induction ks generalizing c f with
  | nil => rfl
  | cons k ks ih =>
      rw [List.nodup_cons] at hks
      rw [sweep_cons, ih hks.2, List.foldl_cons, hnext]
      apply List.foldl_ext
      intro p k' hk'
      have hne : k' ≠ k := fun heq => hks.1 (heq ▸ hk')
      rw [Function.update_of_ne hne]

/-- What every turn keeps of the carried state, and what it makes of an entry. -/
theorem sweep_inv {I : γ → Prop} {P Q : κ → α → Prop}
    (hturn : ∀ c, I c → ∀ k ∈ ks, ∀ a, P k a → I (turn c k a).1 ∧ Q k (turn c k a).2)
    (hks : ks.Nodup) (hc : I c) (hf : ∀ k ∈ ks, P k (f k)) :
    I (sweep turn ks c f).1 ∧ ∀ k ∈ ks, Q k ((sweep turn ks c f).2 k) := by
  induction ks generalizing c f with
  | nil => exact ⟨hc, by simp⟩
  | cons k ks ih =>
      rw [List.nodup_cons] at hks
      obtain ⟨hI, hQ⟩ := hturn c hc k List.mem_cons_self (f k) (hf k List.mem_cons_self)
      have hrest : ∀ k' ∈ ks, P k' (Function.update f k (turn c k (f k)).2 k') := by
        intro k' hk'
        have hne : k' ≠ k := fun heq => hks.1 (heq ▸ hk')
        rw [Function.update_of_ne hne]
        exact hf k' (List.mem_cons_of_mem _ hk')
      obtain ⟨hI', hQ'⟩ :=
        ih (fun c hc k hk => hturn c hc k (List.mem_cons_of_mem _ hk)) hks.2 hI hrest
      refine ⟨hI', ?_⟩
      intro k' hk'
      rcases List.mem_cons.mp hk' with rfl | hk'
      · rw [sweep_cons, sweep_of_not_mem hks.1, Function.update_self]
        exact hQ
      · exact hQ' k' hk'

end ExtDrv.Sweep
