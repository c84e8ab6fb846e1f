import Mathlib.Data.Fintype.EquivFin
import Mathlib.Data.List.Nodup
import Mathlib.Logic.Function.Basic

/-!
# Singly linked lists in a pool

The nodes are those of a type `ι`, and each has a link to another or to none.
`Linked next p l` says that the nodes met from `p` on are those of `l`, in its order.
The rules below say what a change of one or two links does: to nodes elsewhere,
in front, behind the last node, and around a node that is taken out.
-/

namespace ExtDrv.Chain

open Function

variable {ι : Type*}

/-- From `p` on, the links lead through `l` and to an end. -/
def Linked (next : ι → Option ι) : Option ι → List ι → Prop
  | p, [] => p = none
  | p, a :: l => p = some a ∧ Linked next (next a) l

namespace Linked

variable {next next' : ι → Option ι} {p : Option ι} {l r : List ι} {a b : ι}

@[simp] theorem nil_iff : Linked next p [] ↔ p = none := Iff.rfl

@[simp] theorem cons_iff : Linked next p (a :: l) ↔ p = some a ∧ Linked next (next a) l := Iff.rfl

theorem head (h : Linked next p l) : p = l.head? := by
  cases l with
  | nil => exact h
  | cons a l => exact h.1

/-- Links of other nodes do not matter. -/
theorem congr (h : Linked next p l) (heq : ∀ a ∈ l, next' a = next a) : Linked next' p l := by
  induction l generalizing p with
  | nil => exact h
  | cons a l ih =>
    refine ⟨h.1, ?_⟩
    rw [heq a List.mem_cons_self]
    exact ih h.2 fun b hb => heq b (List.mem_cons_of_mem a hb)

section Update

variable [DecidableEq ι]

theorem update_of_notMem (h : Linked next p l) (ha : a ∉ l) (q : Option ι) :
    Linked (update next a q) p l :=
  h.congr fun _ hb => update_of_ne (ne_of_mem_of_not_mem hb ha) q next

/-- **A node in front.** -/
theorem push (h : Linked next p l) (ha : a ∉ l) : Linked (update next a p) (some a) (a :: l) := by
  refine ⟨rfl, ?_⟩
  rw [update_self]
  exact h.update_of_notMem ha p

/-- **A node behind the last one.** -/
theorem snoc (h : Linked next p (l ++ [b])) (hnodup : (l ++ [b]).Nodup) (ha : a ∉ l ++ [b]) :
    Linked (update (update next a none) b (some a)) p (l ++ [b] ++ [a]) := by
  have hne : b ≠ a := fun e => ha (e ▸ List.mem_append_right l List.mem_cons_self)
  induction l generalizing p with
  | nil =>
    refine ⟨h.1, ?_, ?_⟩
    · rw [update_self]
    · rw [update_of_ne hne.symm, update_self]
      rfl
  | cons c l ih =>
    rw [List.cons_append, List.nodup_cons] at hnodup
    rw [List.cons_append, List.mem_cons, not_or] at ha
    have hcb : c ≠ b := fun e => hnodup.1 (e ▸ List.mem_append_right l List.mem_cons_self)
    refine ⟨h.1, ?_⟩
    rw [update_of_ne hcb, update_of_ne (Ne.symm ha.1)]
    exact ih h.2 hnodup.2 ha.2

/-- **A node is taken out** behind another one. -/
theorem unlink (h : Linked next p (l ++ b :: a :: r)) (hnodup : (l ++ b :: a :: r).Nodup) :
    Linked (update next b (next a)) p (l ++ b :: r) := by
  induction l generalizing p with
  | nil =>
    rw [List.nil_append, List.nodup_cons, List.mem_cons, not_or] at hnodup
    refine ⟨h.1, ?_⟩
    rw [update_self]
    exact h.2.2.update_of_notMem hnodup.1.2 _
  | cons c l ih =>
    rw [List.cons_append, List.nodup_cons] at hnodup
    have hcb : c ≠ b := fun e => hnodup.1 (e ▸ List.mem_append_right l List.mem_cons_self)
    refine ⟨h.1, ?_⟩
    rw [update_of_ne hcb]
    exact ih h.2 hnodup.2

end Update

/-- From one start there is one list. -/
theorem unique {l' : List ι} (h : Linked next p l) (h' : Linked next p l') : l = l' := by
  induction l generalizing p l' with
  | nil =>
    obtain rfl : p = none := h
    cases l' with
    | nil => rfl
    | cons b l' => cases h'.1
  | cons a l ih =>
    cases l' with
    | nil => cases h.1.symm.trans h'
    | cons b l' =>
      obtain rfl : a = b := Option.some.inj (h.1.symm.trans h'.1)
      rw [ih h.2 h'.2]

theorem behind (h : Linked next p (l ++ a :: r)) : Linked next (next a) r := by
  induction l generalizing p with
  | nil => exact h.2
  | cons b l ih => exact ih h.2

/-- A list that ends meets no node twice. -/
theorem nodup (h : Linked next p l) : l.Nodup := by
  induction l generalizing p with
  | nil => exact List.nodup_nil
  | cons a l ih =>
    refine List.nodup_cons.mpr ⟨fun hmem => ?_, ih h.2⟩
    -- behind the second `a` everything would be there once more
    obtain ⟨front, r, rfl⟩ := List.append_of_mem hmem
    have hlen := congrArg List.length (h.2.unique h.2.behind)
    simp only [List.length_append, List.length_cons] at hlen
    omega

/-- Of `k` nodes no more than `k` can be linked. -/
theorem length_le [Fintype ι] (h : Linked next p l) : l.length ≤ Fintype.card ι :=
  h.nodup.length_le_card

end Linked

/-! ## Looking for a node -/

/-- The first node from `node` on that is looked for, and the one in front of it; `turns`
bounds the nodes met. -/
def seek (next : ι → Option ι) (found : ι → Bool) : Nat → Option ι → Option ι → Option ι × Option ι
  | 0, node, prev => (node, prev)
  | _ + 1, none, prev => (none, prev)
  | turns + 1, some a, prev =>
      if found a then (some a, prev) else seek next found turns (next a) (some a)

variable {next : ι → Option ι} {found : ι → Bool}

/-- There is none. -/
theorem seek_none {p : Option ι} {l : List ι} (h : Linked next p l) (hl : ∀ b ∈ l, ¬ found b = true)
    {turns : Nat} (hturns : l.length ≤ turns) (prev : Option ι) :
    (seek next found turns p prev).1 = none := by
  induction l generalizing p prev turns with
  | nil =>
    obtain rfl : p = none := h
    cases turns <;> rfl
  | cons a l ih =>
    obtain ⟨rfl, hrest⟩ := h
    obtain ⟨turns, rfl⟩ := Nat.exists_eq_succ_of_ne_zero (Nat.ne_zero_of_lt hturns)
    rw [seek, if_neg (hl a List.mem_cons_self)]
    exact ih hrest (fun b hb => hl b (List.mem_cons_of_mem a hb)) (Nat.le_of_succ_le_succ hturns) _

/-- It is behind `l`. -/
theorem seek_some {p : Option ι} {l r : List ι} {a : ι} (h : Linked next p (l ++ a :: r))
    (hl : ∀ b ∈ l, ¬ found b = true) (ha : found a = true) {turns : Nat}
    (hturns : l.length < turns) (prev : Option ι) :
    seek next found turns p prev = (some a, l.getLast?.or prev) := by
  induction l generalizing p prev turns with
  | nil =>
    obtain ⟨rfl, -⟩ := h
    obtain ⟨turns, rfl⟩ := Nat.exists_eq_succ_of_ne_zero (Nat.ne_of_gt hturns)
    rw [seek, if_pos ha]
    rfl
  | cons b l ih =>
    obtain ⟨rfl, hrest⟩ := h
    obtain ⟨turns, rfl⟩ := Nat.exists_eq_succ_of_ne_zero (Nat.ne_zero_of_lt hturns)
    rw [seek, if_neg (hl b List.mem_cons_self),
      ih hrest (fun c hc => hl c (List.mem_cons_of_mem b hc)) (Nat.lt_of_succ_lt_succ hturns)]
    cases l with
    | nil => rfl
    | cons c l => rw [List.getLast?_cons_cons, List.getLast?_cons, Option.some_or, Option.some_or]

/-! ## Searches that may not end

`search` tells a walk that came to the end of the list from one that ran out of turns. With
as many turns as there are nodes, only a walk in a circle does. -/

def search (next : ι → Option ι) (found : ι → Bool) :
    Nat → Option ι → Option ι → Option (Option ι × Option ι)
  | _, none, prev => some (none, prev)
  | 0, some _, _ => none
  | turns + 1, some a, prev =>
      if found a then some (some a, prev) else search next found turns (next a) (some a)

theorem search_eq_seek {p : Option ι} {l : List ι} (h : Linked next p l) {turns : Nat}
    (hturns : l.length ≤ turns) (prev : Option ι) :
    search next found turns p prev = some (seek next found turns p prev) := by
  induction l generalizing p prev turns with
  | nil =>
    obtain rfl : p = none := h
    cases turns <;> rfl
  | cons a l ih =>
    obtain ⟨rfl, hrest⟩ := h
    obtain ⟨turns, rfl⟩ := Nat.exists_eq_succ_of_ne_zero (Nat.ne_zero_of_lt hturns)
    rw [search, seek]
    split
    · rfl
    · exact ih hrest (Nat.le_of_succ_le_succ hturns) _

/-- What a search comes upon is the first node of the list that is looked for. -/
theorem search_fst {p : Option ι} {l : List ι} (h : Linked next p l) {turns : Nat}
    (hturns : l.length ≤ turns) (prev : Option ι) :
    (search next found turns p prev).map Prod.fst = some (l.find? found) := by
  induction l generalizing p prev turns with
  | nil =>
    obtain rfl : p = none := h
    cases turns <;> rfl
  | cons a l ih =>
    obtain ⟨rfl, hrest⟩ := h
    obtain ⟨turns, rfl⟩ := Nat.exists_eq_succ_of_ne_zero (Nat.ne_zero_of_lt hturns)
    rw [search]
    split
    · rename_i hfound
      rw [List.find?_cons_of_pos hfound]
      rfl
    · rename_i hfound
      rw [List.find?_cons_of_neg hfound]
      exact ih hrest (Nat.le_of_succ_le_succ hturns) _

end ExtDrv.Chain
