import Mathlib.Data.List.Basic
import Mathlib.Data.List.Count
import Mathlib.Logic.Function.Basic

/-!
# Disposal

Objects that are handed from routine to routine and released by one of them. A run is the list of
what is done with them; a monitor goes along and gives up where an object is touched or released
that is not there. A run is clean if the monitor gets through and nothing is left.
-/

namespace ExtDrv.Disposal

variable {H : Type*} [DecidableEq H]

/-- What is done with a pointer, which may be NULL, and the birth of an object. -/
inductive Act (H : Type*)
  | touch (h : Option H)
  | release (h : Option H)
  | alloc (h : H)
  deriving DecidableEq

/-- The object an act is about. -/
def Act.handle : Act H → Option H
  | .touch h => h
  | .release h => h
  | .alloc h => some h

/-- One act; `live` tells which objects there are. -/
def step (live : H → Bool) : Act H → Option (H → Bool)
  | .touch none => none
  | .touch (some h) => if live h then some live else none
  | .release none => none
  | .release (some h) => if live h then some (Function.update live h false) else none
  | .alloc h => if live h then none else some (Function.update live h true)

def run (live : H → Bool) : List (Act H) → Option (H → Bool)
  | [] => some live
  | a :: as => (step live a).bind fun live' => run live' as

/-- **Disposed of**: nothing is touched or released that is not there, and nothing is left. -/
def Disposed (live : H → Bool) (as : List (Act H)) : Prop :=
  ∃ live', run live as = some live' ∧ ∀ h, live' h = false

/-! ## Runs -/

section Runs

variable {live : H → Bool}

@[simp] theorem run_cons (live : H → Bool) (a : Act H) (as : List (Act H)) :
    run live (a :: as) = (step live a).bind fun live' => run live' as := rfl

theorem step_touch (live : H → Bool) (h : H) :
    step live (.touch (some h)) = if live h then some live else none := rfl

theorem step_release (live : H → Bool) (h : H) : step live (.release (some h))
    = if live h then some (Function.update live h false) else none := rfl

theorem step_alloc (live : H → Bool) (h : H) : step live (.alloc h)
    = if live h then none else some (Function.update live h true) := rfl

theorem run_append (live : H → Bool) (as bs : List (Act H)) :
    run live (as ++ bs) = (run live as).bind fun live' => run live' bs := by
  induction as generalizing live with
  | nil => rfl
  | cons a as ih =>
    rw [List.cons_append, run_cons, run_cons]
    cases step live a with
    | none => rfl
    | some live' => exact ih live'

theorem run_touch {h : H} (hl : live h = true) (as : List (Act H)) :
    run live (.touch (some h) :: as) = run live as := by
  rw [run_cons, step_touch, if_pos hl]
  rfl

theorem run_release {h : H} (hl : live h = true) (as : List (Act H)) :
    run live (.release (some h) :: as) = run (Function.update live h false) as := by
  rw [run_cons, step_release, if_pos hl]
  rfl

theorem run_alloc {h : H} (hl : live h = false) (as : List (Act H)) :
    run live (.alloc h :: as) = run (Function.update live h true) as := by
  rw [run_cons, step_alloc, if_neg (by rw [hl]; exact Bool.noConfusion)]
  rfl

/-- Nothing can be done with an object that is not there. -/
theorem run_dead {h : H} (hl : live h = false) {a : Act H}
    (ha : a = .touch (some h) ∨ a = .release (some h)) (as : List (Act H)) :
    run live (a :: as) = none := by
  have hno : ¬ live h = true := by
    rw [hl]
    exact Bool.noConfusion
  rcases ha with rfl | rfl
  · rw [run_cons, step_touch, if_neg hno]
    rfl
  · rw [run_cons, step_release, if_neg hno]
    rfl

theorem not_disposed_of_none {as : List (Act H)} (h : run live as = none) : ¬ Disposed live as := by
  rintro ⟨live', hrun, -⟩
  rw [h] at hrun
  cases hrun

end Runs

/-! ## What a clean run means -/

/-- One act changes one object. -/
theorem step_count {live live' : H → Bool} {a : Act H} (h : step live a = some live') (x : H) :
    (if a = .release (some x) then 1 else 0) + (live' x).toNat
      = (live x).toNat + if a = .alloc x then 1 else 0 := by
  match a with
  | .touch none => cases h
  | .touch (some y) =>
    rw [step_touch] at h
    split at h
    · obtain rfl := Option.some.inj h
      simp
    · cases h
  | .release none => cases h
  | .release (some y) =>
    rw [step_release] at h
    split at h
    · rename_i hy
      obtain rfl := Option.some.inj h
      by_cases hx : x = y
      · subst hx
        simp [hy]
      · have hne : ¬ y = x := fun h => hx h.symm
        simp [Function.update_of_ne hx, hne]
    · cases h
  | .alloc y =>
    rw [step_alloc] at h
    split at h
    · cases h
    · rename_i hy
      obtain rfl := Option.some.inj h
      by_cases hx : x = y
      · subst hx
        simp [hy]
      · have hne : ¬ y = x := fun h => hx h.symm
        simp [Function.update_of_ne hx, hne]

/-- **Every object is released as often as it came to be**, but for what is left. -/
theorem run_count {live live' : H → Bool} {as : List (Act H)} (h : run live as = some live') (x : H) :
    as.count (.release (some x)) + (live' x).toNat = (live x).toNat + as.count (.alloc x) := by
  induction as generalizing live with
  | nil =>
    obtain rfl := Option.some.inj h
    simp
  | cons a as ih =>
    rw [run_cons] at h
    obtain ⟨mid, hmid, hrest⟩ := Option.bind_eq_some_iff.mp h
    have hstep := step_count hmid x
    have hall := ih hrest
    rw [List.count_cons, List.count_cons]
    simp only [beq_iff_eq]
    omega

/-- **Exactly once**. -/
theorem Disposed.once {live : H → Bool} {as : List (Act H)} (h : Disposed live as) {x : H}
    (hlive : live x = true) (hfresh : .alloc x ∉ as) : as.count (.release (some x)) = 1 := by
  obtain ⟨live', hrun, hnone⟩ := h
  have hcount := run_count hrun x
  rw [hnone x, hlive, List.count_eq_zero_of_not_mem hfresh] at hcount
  exact hcount

/-- An object that is not there is not mentioned. -/
theorem not_mentioned {live live' : H → Bool} {as : List (Act H)} (h : run live as = some live')
    {x : H} (hdead : live x = false) (hfresh : .alloc x ∉ as) : ∀ a ∈ as, a.handle ≠ some x := by
  induction as generalizing live with
  | nil => nofun
  | cons a as ih =>
    rw [run_cons] at h
    obtain ⟨mid, hmid, hrest⟩ := Option.bind_eq_some_iff.mp h
    have hstep := step_count hmid x
    rw [hdead, if_neg fun ha : a = .alloc x => hfresh (ha ▸ List.mem_cons_self)] at hstep
    have hmiddead : mid x = false := by
      cases hm : mid x with
      | false => rfl
      | true =>
        rw [hm] at hstep
        simp at hstep
    intro b hb
    rcases List.mem_cons.mp hb with rfl | hb
    · match b with
      | .touch none => nofun
      | .touch (some y) =>
        rintro hy
        obtain rfl : y = x := Option.some.inj hy
        rw [step_touch, if_neg (by rw [hdead]; exact Bool.noConfusion)] at hmid
        cases hmid
      | .release none => nofun
      | .release (some y) =>
        rintro hy
        obtain rfl : y = x := Option.some.inj hy
        rw [step_release, if_neg (by rw [hdead]; exact Bool.noConfusion)] at hmid
        cases hmid
      | .alloc y =>
        rintro hy
        obtain rfl : y = x := Option.some.inj hy
        exact absurd List.mem_cons_self hfresh
    · exact ih hrest hmiddead (fun ha => hfresh (List.mem_cons_of_mem a ha)) b hb

/-- **Not after its release**. -/
theorem Disposed.not_after {live : H → Bool} {as bs : List (Act H)} {x : H}
    (h : Disposed live (as ++ .release (some x) :: bs)) (hfresh : .alloc x ∉ bs) :
    ∀ b ∈ bs, b.handle ≠ some x := by
  obtain ⟨live', hrun, -⟩ := h
  rw [run_append] at hrun
  obtain ⟨mid, -, hrest⟩ := Option.bind_eq_some_iff.mp hrun
  rw [run_cons] at hrest
  obtain ⟨after, hafter, hrest⟩ := Option.bind_eq_some_iff.mp hrest
  rw [step_release] at hafter
  split at hafter
  · obtain rfl := Option.some.inj hafter
    exact not_mentioned hrest (Function.update_self _ _ _) hfresh
  · cases hafter

/-- **No NULL pointer** is touched or released. -/
theorem Disposed.not_null {live : H → Bool} {as : List (Act H)} (h : Disposed live as) :
    ∀ a ∈ as, a.handle ≠ none := by
  obtain ⟨live', hrun, -⟩ := h
  induction as generalizing live with
  | nil => nofun
  | cons a as ih =>
    rw [run_cons] at hrun
    obtain ⟨mid, hmid, hrest⟩ := Option.bind_eq_some_iff.mp hrun
    intro b hb
    rcases List.mem_cons.mp hb with rfl | hb
    · match b with
      | .touch none => cases hmid
      | .touch (some _) => nofun
      | .release none => cases hmid
      | .release (some _) => nofun
      | .alloc _ => nofun
    · exact ih hrest b hb

end ExtDrv.Disposal
