import Mathlib.Data.List.Infix
import Mathlib.Data.List.TakeWhile

/-!
# Lines of a text

`find` is the search for a string in a text: what is left of the text from the first place on where
the string stands. The lines behind the separators of a text are told apart by `linesBehind`; to
search for a separator followed by `p` is to look for a line that begins with `p`.
-/

namespace ExtDrv.Lines

variable {α : Type*} [DecidableEq α]

/-- The text from the first place on where `p` stands. -/
def find (p : List α) : List α → Option (List α)
  | [] => if p <+: [] then some [] else none
  | a :: s => if p <+: a :: s then some (a :: s) else find p s

/-- The text up to the next separator. -/
def line (nl : α) (s : List α) : List α := s.takeWhile fun b => decide (b ≠ nl)

/-- The text from the next separator on. -/
def behind (nl : α) (s : List α) : List α := s.dropWhile fun b => decide (b ≠ nl)

/-- Every separator is followed by a line. -/
def linesBehind (nl : α) : List α → List (List α)
  | [] => []
  | a :: s => if a = nl then line nl s :: linesBehind nl s else linesBehind nl s

/-- The lines among them that begin with `p`. -/
def linesWith (nl : α) (p s : List α) : List (List α) :=
  (linesBehind nl s).filter fun l => decide (p <+: l)

variable {p s t : List α} {nl c : α}

theorem find_nil (p : List α) : find p [] = if p <+: [] then some [] else none := rfl

theorem find_cons (p : List α) (a : α) (s : List α) :
    find p (a :: s) = if p <+: a :: s then some (a :: s) else find p s := rfl

theorem linesBehind_cons (nl a : α) (s : List α) : linesBehind nl (a :: s)
    = if a = nl then line nl s :: linesBehind nl s else linesBehind nl s := rfl

theorem find_eq_some (h : find p s = some t) : p <+: t ∧ t <:+ s := by
  induction s with
  | nil =>
    rw [find_nil] at h
    split at h
    · next hp =>
      cases h
      exact ⟨hp, List.suffix_refl []⟩
    · cases h
  | cons a s ih =>
    rw [find_cons] at h
    split at h
    · next hp =>
      cases h
      exact ⟨hp, List.suffix_refl _⟩
    · obtain ⟨hp, hs⟩ := ih h
      exact ⟨hp, hs.trans (List.suffix_cons a s)⟩

theorem find_eq_none : find p s = none ↔ ¬ p <:+: s := by
  induction s with
  | nil =>
    rw [find_nil]
    split
    · next hp => simp [hp.isInfix]
    · next hp => simpa using hp
  | cons a s ih =>
    rw [find_cons, List.infix_cons_iff, not_or]
    split
    · next hp => simp [hp]
    · next hp => simp [hp, ih]

/-- Where `p` stands, it is what `find` stops at. -/
theorem find_of_prefix (h : p <+: s) : find p s = some s := by
  cases s with
  | nil => exact if_pos h
  | cons a s => exact if_pos h

/-- **Looking for one symbol**: it is behind the symbols that are not it. -/
theorem find_singleton (hs : c ∉ s) (t : List α) : find [c] (s ++ c :: t) = some (c :: t) := by
  induction s with
  | nil => exact find_of_prefix ⟨t, rfl⟩
  | cons a s ih =>
    rw [List.mem_cons, not_or] at hs
    have hne : ¬ [c] <+: a :: (s ++ c :: t) := by
      rw [List.cons_prefix_cons]
      exact fun h => hs.1 h.1
    rw [List.cons_append, find_cons, if_neg hne]
    exact ih hs.2

theorem find_singleton_none (hs : c ∉ s) : find [c] s = none := by
  rw [find_eq_none, List.singleton_infix_iff]
  exact hs

theorem line_append_behind (nl : α) (s : List α) : line nl s ++ behind nl s = s :=
  List.takeWhile_append_dropWhile

theorem notMem_line (nl : α) (s : List α) : nl ∉ line nl s := by
  intro h
  have hne := List.mem_takeWhile_imp h
  simp at hne

/-- The line in front of a separator. -/
theorem line_append_cons (hs : nl ∉ s) (r : List α) : line nl (s ++ nl :: r) = s := by
  have hall (b : α) (hb : b ∈ s) : decide (b ≠ nl) = true := by
    rw [decide_eq_true_iff]
    rintro rfl
    exact hs hb
  rw [line, List.takeWhile_append_of_pos hall, List.takeWhile_cons_of_neg (by simp),
    List.append_nil]

/-- Looking for the end of a line: it is there, or the text ends. -/
theorem find_end (nl : α) (s : List α) : (find [nl] s).getD [] = behind nl s := by
  induction s with
  | nil => simp [find_nil, behind]
  | cons a s ih =>
    by_cases ha : a = nl
    · have hp : [nl] <+: nl :: s := ⟨s, rfl⟩
      rw [ha, find_of_prefix hp, behind, List.dropWhile_cons_of_neg (by simp)]
      rfl
    · have hne : ¬ [nl] <+: a :: s := fun h => ha (List.cons_prefix_cons.mp h).1.symm
      rw [find_cons, if_neg hne, ih, behind, behind, List.dropWhile_cons_of_pos (by simp [ha])]

/-- What is in front of the end. -/
theorem take_line (nl : α) (s : List α) : s.take (s.length - (behind nl s).length) = line nl s := by
  have hsplit := line_append_behind nl s
  have htake : (line nl s ++ behind nl s).take (line nl s).length = line nl s := List.take_left
  have hlen := congrArg List.length hsplit
  rw [List.length_append] at hlen
  rw [hsplit] at htake
  rwa [← hlen, Nat.add_sub_cancel]

/-- A prefix without a separator is one of the line. -/
theorem prefix_line (hp : nl ∉ p) : p <+: line nl s ↔ p <+: s := by
  constructor
  · exact fun h => h.trans (List.takeWhile_prefix _)
  · rintro ⟨r, rfl⟩
    have hall (b : α) (hb : b ∈ p) : decide (b ≠ nl) = true := by
      rw [decide_eq_true_iff]
      rintro rfl
      exact hp hb
    rw [line, List.takeWhile_append_of_pos hall]
    exact List.prefix_append ..

/-- The lines begin behind the first separator. -/
theorem linesBehind_behind (nl : α) (s : List α) :
    linesBehind nl (behind nl s) = linesBehind nl s := by
  induction s with
  | nil => rfl
  | cons a s ih =>
    by_cases ha : a = nl
    · rw [behind, List.dropWhile_cons_of_neg (by simp [ha])]
    · rw [behind, List.dropWhile_cons_of_pos (by simp [ha]), linesBehind_cons, if_neg ha]
      exact ih

theorem linesWith_cons (p s : List α) : linesWith nl p (nl :: s)
    = if p <+: line nl s then line nl s :: linesWith nl p s else linesWith nl p s := by
  rw [linesWith, linesBehind_cons, if_pos rfl, List.filter_cons]
  simp [linesWith]

theorem linesWith_cons_of_ne {a : α} (ha : a ≠ nl) (p s : List α) :
    linesWith nl p (a :: s) = linesWith nl p s := by
  rw [linesWith, linesBehind_cons, if_neg ha, linesWith]

/-- No line begins with `p`. -/
theorem find_line_eq_none (hp : nl ∉ p) : find (nl :: p) s = none ↔ linesWith nl p s = [] := by
  induction s with
  | nil => simp [find_nil, linesWith, linesBehind]
  | cons a s ih =>
    by_cases ha : a = nl
    · subst ha
      by_cases hs : p <+: s
      · simp [find_cons, linesWith_cons, prefix_line hp, hs]
      · simp [find_cons, linesWith_cons, prefix_line hp, hs, ih]
    · simp [find_cons, linesWith_cons_of_ne ha, Ne.symm ha, ih]

/-- **Looking for a line**: the first one that begins with `p` is behind the separator found, and
the others are behind it. -/
theorem find_line_eq_some (hp : nl ∉ p) (h : find (nl :: p) s = some t) :
    ∃ u, t = nl :: u ∧ p <+: u ∧ linesWith nl p s = line nl u :: linesWith nl p u := by
  induction s with
  | nil => simp [find_nil] at h
  | cons a s ih =>
    rw [find_cons] at h
    by_cases ha : a = nl
    · subst ha
      by_cases hs : p <+: s
      · rw [if_pos (List.cons_prefix_cons.mpr ⟨rfl, hs⟩)] at h
        cases h
        exact ⟨s, rfl, hs, by rw [linesWith_cons, if_pos ((prefix_line hp).mpr hs)]⟩
      · rw [if_neg fun h => hs (List.cons_prefix_cons.mp h).2] at h
        obtain ⟨u, rfl, hu, heq⟩ := ih h
        exact ⟨u, rfl, hu, by rw [linesWith_cons, if_neg ((prefix_line hp).not.mpr hs), heq]⟩
    · rw [if_neg fun h => ha (List.cons_prefix_cons.mp h).1.symm] at h
      rw [linesWith_cons_of_ne ha]
      exact ih h

/-- The separator is not where another symbol is. -/
theorem find_line_cons {a : α} (ha : a ≠ nl) (p s : List α) :
    find (nl :: p) (a :: s) = find (nl :: p) s :=
  if_neg fun h => ha (List.cons_prefix_cons.mp h).1.symm

theorem notMem_of_mem_linesBehind {l : List α} (h : l ∈ linesBehind nl s) : nl ∉ l := by
  induction s with
  | nil => cases h
  | cons a s ih =>
    rw [linesBehind_cons] at h
    split at h
    · rcases List.mem_cons.mp h with rfl | h
      · exact notMem_line nl s
      · exact ih h
    · exact ih h

theorem mem_of_mem_linesBehind {l : List α} (h : l ∈ linesBehind nl s) {b : α} (hb : b ∈ l) :
    b ∈ s := by
  induction s with
  | nil => cases h
  | cons a s ih =>
    rw [linesBehind_cons] at h
    refine List.mem_cons_of_mem a ?_
    split at h
    · rcases List.mem_cons.mp h with rfl | h
      · exact (List.takeWhile_prefix _).subset hb
      · exact ih h
    · exact ih h

/-- No line begins with a string of more than one line. -/
theorem linesWith_of_mem (hp : nl ∈ p) (s : List α) : linesWith nl p s = [] := by
  refine List.filter_eq_nil_iff.mpr fun l hl => ?_
  rw [decide_eq_true_iff]
  exact fun h => notMem_of_mem_linesBehind hl (h.subset hp)

end ExtDrv.Lines
