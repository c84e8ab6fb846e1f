import Mathlib.Data.List.Basic
import Mathlib.Data.List.Chain

/-!
# Serial numbers

Counters modulo `m`, compared by how far one lies AHEAD of another. The
relation is not an order on all of them; seen from a fixed base the numbers
are the naturals below `m` again, and everything here moves between bases:
`fwd_add` and `fwd_sub` are the only arithmetic a client needs.

`Window m base lo hi xs` is the shape of a resequencing buffer: the numbers
`xs` strictly increase seen from `base` and lie between `lo` and `hi` ahead
of it.
-/

namespace ExtDrv.Serial

variable {m : Nat}

/-! ## Distance ahead -/

/-- How far `b` lies ahead of `a`, modulo `m`. -/
def fwd (m a b : Nat) : Nat := (b + (m - a % m)) % m

/-- `b` comes after `a`, less than `h` ahead of it. -/
def After (m h a b : Nat) : Prop := 0 < fwd m a b ∧ fwd m a b < h

instance (m h a b : Nat) : Decidable (After m h a b) :=
  inferInstanceAs (Decidable (0 < fwd m a b ∧ fwd m a b < h))

theorem fwd_of_lt {a b : Nat} (ha : a < m) (hb : b < m) :
    fwd m a b = if a ≤ b then b - a else b + m - a := by
  unfold fwd
  rw [Nat.mod_eq_of_lt ha]
  split
  · rename_i hab
    rw [show b + (m - a) = (b - a) + m by omega, Nat.add_mod_right]
    exact Nat.mod_eq_of_lt (by omega)
  · rw [← Nat.add_sub_assoc (by omega)]
    exact Nat.mod_eq_of_lt (by omega)

theorem fwd_self {a : Nat} (ha : a < m) : fwd m a a = 0 := by
  simp [fwd_of_lt ha ha]

theorem fwd_eq_zero_iff {a b : Nat} (ha : a < m) (hb : b < m) :
    fwd m a b = 0 ↔ a = b := by
  rw [fwd_of_lt ha hb]
  split <;> omega

theorem fwd_left_inj {a b c : Nat} (ha : a < m) (hb : b < m) (hc : c < m) :
    fwd m a b = fwd m a c ↔ b = c := by
  rw [fwd_of_lt ha hb, fwd_of_lt ha hc]
  split <;> split <;> omega

/-- Seen from a base that `b` has not passed. -/
theorem fwd_sub {a b c : Nat} (ha : a < m) (hb : b < m) (hc : c < m)
    (h : fwd m a b ≤ fwd m a c) : fwd m b c = fwd m a c - fwd m a b := by
  -- which of the three numbers the counter wrapped between
  rw [fwd_of_lt ha hb, fwd_of_lt ha hc] at *
  rw [fwd_of_lt hb hc]
  split at h <;> split at h <;> split <;> omega

/-- Seen from a base that `b` has passed: once around. -/
theorem fwd_wrap {a b c : Nat} (ha : a < m) (hb : b < m) (hc : c < m)
    (h : fwd m a c < fwd m a b) : fwd m b c = fwd m a c + m - fwd m a b := by
  rw [fwd_of_lt ha hb, fwd_of_lt ha hc] at *
  rw [fwd_of_lt hb hc]
  split at h <;> split at h <;> split <;> omega

theorem fwd_add {a b c : Nat} (ha : a < m) (hb : b < m) (hc : c < m)
    (h : fwd m a b + fwd m b c < m) : fwd m a c = fwd m a b + fwd m b c := by
  rw [fwd_of_lt ha hb, fwd_of_lt hb hc] at *
  rw [fwd_of_lt ha hc]
  split at h <;> split at h <;> split <;> omega

/-- A point `b` short of `c`, seen from a base behind both. -/
theorem fwd_sub_right {a b c : Nat} (ha : a < m) (hb : b < m) (hc : c < m)
    (h : fwd m b c ≤ fwd m a c) : fwd m a b = fwd m a c - fwd m b c := by
  rw [fwd_of_lt ha hc, fwd_of_lt hb hc] at *
  rw [fwd_of_lt ha hb]
  split at h <;> split at h <;> split <;> omega

/-- The number `d` ahead of `a`. -/
theorem fwd_ahead {a d : Nat} (ha : a < m) (hd : d < m) : fwd m a ((a + d) % m) = d := by
  rw [fwd_of_lt ha (Nat.mod_lt _ (by omega))]
  rcases Nat.lt_or_ge (a + d) m with h | h
  · rw [Nat.mod_eq_of_lt h, if_pos (by omega)]
    omega
  · rw [Nat.mod_eq_sub_mod h, Nat.mod_eq_of_lt (by omega), if_neg (by omega)]
    omega

theorem eq_ahead_iff {a b d : Nat} (ha : a < m) (hb : b < m) (hd : d < m) :
    b = (a + d) % m ↔ fwd m a b = d := by
  rw [← fwd_left_inj ha hb (Nat.mod_lt _ (by omega)), fwd_ahead ha hd]

/-! ## Windows -/

/-- The numbers `xs` strictly increase seen from `base` and lie at least
`lo` and at most `hi` ahead of it. -/
structure Window (m base lo hi : Nat) (xs : List Nat) : Prop where
  sorted : xs.Pairwise fun x y => fwd m base x < fwd m base y
  low : ∀ x ∈ xs, lo ≤ fwd m base x
  high : ∀ x ∈ xs, fwd m base x ≤ hi
  lt : ∀ x ∈ xs, x < m

instance (m base lo hi : Nat) (xs : List Nat) : Decidable (Window m base lo hi xs) :=
  decidable_of_iff
    (xs.Pairwise (fun x y => fwd m base x < fwd m base y) ∧ (∀ x ∈ xs, lo ≤ fwd m base x)
      ∧ (∀ x ∈ xs, fwd m base x ≤ hi) ∧ ∀ x ∈ xs, x < m)
    ⟨fun h => ⟨h.1, h.2.1, h.2.2.1, h.2.2.2⟩, fun h => ⟨h.sorted, h.low, h.high, h.lt⟩⟩

variable {base lo hi : Nat} {xs : List Nat}

theorem Window.nil : Window m base lo hi [] := by
  constructor <;> simp

theorem Window.sublist {ys : List Nat} (h : Window m base lo hi xs) (hs : ys.Sublist xs) :
    Window m base lo hi ys where
  sorted := h.sorted.sublist hs
  low x hx := h.low x (hs.mem hx)
  high x hx := h.high x (hs.mem hx)
  lt x hx := h.lt x (hs.mem hx)

theorem Window.tail {x : Nat} (h : Window m base lo hi (x :: xs)) : Window m base lo hi xs :=
  h.sublist (List.sublist_cons_self x xs)

/-- The numbers behind the head. -/
theorem Window.above_head {x : Nat} (h : Window m base lo hi (x :: xs)) :
    Window m base (fwd m base x + 1) hi xs where
  sorted := h.tail.sorted
  low y hy := (List.pairwise_cons.mp h.sorted).1 y hy
  high := h.tail.high
  lt := h.tail.lt

theorem Window.mono {lo' hi' : Nat} (h : Window m base lo hi xs) (hlo : lo' ≤ lo)
    (hhi : hi ≤ hi') : Window m base lo' hi' xs where
  sorted := h.sorted
  low x hx := hlo.trans (h.low x hx)
  high x hx := (h.high x hx).trans hhi
  lt := h.lt

theorem Window.cons {x : Nat} (hx : x < m) (hlo : lo ≤ fwd m base x)
    (hhi : fwd m base x ≤ hi) (h : Window m base (fwd m base x + 1) hi xs) :
    Window m base lo hi (x :: xs) where
  sorted := List.pairwise_cons.mpr ⟨h.low, h.sorted⟩
  low y hy := by
    rcases List.mem_cons.mp hy with rfl | hy
    · exact hlo
    · have := h.low y hy
      omega
  high y hy := by
    rcases List.mem_cons.mp hy with rfl | hy
    · exact hhi
    · exact h.high y hy
  lt y hy := by
    rcases List.mem_cons.mp hy with rfl | hy
    · exact hx
    · exact h.lt y hy

/-- **Capacity**: a window holds no more numbers than it has places. -/
theorem Window.length_le (h : Window m base lo hi xs) : xs.length ≤ hi + 1 - lo := by
  induction xs generalizing lo with
  | nil => simp
  | cons x xs ih =>
      have hlen := ih h.above_head
      have hlo := h.low x List.mem_cons_self
      have hhi := h.high x List.mem_cons_self
      simp only [List.length_cons]
      omega

/-- **Moving the base** forward, not past any of the numbers. -/
theorem Window.rebase {base' lo' hi' : Nat} (h : Window m base lo hi xs) (hb : base < m)
    (hb' : base' < m) (hlo : fwd m base base' + lo' ≤ lo)
    (hhi : hi ≤ fwd m base base' + hi') : Window m base' lo' hi' xs := by
  have hmove : ∀ x ∈ xs, fwd m base' x = fwd m base x - fwd m base base' := fun x hx =>
    fwd_sub hb hb' (h.lt x hx) (by have := h.low x hx; omega)
  refine ⟨?_, ?_, ?_, h.lt⟩
  -- the same distance comes off both sides
  · refine h.sorted.imp_of_mem fun {x y} hx hy hxy => ?_
    have := h.low x hx
    rw [hmove x hx, hmove y hy]
    omega
  · intro x hx
    have := h.low x hx
    rw [hmove x hx]
    omega
  · intro x hx
    have := h.high x hx
    rw [hmove x hx]
    omega

/-- Dropping the numbers up to `t` ahead of the base. -/
theorem Window.dropWhile {p : Nat → Bool} {t : Nat} (h : Window m base lo hi xs)
    (hp : ∀ x ∈ xs, p x = true ↔ fwd m base x ≤ t) :
    Window m base (max lo (t + 1)) hi (xs.dropWhile p) := by
  induction xs with
  | nil => exact Window.nil
  | cons x xs ih =>
      -- the first number kept is past `t`, and so is all behind it
      by_cases hx : p x = true
      · rw [List.dropWhile_cons_of_pos hx]
        exact ih h.tail fun y hy => hp y (List.mem_cons_of_mem x hy)
      · rw [List.dropWhile_cons_of_neg hx]
        have hlt : t < fwd m base x := by
          have := mt (hp x List.mem_cons_self).mpr hx
          omega
        have hlo := h.low x List.mem_cons_self
        exact h.above_head.cons (h.lt x List.mem_cons_self) (by omega)
          (h.high x List.mem_cons_self)

/-- A window shorter than `half` is a chain of successive numbers. -/
theorem Window.isChain {half : Nat} (h : Window m base lo hi xs) (hb : base < m)
    (hhi : hi < half + lo) : xs.IsChain (After m half) := by
  induction xs generalizing lo with
  | nil => exact List.IsChain.nil
  | cons x xs ih =>
      refine List.isChain_cons.mpr ⟨fun y hy => ?_, ih h.above_head ?_⟩
      · have hmem := List.mem_of_mem_head? hy
        have hxy := h.above_head.low y hmem
        have hx := h.low x List.mem_cons_self
        have hy := h.above_head.high y hmem
        have hd := fwd_sub hb (h.lt x List.mem_cons_self) (h.tail.lt y hmem) (by omega)
        unfold After
        omega
      · have := h.low x List.mem_cons_self
        omega

end ExtDrv.Serial
