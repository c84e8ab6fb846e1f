import ExtDrv.Lib.SerialOrder

/-!
# Delivering from a window

A resequencer holds the numbers `xs` ahead of its base `l` and has delivered
the numbers `up`. `Ready` is what keeps its output in order: `up` is a chain
of successive numbers, and the next held number is less than half the number
space after the last one delivered, counted THROUGH the base. Delivering a
prefix (`Ready.deliver`) and taking a number in (`Ready.insert`) keep it;
every operation of a resequencer is a composition of the two.
-/

namespace ExtDrv.Serial

variable {m half l w s : Nat} {up xs pre post : List Nat}

/-- The output so far is in order, and what is held continues it. -/
structure Ready (m half : Nat) (up : List Nat) (l : Nat) (xs : List Nat) : Prop where
  chain : up.IsChain (After m half)
  lt : ∀ d ∈ up, d < m
  ahead : ∀ d ∈ up.getLast?, ∀ x ∈ xs.head?, fwd m d l + fwd m l x < half

theorem Ready.nil : Ready m half [] l xs where
  chain := List.IsChain.nil
  lt := by simp
  ahead := by simp

/-- The next held number comes after the last one delivered. -/
theorem Ready.after {x : Nat} (h : Ready m half up l (x :: xs)) (hm : half ≤ m) (hl : l < m)
    (hx : x < m) (hpos : 1 ≤ fwd m l x) : ∀ d ∈ up.getLast?, After m half d x := by
  intro d hd
  have hsum := h.ahead d hd x rfl
  have hadd := fwd_add (h.lt d (List.mem_of_getLast? hd)) hl hx (by omega)
  unfold After
  omega

/-- **Delivering** the prefix `pre` of what is held and moving the base to
`b`, between the two parts. -/
theorem Ready.deliver {b : Nat} (h : Ready m half up l (pre ++ post))
    (hwin : Window m l 1 w (pre ++ post)) (hm : half ≤ m) (hw : w < half) (hl : l < m)
    (hb : b < m) (hpre : ∀ x ∈ pre, fwd m l x ≤ fwd m l b)
    (hpost : ∀ y ∈ post, fwd m l b ≤ fwd m l y) :
    Ready m half (up ++ pre) b post := by
  have hchain : pre.IsChain (After m half) :=
    (hwin.sublist (List.sublist_append_left pre post)).isChain hl (by omega)
  refine ⟨List.isChain_append.mpr ⟨h.chain, hchain, ?_⟩, ?_, ?_⟩
  · -- the first of `pre` continues the output
    intro d hd x hx
    cases pre with
    | nil => cases hx
    | cons x' pre =>
        cases hx
        exact h.after hm hl (hwin.lt _ List.mem_cons_self) (hwin.low _ List.mem_cons_self) d hd
  · intro d hd
    rcases List.mem_append.mp hd with hd | hd
    · exact h.lt d hd
    · exact hwin.lt d (List.mem_append_left post hd)
  · intro d hd y hy
    have hymem := List.mem_of_mem_head? hy
    have hylt := hwin.lt y (List.mem_append_right pre hymem)
    have hyhi := hwin.high y (List.mem_append_right pre hymem)
    have hstep := fwd_sub hl hb hylt (hpost y hymem)
    have hle := hpost y hymem
    rcases List.eq_nil_or_concat pre with rfl | ⟨pre', p, rfl⟩
    · -- nothing delivered: the base alone moved
      rw [List.append_nil] at hd
      have hsum := h.ahead d hd y hy
      have hdlt := h.lt d (List.mem_of_getLast? hd)
      have hadd := fwd_add (c := b) hdlt hl hb (by omega)
      omega
    · -- the last one delivered lies between the old base and the new one
      have hdp : d = p := by
        rw [List.concat_eq_append, ← List.append_assoc] at hd
        simpa using hd.symm
      subst hdp
      have hmem : d ∈ pre'.concat d := by simp
      have hback := fwd_sub hl (hwin.lt d (List.mem_append_left post hmem)) hb (hpre d hmem)
      have hle' := hpre d hmem
      omega

/-- **Taking a number in**, where it belongs. -/
theorem Ready.insert (h : Ready m half up l (pre ++ post))
    (hwin : Window m l 1 w (pre ++ s :: post))
    (hnew : pre ++ post = [] → ∀ d ∈ up.getLast?, fwd m d l + fwd m l s < half) :
    Ready m half up l (pre ++ s :: post) := by
  refine ⟨h.chain, h.lt, fun d hd x hx => ?_⟩
  cases pre with
  | cons p pre => exact h.ahead d hd x hx
  | nil =>
      cases hx
      cases post with
      | nil => exact hnew rfl d hd
      -- the old head was within reach, and `s` comes before it
      | cons y post =>
          have hsum := h.ahead d hd y rfl
          have hlt := (List.pairwise_cons.mp hwin.sorted).1 y List.mem_cons_self
          omega

/-- Where a number belongs: behind those that pass `p`. -/
theorem Window.insert_split {lo lo' w' : Nat} {p : Nat → Bool} (h : Window m l lo w xs)
    (hp : ∀ x ∈ xs, p x = true ↔ fwd m l x ≤ fwd m l s) (hl : l < m) (hs : s < m)
    (hnew : s ∉ xs) (hlo : lo' ≤ lo) (hlos : lo' ≤ fwd m l s) (hhi : w ≤ w')
    (hhis : fwd m l s ≤ w') :
    Window m l lo' w' (xs.takeWhile p ++ s :: xs.dropWhile p) := by
  induction xs generalizing lo lo' with
  | nil => exact Window.nil.cons hs hlos hhis
  | cons x xs ih =>
      have hx := hp x List.mem_cons_self
      have hxlt := h.lt x List.mem_cons_self
      have hlow := h.low x List.mem_cons_self
      have hhigh := h.high x List.mem_cons_self
      have hne : fwd m l x ≠ fwd m l s := fun heq =>
        hnew (by rw [(fwd_left_inj hl hxlt hs).mp heq]; exact List.mem_cons_self)
      -- either `s` goes behind `x`, or it is the new head
      by_cases hpx : p x = true
      · rw [List.takeWhile_cons_of_pos hpx, List.dropWhile_cons_of_pos hpx, List.cons_append]
        have hle := hx.mp hpx
        have hrest := ih h.above_head (fun y hy => hp y (List.mem_cons_of_mem x hy))
          (fun hmem => hnew (List.mem_cons_of_mem x hmem)) le_rfl (by omega)
        exact hrest.cons hxlt (by omega) (by omega)
      · rw [List.takeWhile_cons_of_neg hpx, List.dropWhile_cons_of_neg hpx, List.nil_append]
        have hgt := mt hx.mpr hpx
        have hbehind : Window m l (fwd m l s + 1) w' (x :: xs) :=
          (h.above_head.mono le_rfl hhi).cons hxlt (by omega) (by omega)
        exact hbehind.cons hs hlos hhis

end ExtDrv.Serial
