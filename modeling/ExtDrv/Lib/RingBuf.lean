import Mathlib.Logic.Function.Basic
import Mathlib.Data.List.Nodup

/-!
# Ring buffers

`n` slots, a head index that wraps, and the FIFO queue the slots from the
head on represent. `Holds slots head q` is the representation relation;
pushing at the tail and popping at the head preserve it, provided the
queue never outgrows the ring.
-/

namespace ExtDrv.RingBuf

variable {n : Nat} {α : Type*}

/-- The next index of the ring: `p + 1`, or `0` past the end. -/
def wrapSucc (p : Fin n) : Fin n :=
  if h : p.val + 1 < n then ⟨p.val + 1, h⟩ else ⟨0, by have := p.isLt; omega⟩

/-- The `i`-th slot from `head` on. -/
def slotAt (head : Fin n) (i : Nat) : Fin n :=
  ⟨(head.val + i) % n, Nat.mod_lt _ (by have := head.isLt; omega)⟩

@[simp] theorem slotAt_zero (head : Fin n) : slotAt head 0 = head := by
  ext
  simp [slotAt, Nat.mod_eq_of_lt head.isLt]

theorem wrapSucc_val (p : Fin n) : (wrapSucc p).val = (p.val + 1) % n := by
  have hp := p.isLt
  unfold wrapSucc
  split
  · rename_i h
    exact (Nat.mod_eq_of_lt h).symm
  · have hn : p.val + 1 = n := by omega
    simp [hn]

theorem slotAt_wrapSucc (head : Fin n) (i : Nat) :
    slotAt (wrapSucc head) i = slotAt head (i + 1) := by
  ext
  simp only [slotAt, wrapSucc_val, Nat.mod_add_mod]
  congr 1
  omega

theorem wrapSucc_slotAt (head : Fin n) (i : Nat) :
    wrapSucc (slotAt head i) = slotAt head (i + 1) := by
  ext
  simp only [wrapSucc_val, slotAt, Nat.mod_add_mod, Nat.add_assoc]

theorem slotAt_slotAt (head : Fin n) (i j : Nat) :
    slotAt (slotAt head i) j = slotAt head (i + j) := by
  ext
  simp only [slotAt, Nat.mod_add_mod, Nat.add_assoc]

/-- Slots less than a turn apart are different. -/
theorem slotAt_inj {head : Fin n} {i j : Nat} (hi : i < n) (hj : j < n)
    (h : slotAt head i = slotAt head j) : i = j := by
  have hv : (head.val + i) % n = (head.val + j) % n := congrArg Fin.val h
  have hh := head.isLt
  -- by whether each of the two has wrapped
  rcases Nat.lt_or_ge (head.val + i) n with h1 | h1 <;>
    rcases Nat.lt_or_ge (head.val + j) n with h2 | h2
  · rw [Nat.mod_eq_of_lt h1, Nat.mod_eq_of_lt h2] at hv
    omega
  · rw [Nat.mod_eq_of_lt h1, Nat.mod_eq_sub_mod h2,
      Nat.mod_eq_of_lt (by omega)] at hv
    omega
  · rw [Nat.mod_eq_sub_mod h1, Nat.mod_eq_of_lt (by omega),
      Nat.mod_eq_of_lt h2] at hv
    omega
  · rw [Nat.mod_eq_sub_mod h1, Nat.mod_eq_of_lt (by omega),
      Nat.mod_eq_sub_mod h2, Nat.mod_eq_of_lt (by omega)] at hv
    omega

/-! ## The representation relation -/

/-- The slots from `head` on hold the queue `q`, oldest first. -/
def Holds (slots : Fin n → α) (head : Fin n) (q : List α) : Prop :=
  ∀ (i : Nat) (h : i < q.length), slots (slotAt head i) = q[i]

/-- The oldest element sits at the head. -/
theorem Holds.head {slots : Fin n → α} {head : Fin n} {x : α} {q : List α}
    (h : Holds slots head (x :: q)) : slots head = x := by
  have := h 0 (by simp)
  simpa using this

/-- Dropping the oldest element moves the head. -/
theorem Holds.tail {slots : Fin n → α} {head : Fin n} {x : α} {q : List α}
    (h : Holds slots head (x :: q)) : Holds slots (wrapSucc head) q := by
  intro i hi
  rw [slotAt_wrapSucc]
  exact h (i + 1) (by simpa using hi)

/-- Writing the head slot does not disturb the elements behind it. -/
theorem Holds.pop_set {slots : Fin n → α} {head : Fin n} {x : α} {q : List α}
    (h : Holds slots head (x :: q)) (hlen : q.length < n) (y : α) :
    Holds (Function.update slots head y) (wrapSucc head) q := by
  intro i hi
  have hne : slotAt (wrapSucc head) i ≠ head := by
    intro heq
    rw [slotAt_wrapSucc] at heq
    have hzero : slotAt head (i + 1) = slotAt head 0 := by simpa using heq
    have := slotAt_inj (by omega) (by omega) hzero
    omega
  rw [Function.update_of_ne hne]
  exact h.tail i hi

/-! ## The slots in use -/

/-- The `k` slots from `head` on. -/
def slotsFrom (head : Fin n) (k : Nat) : List (Fin n) := (List.range k).map (slotAt head)

@[simp] theorem length_slotsFrom (head : Fin n) (k : Nat) : (slotsFrom head k).length = k := by
  simp [slotsFrom]

/-- One more at the tail. -/
theorem slotsFrom_succ (head : Fin n) (k : Nat) :
    slotsFrom head (k + 1) = slotsFrom head k ++ [slotAt head k] := by
  simp [slotsFrom, List.range_succ]

/-- One more in front. -/
theorem slotsFrom_succ_left (head : Fin n) (k : Nat) :
    slotsFrom head (k + 1) = head :: slotsFrom (wrapSucc head) k := by
  simp [slotsFrom, List.range_succ_eq_map, slotAt_wrapSucc]

/-- They are different as long as there are enough of them. -/
theorem nodup_slotsFrom {head : Fin n} {k : Nat} (h : k ≤ n) : (slotsFrom head k).Nodup := by
  refine List.Nodup.map_on (fun i hi j hj hij => ?_) List.nodup_range
  rw [List.mem_range] at hi hj
  exact slotAt_inj (by omega) (by omega) hij

/-! ## Rings whose length is chosen at run time

The slots are an unbounded array of which the first `len` are used. Only the
two indices are kept, so `head = tail` means empty and at most `len - 1`
elements can be told from an empty ring. -/

/-- How far the write index is ahead of the read index. -/
def pending (len head tail : Nat) : Nat := (head + len - tail) % len

/-- The elements from the read index up to the write index. -/
def contents (slots : Nat → α) (len head tail : Nat) : List α :=
  (List.range (pending len head tail)).map fun i => slots ((tail + i) % len)

variable {slots : Nat → α} {len head tail : Nat}

@[simp] theorem length_contents : (contents slots len head tail).length = pending len head tail := by
  simp [contents]

theorem pending_eq (hh : head < len) (ht : tail < len) :
    pending len head tail = if tail ≤ head then head - tail else head + len - tail := by
  unfold pending
  split
  · rw [show head + len - tail = head - tail + len by omega, Nat.add_mod_right,
      Nat.mod_eq_of_lt (by omega)]
  · exact Nat.mod_eq_of_lt (by omega)

theorem pending_lt (hh : head < len) : pending len head tail < len :=
  Nat.mod_lt _ (by omega)

theorem pending_self (hh : head < len) : pending len head head = 0 := by
  rw [pending_eq hh hh, if_pos (Nat.le_refl _), Nat.sub_self]

/-- An empty ring is one whose indices meet. -/
theorem pending_eq_zero (hh : head < len) (ht : tail < len) :
    pending len head tail = 0 ↔ head = tail := by
  rw [pending_eq hh ht]
  split <;> omega

theorem succ_mod (hh : head < len) :
    (head + 1) % len = if head + 1 = len then 0 else head + 1 := by
  split
  · rename_i h
    rw [h, Nat.mod_self]
  · exact Nat.mod_eq_of_lt (by omega)

theorem succ_mod_lt (hh : head < len) : (head + 1) % len < len :=
  Nat.mod_lt _ (by omega)

/-- The slot `i` places past the read index. -/
theorem add_mod_eq (ht : tail < len) {i : Nat} (hi : i < len) :
    (tail + i) % len = if tail + i < len then tail + i else tail + i - len := by
  split
  · exact Nat.mod_eq_of_lt ‹_›
  · rw [Nat.mod_eq_sub_mod (by omega), Nat.mod_eq_of_lt (by omega)]

/-- The write index is the slot past the last element. -/
theorem add_pending (hh : head < len) (ht : tail < len) :
    (tail + pending len head tail) % len = head := by
  rw [add_mod_eq ht (pending_lt hh), pending_eq hh ht]
  split <;> split <;> omega

theorem pending_push (hh : head < len) (ht : tail < len)
    (hroom : pending len head tail + 1 < len) :
    pending len ((head + 1) % len) tail = pending len head tail + 1 := by
  rw [pending_eq (succ_mod_lt hh) ht, succ_mod hh]
  rw [pending_eq hh ht] at hroom ⊢
  split at hroom <;> split <;> split <;> omega

/-- **Overrun**: a write that closes the last gap makes the ring look empty. -/
theorem pending_overrun (hh : head < len) (ht : tail < len)
    (hfull : pending len head tail + 1 = len) :
    pending len ((head + 1) % len) tail = 0 := by
  rw [pending_eq_zero (succ_mod_lt hh) ht, succ_mod hh]
  rw [pending_eq hh ht] at hfull
  split at hfull <;> split <;> omega

theorem pending_pop (hh : head < len) (ht : tail < len) (hne : head ≠ tail) :
    pending len head tail = pending len head ((tail + 1) % len) + 1 := by
  rw [pending_eq hh ht, pending_eq hh (succ_mod_lt ht), succ_mod ht]
  split <;> split <;> split <;> omega

@[simp] theorem contents_self (hh : head < len) : contents slots len head head = [] := by
  rw [contents, pending_self hh]
  rfl

/-- **Push** with room to spare: the element joins at the end. -/
theorem contents_push (hh : head < len) (ht : tail < len)
    (hroom : pending len head tail + 1 < len) (x : α) :
    contents (Function.update slots head x) len ((head + 1) % len) tail
      = contents slots len head tail ++ [x] := by
  rw [contents, pending_push hh ht hroom, List.range_succ, List.map_append, List.map_singleton,
    add_pending hh ht, Function.update_self, contents]
  congr 1
  apply List.map_congr_left
  intro i hi
  have hlt : i < pending len head tail := List.mem_range.mp hi
  -- the slot written is none of those that are read
  have hne : (tail + i) % len ≠ head := by
    have hp : pending len head tail < len := pending_lt hh
    rw [add_mod_eq ht (by omega)]
    rw [pending_eq hh ht] at hlt hp
    split at hlt <;> split <;> omega
  rw [Function.update_of_ne hne]

/-- **Pop**: the oldest element leaves. -/
theorem contents_pop (hh : head < len) (ht : tail < len) (hne : head ≠ tail) :
    contents slots len head tail
      = slots tail :: contents slots len head ((tail + 1) % len) := by
  rw [contents, pending_pop hh ht hne, List.range_succ_eq_map, List.map_cons, List.map_map,
    Nat.add_zero, Nat.mod_eq_of_lt ht, contents]
  congr 1
  apply List.map_congr_left
  intro i _
  rw [Function.comp_apply, Nat.mod_add_mod]
  congr 2
  omega

end ExtDrv.RingBuf
