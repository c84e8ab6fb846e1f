import Mathlib.Data.BitVec
import Mathlib.Data.List.Basic

/-!
# Words as bytes, and a memory on a serial bus

The big-endian bytes of a word and the way back. Then a memory that a master
reads and writes over a serial bus, byte by byte: after a start it listens for
its own address, takes a number of address bytes into a pointer, and stores or
answers one byte after the other, the pointer going up by one each time.
-/

namespace ExtDrv.ByteMemory

/-! ## Big-endian bytes -/

/-- The byte of a word that has `i` bytes below it. -/
def byteAt (w : BitVec 32) (i : Nat) : BitVec 8 := (w >>> (i * 8)).setWidth 8

/-- The last `n` bytes of a word, most significant first. -/
def bytesBE (n : Nat) (w : BitVec 32) : List (BitVec 8) :=
  (List.range n).map fun i => byteAt w (n - i - 1)

@[simp] theorem length_bytesBE (n : Nat) (w : BitVec 32) : (bytesBE n w).length = n := by
  simp [bytesBE]

theorem getElem?_bytesBE {n i : Nat} (hi : i < n) (w : BitVec 32) :
    (bytesBE n w)[i]? = some (byteAt w (n - i - 1)) := by
  simp [bytesBE, hi]

/-- The word that the bytes `b 0 … b (m - 1)` of `n` make, each shifted to its
place. -/
def gather (n : Nat) (b : Nat → BitVec 8) (m : Nat) : BitVec 32 :=
  (List.range m).foldl (fun d i => d ||| (b i).setWidth 32 <<< ((n - i - 1) * 8)) 0#32

theorem gather_succ (n : Nat) (b : Nat → BitVec 8) (m : Nat) :
    gather n b (m + 1) = gather n b m ||| (b m).setWidth 32 <<< ((n - m - 1) * 8) := by
  simp [gather, List.range_succ]

theorem gather_congr {n m : Nat} {b b' : Nat → BitVec 8} (h : ∀ i, i < m → b i = b' i) :
    gather n b m = gather n b' m := by
  induction m with
  | zero => rfl
  | succ m ih =>
    rw [gather_succ, gather_succ, ih fun i hi => h i (Nat.lt_succ_of_lt hi), h m (Nat.lt_succ_self m)]

/-- A byte put back into its place. -/
theorem getLsbD_byteAt_shift (w : BitVec 32) (j k : Nat) (hk : k < 32) :
    ((byteAt w j).setWidth 32 <<< (j * 8)).getLsbD k
      = (decide (j * 8 ≤ k ∧ k < (j + 1) * 8) && w.getLsbD k) := by
  simp only [byteAt, BitVec.getLsbD_shiftLeft, BitVec.getLsbD_setWidth, BitVec.getLsbD_ushiftRight]
  by_cases hlo : j * 8 ≤ k
  · have hback : j * 8 + (k - j * 8) = k := by omega
    by_cases hhi : k < (j + 1) * 8
    · have h1 : k - j * 8 < 8 := by omega
      have h2 : k - j * 8 < 32 := by omega
      simp [hk, hlo, hhi, hback, h1, h2]
    · have h1 : ¬ k - j * 8 < 8 := by omega
      simp [hlo, hhi, h1]
  · have h1 : k < j * 8 := by omega
    simp [hlo, h1]

/-- After `m` of the `n` bytes, the word has the bits they carry and no other. -/
theorem getLsbD_gather (n : Nat) (w : BitVec 32) {m : Nat} (hm : m ≤ n) (k : Nat) (hk : k < 32) :
    (gather n (fun i => byteAt w (n - i - 1)) m).getLsbD k
      = (decide ((n - m) * 8 ≤ k ∧ k < n * 8) && w.getLsbD k) := by
  induction m with
  | zero =>
    have hnone : ¬ (n * 8 ≤ k ∧ k < n * 8) := by omega
    simp [gather, hnone]
  | succ m ih =>
    have hplace : n - m - 1 + 1 = n - m := by omega
    rw [gather_succ, BitVec.getLsbD_or, ih (by omega), getLsbD_byteAt_shift w _ k hk, hplace,
      ← Bool.and_or_distrib_right]
    congr 1
    rw [← Bool.decide_or, decide_eq_decide]
    omega

/-- **The way back**: all the bytes together make the word, cut to `n` bytes. -/
theorem gather_bytesBE (n : Nat) (w : BitVec 32) :
    gather n (fun i => byteAt w (n - i - 1)) n = BitVec.ofNat 32 (w.toNat % 256 ^ n) := by
  have hpow : 256 ^ n = 2 ^ (n * 8) := by
    rw [Nat.mul_comm, pow_mul]
    rfl
  refine BitVec.eq_of_getLsbD_eq fun k hk => ?_
  rw [getLsbD_gather n w (le_refl n) k hk, hpow, BitVec.getLsbD_ofNat, Nat.testBit_mod_two_pow]
  simp [hk, BitVec.getLsbD]

/-! ## The bus -/

/-- What a master does on the bus, byte by byte. A byte it receives is answered by
the slave. -/
inductive Symbol where
  | start
  | sent (b : BitVec 8)
  | received (b : BitVec 8) (ack : Bool)
  | stop
  deriving DecidableEq, Repr

/-- A memory: its address on the bus, how many bytes its register addresses have,
and how many bytes it holds. -/
structure Device where
  own : BitVec 7
  addrBytes : Nat
  size : Nat

/-- What the memory does next: nothing, listen for its address, take `left` more
address bytes and then store, or answer. -/
inductive Phase where
  | deaf
  | called
  | writing (left : Nat)
  | answering
  deriving DecidableEq, Repr

/-- The contents, the pointer and the phase. The pointer runs on past the end; the
cell it means is the one modulo the size. -/
structure Cells where
  cell : Nat → BitVec 8
  pointer : Nat
  phase : Phase

variable (D : Device)

/-- The memory hears a start. -/
def Cells.hearStart (c : Cells) : Cells := { c with phase := .called }

/-- The memory hears a stop. -/
def Cells.hearStop (c : Cells) : Cells := { c with phase := .deaf }

/-- The memory hears a byte. Its address comes with the direction in the last
bit; a write begins with a new pointer. -/
def Cells.hear (c : Cells) (b : BitVec 8) : Cells :=
  match c.phase with
  | .deaf => c
  | .called =>
      if (b >>> 1).setWidth 7 ≠ D.own then { c with phase := .deaf }
      else if b.getLsbD 0 then { c with phase := .answering }
      else { c with phase := .writing D.addrBytes, pointer := 0 }
  | .writing (left + 1) =>
      { c with phase := .writing left, pointer := c.pointer * 256 + b.toNat }
  | .writing 0 =>
      { c with
        cell := Function.update c.cell (c.pointer % D.size) b
        pointer := c.pointer + 1 }
  | .answering => c

/-- The byte the memory puts on the bus; the line idles high. -/
def Cells.answer (c : Cells) : BitVec 8 :=
  match c.phase with
  | .answering => c.cell (c.pointer % D.size)
  | _ => 0xff

/-- A byte has been taken from the memory. Without an acknowledge it falls
silent. -/
def Cells.answered (c : Cells) (ack : Bool) : Cells :=
  match c.phase with
  | .answering => { c with pointer := c.pointer + 1, phase := if ack then .answering else .deaf }
  | _ => c

/-! ## Writing and reading -/

/-- The address bytes leave their number, most significant first, in the pointer. -/
theorem hear_address (bs : List (BitVec 8)) {c : Cells} {left : Nat}
    (h : c.phase = .writing (left + bs.length)) :
    (bs.foldl (Cells.hear D) c).cell = c.cell
      ∧ (bs.foldl (Cells.hear D) c).phase = .writing left
      ∧ (bs.foldl (Cells.hear D) c).pointer
        = bs.foldl (fun p b => p * 256 + b.toNat) c.pointer := by
  induction bs generalizing c with
  | nil => exact ⟨rfl, h, rfl⟩
  | cons b bs ih =>
    have hb : c.hear D b
        = { c with phase := .writing (left + bs.length), pointer := c.pointer * 256 + b.toNat } := by
      have hp : c.phase = .writing ((left + bs.length) + 1) := h
      simp only [Cells.hear, hp]
    rw [List.foldl_cons, hb]
    exact ih rfl

/-- The data bytes fill the cells from the pointer on, and the others stay. -/
theorem hear_data (bs : List (BitVec 8)) {c : Cells} (h : c.phase = .writing 0)
    (hsize : bs.length ≤ D.size) :
    (∀ i, (hi : i < bs.length) →
        (bs.foldl (Cells.hear D) c).cell ((c.pointer + i) % D.size) = bs[i])
      ∧ ∀ a, (∀ i, i < bs.length → a ≠ (c.pointer + i) % D.size) →
        (bs.foldl (Cells.hear D) c).cell a = c.cell a := by
  induction bs generalizing c with
  | nil => exact ⟨fun i hi => absurd hi (Nat.not_lt_zero i), fun a _ => rfl⟩
  | cons b bs ih =>
    have hb : c.hear D b
        = { c with
            cell := Function.update c.cell (c.pointer % D.size) b, pointer := c.pointer + 1 } := by
      simp only [Cells.hear, h]
    rw [List.length_cons] at hsize
    obtain ⟨hin, hout⟩ := ih (c := c.hear D b) (by rw [hb]; exact h) (by omega)
    rw [hb] at hin hout
    rw [List.foldl_cons, hb]
    constructor
    · intro i hi
      cases i with
      | zero =>
        -- none of the bytes that follow comes round to the first cell
        rw [hout _ fun j hj heq => ?_]
        · simp
        · have hj' : j + 1 < D.size := by omega
          have hmod := Nat.sub_mod_eq_zero_of_mod_eq heq.symm
          have hdiff : c.pointer + 1 + j - (c.pointer + 0) = j + 1 := by omega
          rw [hdiff, Nat.mod_eq_of_lt hj'] at hmod
          omega
      | succ i =>
        have hi' : i < bs.length := by simpa using hi
        have := hin i hi'
        rw [show c.pointer + (i + 1) = c.pointer + 1 + i by omega]
        simpa using this
    · intro a ha
      rw [hout a fun j hj => ?_]
      · have h0 := ha 0 (by simp)
        exact Function.update_of_ne (by simpa using h0) _ _
      · have hj1 := ha (j + 1) (by simpa using hj)
        rwa [show c.pointer + 1 + j = c.pointer + (j + 1) by omega]

/-- One byte taken from an answering memory. -/
theorem answered_eq {c : Cells} (h : c.phase = .answering) (ack : Bool) :
    c.answer D = c.cell (c.pointer % D.size)
      ∧ c.answered ack
        = { c with pointer := c.pointer + 1, phase := if ack then .answering else .deaf } := by
  simp only [Cells.answer, Cells.answered, h, and_self]

end ExtDrv.ByteMemory
