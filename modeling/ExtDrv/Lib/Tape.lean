import ExtDrv.Lib.Memory
import Mathlib.Tactic.Common

/-!
# Memory with a record of accesses

A memory and the addresses that were read and written, in their order: what is read
does not depend on the record, so that a routine over it can be followed in plain
memory, and where the routine goes can be told from the record.
-/

namespace ExtDrv.Memory

/-- An access to a byte. -/
inductive Touch where
  | read (a : Nat)
  | write (a : Nat)
  deriving DecidableEq, Repr

def Touch.addr : Touch → Nat
  | .read a => a
  | .write a => a

/-- A memory and the accesses so far. -/
structure Tape where
  mem : Mem
  log : List Touch

namespace Tape

/-- The record after more accesses. -/
def note (t : Tape) (l : List Touch) : Tape := ⟨t.mem, t.log ++ l⟩

/-- `n` bytes are read, from `a` on. -/
def reads (a n : Nat) : List Touch := (List.range n).map fun i => .read (a + i)

def writes (a n : Nat) : List Touch := (List.range n).map fun i => .write (a + i)

def read (t : Tape) (a n : Nat) : List (BitVec 8) × Tape := (segment t.mem a n, t.note (reads a n))

def write (t : Tape) (a : Nat) (bs : List (BitVec 8)) : Tape :=
  ⟨store t.mem a bs, t.log ++ writes a bs.length⟩

/-- One byte is read, and another one is written. -/
def move (t : Tape) (src dst : Nat) (f : BitVec 8 → BitVec 8) : Tape :=
  ⟨Function.update t.mem dst (f (t.mem src)), t.log ++ [.read src, .write dst]⟩

@[simp] theorem note_mem (t : Tape) (l : List Touch) : (t.note l).mem = t.mem := rfl
@[simp] theorem note_log (t : Tape) (l : List Touch) : (t.note l).log = t.log ++ l := rfl
theorem note_note (t : Tape) (l l' : List Touch) : (t.note l).note l' = t.note (l ++ l') := by
  rw [note, note, note, List.append_assoc]

@[simp] theorem read_fst (t : Tape) (a n : Nat) : (t.read a n).1 = segment t.mem a n := rfl
@[simp] theorem read_snd (t : Tape) (a n : Nat) : (t.read a n).2 = t.note (reads a n) := rfl
@[simp] theorem write_mem (t : Tape) (a : Nat) (bs : List (BitVec 8)) :
    (t.write a bs).mem = store t.mem a bs := rfl
@[simp] theorem write_log (t : Tape) (a : Nat) (bs : List (BitVec 8)) :
    (t.write a bs).log = t.log ++ writes a bs.length := rfl
@[simp] theorem move_mem (t : Tape) (src dst : Nat) (f : BitVec 8 → BitVec 8) :
    (t.move src dst f).mem = Function.update t.mem dst (f (t.mem src)) := rfl
@[simp] theorem move_log (t : Tape) (src dst : Nat) (f : BitVec 8 → BitVec 8) :
    (t.move src dst f).log = t.log ++ [.read src, .write dst] := rfl

end Tape

/-! ## Within a range -/

/-- Every access is to an address of `S`. -/
def Within (S : Nat → Prop) (l : List Touch) : Prop := ∀ x ∈ l, S x.addr

theorem within_nil (S : Nat → Prop) : Within S [] := fun _ hx => absurd hx List.not_mem_nil

@[simp] theorem within_append {S : Nat → Prop} {l l' : List Touch} :
    Within S (l ++ l') ↔ Within S l ∧ Within S l' := List.forall_mem_append

theorem within_reads {S : Nat → Prop} {a n : Nat} :
    Within S (Tape.reads a n) ↔ ∀ i, i < n → S (a + i) := by
  simp only [Within, Tape.reads, List.forall_mem_map, List.mem_range]
  rfl

theorem within_writes {S : Nat → Prop} {a n : Nat} :
    Within S (Tape.writes a n) ↔ ∀ i, i < n → S (a + i) := by
  simp only [Within, Tape.writes, List.forall_mem_map, List.mem_range]
  rfl

theorem within_pair {S : Nat → Prop} {a b : Nat} :
    Within S [.read a, .write b] ↔ S a ∧ S b := by
  simp only [Within, List.forall_mem_cons, List.not_mem_nil, false_implies, implies_true, and_true]
  rfl

/-! ## What is read is what was there -/

/-- No byte is read after it was written. -/
def ReadsFirst (l : List Touch) : Prop := l.Pairwise fun x y => ∀ a, x = .write a → y ≠ .read a

end ExtDrv.Memory
