import Mathlib.Data.List.Basic

/-!
# Programs that read a memory

A program is a tree: it ends, or reads a cell and goes on with what it found there. So
the cells it reads on a given memory are part of its meaning, and its outcome
depends on these cells alone.
-/

namespace ExtDrv

inductive Reads (ι β : Type) (α : Type)
  | ret (a : α)
  | read (i : ι) (k : β → Reads ι β α)

namespace Reads

variable {ι β α γ : Type}

protected def bind : Reads ι β α → (α → Reads ι β γ) → Reads ι β γ
  | .ret a, f => f a
  | .read i k, f => .read i fun b => (k b).bind f

instance : Monad (Reads ι β) where
  pure := .ret
  bind := Reads.bind

/-- One cell. -/
def cell (i : ι) : Reads ι β β := .read i .ret

/-- Some cells, in order. -/
def cells : List ι → Reads ι β (List β)
  | [] => .ret []
  | i :: is => .read i fun b => (cells is).bind fun bs => .ret (b :: bs)

/-- The outcome on a memory. -/
def run : Reads ι β α → (ι → β) → α
  | .ret a, _ => a
  | .read i k, m => (k (m i)).run m

/-- The cells that are read on a memory. -/
def addrs : Reads ι β α → (ι → β) → List ι
  | .ret _, _ => []
  | .read i k, m => i :: (k (m i)).addrs m

/-- **What is not read does not matter.** -/
theorem run_congr {p : Reads ι β α} {m m' : ι → β} (h : ∀ i ∈ p.addrs m, m' i = m i) :
    p.run m' = p.run m := by
  induction p with
  | ret a => rfl
  | read i k ih =>
    have hi : m' i = m i := h i List.mem_cons_self
    show (k (m' i)).run m' = (k (m i)).run m
    rw [hi]
    exact ih (m i) fun j hj => h j (List.mem_cons_of_mem i hj)

@[simp] theorem run_pure (a : α) (m : ι → β) : (pure a : Reads ι β α).run m = a := rfl

@[simp] theorem addrs_pure (a : α) (m : ι → β) : (pure a : Reads ι β α).addrs m = [] := rfl

@[simp] theorem run_bind (p : Reads ι β α) (f : α → Reads ι β γ) (m : ι → β) :
    (p >>= f).run m = (f (p.run m)).run m := by
  induction p with
  | ret a => rfl
  | read i k ih => exact ih (m i)

/-- What comes first is read first. -/
@[simp] theorem addrs_bind (p : Reads ι β α) (f : α → Reads ι β γ) (m : ι → β) :
    (p >>= f).addrs m = p.addrs m ++ (f (p.run m)).addrs m := by
  induction p with
  | ret a => rfl
  | read i k ih => exact congrArg (i :: ·) (ih (m i))

@[simp] theorem run_cells (is : List ι) (m : ι → β) : (cells is).run m = is.map m := by
  induction is with
  | nil => rfl
  | cons i is ih =>
    have hb := run_bind (cells is) (fun bs => Reads.ret (m i :: bs)) m
    exact hb.trans (congrArg (m i :: ·) ih)

@[simp] theorem addrs_cells (is : List ι) (m : ι → β) : (cells is).addrs m = is := by
  induction is with
  | nil => rfl
  | cons i is ih =>
    have hb := addrs_bind (cells is) (fun bs => Reads.ret (m i :: bs)) m
    refine congrArg (i :: ·) (hb.trans ?_)
    rw [ih]
    exact List.append_nil is

end Reads

end ExtDrv
