import Mathlib.Data.List.Nodup

/-!
# Keys and their numbers

A sender encrypts each frame under its key and a number, which it then increases;
with a new key the number starts again. No key meets the same number twice as long
as no key is installed twice and the number does not come round.
-/

namespace ExtDrv.Nonces

/-- A sender, with the keys that were installed and the pairs that were used, the newest
first. -/
structure Sender (κ : Type*) (w : Nat) where
  key : Option κ
  next : BitVec w
  installed : List κ
  used : List (κ × BitVec w)

variable {κ : Type*} {w : Nat}

namespace Sender

/-- A new key; its first number is 1. -/
def install (s : Sender κ w) (k : κ) : Sender κ w where
  key := some k
  next := 1
  installed := k :: s.installed
  used := s.used

/-- The key is taken away. -/
def clear (s : Sender κ w) : Sender κ w := { s with key := none }

/-- A frame is sent under the key `k`. -/
def send (s : Sender κ w) (k : κ) : Sender κ w :=
  { s with next := s.next + 1, used := (k, s.next) :: s.used }

end Sender

/-- **No reuse**: no key was installed twice, no pair used twice, and the key in use has met
smaller numbers only, unless its number has come round. -/
structure Inv (s : Sender κ w) : Prop where
  once : s.installed.Nodup
  unused : s.used.Nodup
  known : ∀ k n, (k, n) ∈ s.used → k ∈ s.installed
  inUse : ∀ k, s.key = some k → k ∈ s.installed
  below : ∀ k n, s.key = some k → (k, n) ∈ s.used → s.next ≠ 0 → n < s.next

theorem Inv.start (next : BitVec w) : Inv (κ := κ) ⟨none, next, [], []⟩ where
  once := List.nodup_nil
  unused := List.nodup_nil
  known _ _ h := by cases h
  inUse _ h := by cases h
  below _ _ h := by cases h

/-- A key that was never installed has met no number yet. -/
theorem Inv.install {s : Sender κ w} (h : Inv s) {k : κ} (hk : k ∉ s.installed) :
    Inv (s.install k) where
  once := List.nodup_cons.mpr ⟨hk, h.once⟩
  unused := h.unused
  known k' n hused := List.mem_cons_of_mem _ (h.known k' n hused)
  inUse k' hkey := by
    cases hkey
    exact List.mem_cons_self
  below k' n hkey hused _ := by
    cases hkey
    exact absurd (h.known k n hused) hk

theorem Inv.clear {s : Sender κ w} (h : Inv s) : Inv s.clear where
  once := h.once
  unused := h.unused
  known := h.known
  inUse _ hkey := by cases hkey
  below _ _ hkey := by cases hkey

/-- A number grows unless it comes round. -/
theorem lt_add_one {n : BitVec w} (h : n + 1 ≠ 0) : n < n + 1 := by
  have hlt := n.isLt
  cases w with
  | zero => exact absurd (Subsingleton.elim _ _) h
  | succ w =>
      have hone : (1 : BitVec (w + 1)).toNat = 1 := by
        rw [BitVec.ofNat_eq_ofNat, BitVec.toNat_ofNat]
        exact Nat.mod_eq_of_lt (Nat.one_lt_two_pow (Nat.succ_ne_zero w))
      have hne : (n.toNat + 1) % 2 ^ (w + 1) ≠ 0 := by
        intro hmod
        apply h
        apply BitVec.eq_of_toNat_eq
        show (n + 1).toNat = 0
        rw [BitVec.toNat_add, hone, hmod]
      have hfits : n.toNat + 1 < 2 ^ (w + 1) := by
        rcases Nat.lt_or_ge (n.toNat + 1) (2 ^ (w + 1)) with hlt' | hge
        · exact hlt'
        · have heq : n.toNat + 1 = 2 ^ (w + 1) := by omega
          rw [heq, Nat.mod_self] at hne
          exact absurd rfl hne
      rw [BitVec.lt_def, BitVec.toNat_add, hone, Nat.mod_eq_of_lt hfits]
      omega

/-- The next number is larger than all the key has met. -/
theorem Inv.send {s : Sender κ w} (h : Inv s) {k : κ} (hkey : s.key = some k)
    (hnext : s.next ≠ 0) : Inv (s.send k) where
  once := h.once
  unused := by
    refine List.nodup_cons.mpr ⟨fun hused => ?_, h.unused⟩
    exact BitVec.lt_irrefl _ (h.below k s.next hkey hused hnext)
  known k' n hused := by
    rcases List.mem_cons.mp hused with heq | hold
    · cases heq
      exact h.inUse k hkey
    · exact h.known k' n hold
  inUse := h.inUse
  below k' n hkey' hused hne := by
    have hup : s.next < s.next + 1 := lt_add_one hne
    rcases List.mem_cons.mp hused with heq | hold
    · cases heq
      exact hup
    · exact BitVec.lt_trans (h.below k' n hkey' hold hnext) hup

end ExtDrv.Nonces
