import ExtDrv.Lib.Endian
import Mathlib.Data.List.Basic
import Mathlib.Logic.Function.Basic

/-!
# Hashing by words

A message is taken four bytes at a time, each word being worked into the state by a
block function. A buffer that is fed single bytes does the same, however they come. Where
every block permutes the states, so does every message, and a word that moves some state
is missed for some state at the start.
-/

namespace ExtDrv.WordHash

open LittleEndian Function

variable {σ : Type*} (block : σ → BitVec 32 → σ)

/-- The state after the whole words of a message. -/
def hash (s : σ) : List (BitVec 8) → σ
  | a :: b :: c :: d :: rest => hash (block s (leWord [a, b, c, d])) rest
  | _ => s

theorem hash_word {bs : List (BitVec 8)} (h : bs.length = 4) (s : σ) (rest : List (BitVec 8)) :
    hash block s (bs ++ rest) = hash block (block s (leWord bs)) rest := by
  match bs, h with
  | [a, b, c, d], _ => rfl

theorem hash_append {n : Nat} {as : List (BitVec 8)} (h : as.length = 4 * n) (s : σ)
    (bs : List (BitVec 8)) : hash block s (as ++ bs) = hash block (hash block s as) bs := by
  induction n generalizing as s with
  | zero =>
    rw [List.length_eq_zero_iff.mp h]
    rfl
  | succ n ih =>
    have h4 : (as.take 4).length = 4 := by rw [List.length_take]; omega
    have hrest : (as.drop 4).length = 4 * n := by rw [List.length_drop]; omega
    rw [← List.take_append_drop 4 as, List.append_assoc, hash_word block h4,
      hash_word block h4, ih hrest]

/-! ## A buffer of one word -/

/-- A state, and the `count` bytes of the word that is coming in. -/
structure Buffer (σ : Type*) where
  state : σ
  word : BitVec 32
  count : Nat

/-- A byte goes into the word, and a full word into the state. -/
def push (t : Buffer σ) (b : BitVec 8) : Buffer σ :=
  let word := t.word ||| b.setWidth 32 <<< (8 * t.count)
  if 4 ≤ t.count + 1 then ⟨block t.state word, 0, 0⟩ else ⟨t.state, word, t.count + 1⟩

/-- Four bytes are a word. -/
theorem or_bytes (a b c d : BitVec 8) :
    0#32 ||| a.setWidth 32 <<< (8 * 0) ||| b.setWidth 32 <<< (8 * 1) ||| c.setWidth 32 <<< (8 * 2)
      ||| d.setWidth 32 <<< (8 * 3) = leWord [a, b, c, d] := by
  apply BitVec.eq_of_getLsbD_eq
  intro i hi
  simp only [leWord, List.getD_cons_zero, List.getD_cons_succ, BitVec.getLsbD_append,
    BitVec.getLsbD_or, BitVec.getLsbD_shiftLeft, BitVec.getLsbD_setWidth, BitVec.getLsbD_zero]
  -- which byte the bit is in; every other byte has no such bit
  rcases Nat.lt_or_ge i 8 with h | h
  · simp [h, hi, show i < 16 by omega, show i < 24 by omega]
  have ha := BitVec.getLsbD_of_ge a i h
  rcases Nat.lt_or_ge i 16 with h' | h'
  · simp [hi, h', ha, show ¬ i < 8 by omega, show i < 24 by omega, show i - 8 < 32 by omega,
      show i - 8 < 8 by omega]
  have hb := BitVec.getLsbD_of_ge b (i - 8) (by omega)
  rcases Nat.lt_or_ge i 24 with h'' | h''
  · simp [hi, ha, hb, h'', show ¬ i < 8 by omega, show ¬ i < 16 by omega,
      show i - 16 < 32 by omega, show i - 8 - 8 = i - 16 by omega, show i - 16 < 8 by omega,
      show ¬ i - 8 < 8 by omega]
  · have hc := BitVec.getLsbD_of_ge c (i - 16) (by omega)
    simp [hi, ha, hb, hc, show ¬ i < 8 by omega, show ¬ i < 16 by omega, show ¬ i < 24 by omega,
      show i - 24 < 32 by omega, show i - 16 - 8 = i - 24 by omega, show ¬ i - 8 < 8 by omega,
      show ¬ i - 16 < 8 by omega, show i - 8 - 8 = i - 16 by omega]

theorem push_word {bs : List (BitVec 8)} (h : bs.length = 4) (s : σ) :
    bs.foldl (push block) ⟨s, 0, 0⟩ = ⟨block s (leWord bs), 0, 0⟩ := by
  match bs, h with
  | [a, b, c, d], _ =>
    rw [← or_bytes]
    rfl

/-- Fed a whole number of words, the buffer has hashed them. -/
theorem foldl_push {n : Nat} {bs : List (BitVec 8)} (h : bs.length = 4 * n) (s : σ) :
    bs.foldl (push block) ⟨s, 0, 0⟩ = ⟨hash block s bs, 0, 0⟩ := by
  induction n generalizing bs s with
  | zero =>
    rw [List.length_eq_zero_iff.mp h]
    rfl
  | succ n ih =>
    have h4 : (bs.take 4).length = 4 := by rw [List.length_take]; omega
    have hrest : (bs.drop 4).length = 4 * n := by rw [List.length_drop]; omega
    rw [← List.take_append_drop 4 bs, List.foldl_append, push_word block h4, ih hrest,
      hash_word block h4]

/-! ## Blocks that permute -/

variable {block}

theorem hash_bijective (hblock : ∀ w, Bijective fun s => block s w) {n : Nat}
    {bs : List (BitVec 8)} (h : bs.length = 4 * n) : Bijective fun s => hash block s bs := by
  induction n generalizing bs with
  | zero =>
    rw [List.length_eq_zero_iff.mp h]
    exact bijective_id
  | succ n ih =>
    have h4 : (bs.take 4).length = 4 := by rw [List.length_take]; omega
    have hrest : (bs.drop 4).length = 4 * n := by rw [List.length_drop]; omega
    rw [← List.take_append_drop 4 bs]
    simp only [hash_word block h4]
    exact (ih hrest).comp (hblock (leWord (bs.take 4)))

/-- A word that moves some state cannot be left out for every state at the start. -/
theorem exists_hash_ne (hblock : ∀ w, Bijective fun s => block s w) {n k : Nat}
    {as bs cs : List (BitVec 8)} (ha : as.length = 4 * n) (hb : bs.length = 4)
    (hc : cs.length = 4 * k) {s : σ} (hs : block s (leWord bs) ≠ s) :
    ∃ s₀, hash block s₀ (as ++ (bs ++ cs)) ≠ hash block s₀ (as ++ cs) := by
  obtain ⟨s₀, h₀⟩ := (hash_bijective hblock ha).surjective s
  refine ⟨s₀, fun h => hs ?_⟩
  rw [hash_append block ha, hash_append block ha, hash_word block hb] at h
  have hstate : block s (leWord bs) = hash block s₀ as :=
    h₀ ▸ (hash_bijective hblock hc).injective h
  exact hstate.trans h₀

/-! ## Mixing steps -/

/-- One half is mixed into the other, and the sum of both is the new half. -/
def mix (f : BitVec 32 → BitVec 32) (s : BitVec 32 × BitVec 32) : BitVec 32 × BitVec 32 :=
  (s.1 + (s.2 ^^^ f s.1), s.2 ^^^ f s.1)

theorem mix_bijective (f : BitVec 32 → BitVec 32) : Bijective (mix f) := by
  refine bijective_iff_has_inverse.mpr
    ⟨fun t => (t.1 - t.2, t.2 ^^^ f (t.1 - t.2)), fun s => ?_, fun t => ?_⟩
  · simp only [mix, BitVec.add_sub_cancel, BitVec.xor_assoc, BitVec.xor_self, BitVec.xor_zero]
  · simp only [mix, BitVec.xor_assoc, BitVec.xor_self, BitVec.xor_zero, BitVec.sub_add_cancel]

theorem xor_bijective (w : BitVec 32) :
    Bijective fun s : BitVec 32 × BitVec 32 => (s.1 ^^^ w, s.2) := by
  have hinv : Involutive fun s : BitVec 32 × BitVec 32 => (s.1 ^^^ w, s.2) := fun s => by
    simp only [BitVec.xor_assoc, BitVec.xor_self, BitVec.xor_zero]
  exact hinv.bijective

end ExtDrv.WordHash
