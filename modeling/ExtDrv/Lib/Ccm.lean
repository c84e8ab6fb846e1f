import ExtDrv.Lib.Memory
import Mathlib.Tactic.Common

/-!
# Counter mode with CBC-MAC

Sealing and opening of byte strings under any block function: a key stream of
enciphered counter blocks is laid over the text, and a tag is made of the CBC-MAC
of the text, behind a first block and the blocks of associated data, under the
first counter block. The last section is about a text that is enciphered in memory,
to where it stands or to an earlier place.
-/

namespace ExtDrv.Ccm

open Memory

abbrev Byte := BitVec 8

/-- A block of sixteen bytes. -/
abbrev Block := Fin 16 → Byte

/-! ## Blocks -/

def xorBlock (a b : Block) : Block := fun i => a i ^^^ b i

theorem xorBlock_comm (a b : Block) : xorBlock a b = xorBlock b a :=
  funext fun i => BitVec.xor_comm (a i) (b i)

/-- The first sixteen bytes, zero where there are none. -/
def pad (bs : List Byte) : Block := fun i => bs.getD i 0

/-- The byte string cut into blocks, the last one padded. -/
def blocks (bs : List Byte) : List Block :=
  (List.range ((bs.length + 15) / 16)).map fun k => pad (bs.drop (16 * k))

@[simp] theorem blocks_nil : blocks [] = [] := rfl

/-- The first block and the blocks of the rest. -/
theorem blocks_cons {bs : List Byte} (h : bs ≠ []) : blocks bs = pad bs :: blocks (bs.drop 16) := by
  have hlen : 0 < bs.length := List.length_pos_iff.mpr h
  have hcount : (bs.length + 15) / 16 = ((bs.drop 16).length + 15) / 16 + 1 := by
    rw [List.length_drop]
    omega
  rw [blocks, hcount, List.range_succ_eq_map, List.map_cons, List.map_map, Nat.mul_zero,
    List.drop_zero, blocks]
  congr 1
  refine List.map_congr_left fun k _ => ?_
  rw [List.drop_drop, Function.comp_apply, Nat.mul_succ, Nat.add_comm]

/-! ## Sealing and opening -/

/-- The MAC over some blocks, from a chaining value on. -/
def cbcMac (E : Block → Block) (x : Block) (bs : List Block) : Block :=
  bs.foldl (fun x b => E (xorBlock b x)) x

@[simp] theorem cbcMac_nil (E : Block → Block) (x : Block) : cbcMac E x [] = x := rfl

@[simp] theorem cbcMac_cons (E : Block → Block) (x b : Block) (bs : List Block) :
    cbcMac E x (b :: bs) = cbcMac E (E (xorBlock b x)) bs := rfl

theorem cbcMac_append (E : Block → Block) (x : Block) (bs cs : List Block) :
    cbcMac E x (bs ++ cs) = cbcMac E (cbcMac E x bs) cs := List.foldl_append

/-- What a key, a nonce and associated data fix: the block function, the first block
of the MAC for a text of a given length, the blocks of associated data, the counter
blocks and how many bytes the tag has. -/
structure Scheme where
  E : Block → Block
  first : Nat → Block
  aad : List Block
  ctr : Nat → Block
  tagLen : Nat

/-- A byte of the key stream: the first counter block is kept for the tag. -/
def Scheme.stream (S : Scheme) (i : Nat) : Byte :=
  S.E (S.ctr (i / 16 + 1)) ⟨i % 16, Nat.mod_lt i (by decide)⟩

def Scheme.mac (S : Scheme) (p : List Byte) : Block :=
  cbcMac S.E (S.E (S.first p.length)) (S.aad ++ blocks p)

/-- The tag: the first bytes of the enciphered MAC. -/
def Scheme.tag (S : Scheme) (p : List Byte) : List Byte :=
  (List.ofFn (xorBlock (S.mac p) (S.E (S.ctr 0)))).take S.tagLen

/-- The text under the key stream. -/
def xorStream (ks : Nat → Byte) (bs : List Byte) : List Byte := bs.mapIdx fun i b => b ^^^ ks i

/-- The text under the key stream, and its tag. -/
def Scheme.seal (S : Scheme) (p : List Byte) : List Byte := xorStream S.stream p ++ S.tag p

/-- The text of a sealed string, if its tag is right. -/
def Scheme.unseal (S : Scheme) (c : List Byte) : Option (List Byte) :=
  let p := xorStream S.stream (c.take (c.length - S.tagLen))
  if S.tagLen ≤ c.length ∧ c.drop (c.length - S.tagLen) = S.tag p then some p else none

@[simp] theorem length_xorStream (ks : Nat → Byte) (bs : List Byte) :
    (xorStream ks bs).length = bs.length := by
  simp [xorStream]

theorem xorStream_xorStream (ks : Nat → Byte) (bs : List Byte) :
    xorStream ks (xorStream ks bs) = bs := by
  refine List.ext_getElem? fun i => ?_
  cases hb : bs[i]? with
  | none => simp [xorStream, hb]
  | some b =>
      simp only [xorStream, List.getElem?_mapIdx, hb, Option.map_some, BitVec.xor_assoc,
        BitVec.xor_self, BitVec.xor_zero]

theorem Scheme.length_tag {S : Scheme} (h : S.tagLen ≤ 16) (p : List Byte) :
    (S.tag p).length = S.tagLen := by
  simpa [Scheme.tag] using h

/-- **Round trip**: what was sealed opens. -/
theorem Scheme.unseal_seal {S : Scheme} (h : S.tagLen ≤ 16) (p : List Byte) :
    S.unseal (S.seal p) = some p := by
  have hlen : (S.seal p).length = p.length + S.tagLen := by
    rw [Scheme.seal, List.length_append, length_xorStream, S.length_tag h]
  have hcut : (S.seal p).length - S.tagLen = (xorStream S.stream p).length := by
    rw [hlen, Nat.add_sub_cancel, length_xorStream]
  have htext : xorStream S.stream ((S.seal p).take ((S.seal p).length - S.tagLen)) = p := by
    rw [hcut, Scheme.seal, List.take_left, xorStream_xorStream]
  have htag : (S.seal p).drop ((S.seal p).length - S.tagLen) = S.tag p := by
    rw [hcut, Scheme.seal, List.drop_left]
  rw [Scheme.unseal]
  simp only [htext, htag, and_true]
  exact if_pos (by omega)

/-- **Exactness**: a string opens only if it is the sealing of what it opens to. -/
theorem Scheme.unseal_eq_some_iff {S : Scheme} (h : S.tagLen ≤ 16) {c p : List Byte} :
    S.unseal c = some p ↔ c = S.seal p := by
  constructor
  · intro hunseal
    rw [Scheme.unseal] at hunseal
    split_ifs at hunseal with htag
    have hp := Option.some.inj hunseal
    rw [hp] at htag
    rw [Scheme.seal, ← hp, xorStream_xorStream, hp, ← htag.2, List.take_append_drop]
  · rintro rfl
    exact S.unseal_seal h p

/-! ## In memory -/

/-- From `m` to `m'` the first `i` bytes from `src` on went to `dst`, each under its byte of
a key stream, and nothing else was written. -/
structure Ciphered (m m' : Mem) (src dst : Nat) (ks : Nat → Byte) (i : Nat) : Prop where
  done : ∀ j, j < i → m' (dst + j) = m (src + j) ^^^ ks j
  rest : ∀ a, a < dst ∨ dst + i ≤ a → m' a = m a

theorem Ciphered.zero (m : Mem) (src dst : Nat) (ks : Nat → Byte) : Ciphered m m src dst ks 0 :=
  ⟨fun j hj => absurd hj (Nat.not_lt_zero j), fun _ _ => rfl⟩

/-- The text at `dst` is the one from `src` under the key stream. -/
theorem Ciphered.segment {m m' : Mem} {src dst : Nat} {ks : Nat → Byte} {i : Nat}
    (h : Ciphered m m' src dst ks i) :
    segment m' dst i = xorStream ks (segment m src i) := by
  refine List.ext_getElem? fun j => ?_
  by_cases hj : j < i
  · rw [getElem?_segment m' hj, xorStream, List.getElem?_mapIdx, getElem?_segment m hj, h.done j hj]
    rfl
  · rw [List.getElem?_eq_none (by simpa using hj), List.getElem?_eq_none (by simpa using hj)]

/-- What lies behind the text, or in front of it, is as it was. -/
theorem Ciphered.segment_rest {m m' : Mem} {src dst : Nat} {ks : Nat → Byte} {i o n : Nat}
    (h : Ciphered m m' src dst ks i) (ho : o + n ≤ dst ∨ dst + i ≤ o) :
    Memory.segment m' o n = Memory.segment m o n :=
  segment_congr fun j hj => h.rest _ (by omega)

/-- **One byte more**: it is still the one of the text, as the destination is not ahead of
the source, or not there yet. -/
theorem Ciphered.succ {m m' : Mem} {src dst : Nat} {ks : Nat → Byte} {i : Nat}
    (h : Ciphered m m' src dst ks i) (hle : dst ≤ src ∨ src + i < dst) :
    Ciphered m (Function.update m' (dst + i) (m' (src + i) ^^^ ks i)) src dst ks (i + 1) := by
  constructor
  · intro j hj
    by_cases hji : j = i
    · subst hji
      rw [Function.update_self, h.rest (src + j) (by omega)]
    · rw [Function.update_of_ne (by omega), h.done j (by omega)]
  · intro a ha
    rw [Function.update_of_ne (by omega), h.rest a (by omega)]

/-- **A block more**, its bytes put down at once. -/
theorem Ciphered.store {m m' : Mem} {src dst : Nat} {ks : Nat → Byte} {i : Nat}
    (h : Ciphered m m' src dst ks i) (hle : dst ≤ src) {bs : List Byte}
    (hbs : ∀ j, j < bs.length → bs.getD j 0 = m' (src + i + j) ^^^ ks (i + j)) :
    Ciphered m (Memory.store m' (dst + i) bs) src dst ks (i + bs.length) := by
  constructor
  · intro j hj
    by_cases hji : j < i
    · have hout : ¬ (dst + i ≤ dst + j ∧ dst + j < dst + i + bs.length) := by omega
      rw [Memory.store, if_neg hout, h.done j hji]
    · have hin : dst + i ≤ dst + j ∧ dst + j < dst + i + bs.length := by omega
      have hidx : dst + j - (dst + i) = j - i := by omega
      have hback : src + i + (j - i) = src + j := by omega
      have hback' : i + (j - i) = j := by omega
      rw [Memory.store, if_pos hin, hidx, hbs (j - i) (by omega), hback, hback',
        h.rest (src + j) (by omega)]
  · intro a ha
    have hout : ¬ (dst + i ≤ a ∧ a < dst + i + bs.length) := by omega
    rw [Memory.store, if_neg hout, h.rest a (by omega)]

/-- **Opening in memory**: the text and its tag are at `src`, and the text was deciphered to
`dst`. -/
theorem Scheme.unseal_segment (S : Scheme) {m m' : Mem} {src dst n : Nat}
    (h : Ciphered m m' src dst S.stream n) :
    S.unseal (Memory.segment m src (n + S.tagLen))
      = if Memory.segment m (src + n) S.tagLen = S.tag (Memory.segment m' dst n)
        then some (Memory.segment m' dst n) else none := by
  have hlen : (Memory.segment m src (n + S.tagLen)).length - S.tagLen = n := by
    rw [length_segment, Nat.add_sub_cancel]
  have hle : S.tagLen ≤ (Memory.segment m src (n + S.tagLen)).length := by
    rw [length_segment]
    exact Nat.le_add_left _ _
  rw [Scheme.unseal]
  simp only [hlen, hle, true_and]
  rw [segment_add, List.take_left' (length_segment m src n), List.drop_left' (length_segment m src n),
    ← h.segment]

end ExtDrv.Ccm
