import ExtDrv.Lib.ForLoop
import ExtDrv.Rt3370.EapolKey
import ExtDrv.Rt3370.RtmpAes

/-!
# The AES key wrap

`AES_GTK_KEY_WRAP` and `AES_GTK_KEY_UNWRAP` of `crypt_aes.c`, on byte arrays, with what the
allocated ones held before. Six turns over all halves of the text; unwrapping takes them back in
the other order. The check value is not compared, and eight bytes more than the text are given out.
-/

namespace ExtDrv.Rt3370.KeyWrap

open Ccm Memory RtmpAes

/-- Half a block. -/
abbrev Half := Bytes 8

/-- `BIN` and `BOUT`, of two halves. -/
def join (a r : Half) : Block := fun i =>
  if h : (i : Nat) < 8 then a ⟨i, h⟩ else r ⟨i - 8, by omega⟩

def high (b : Block) : Half := fun i => b ⟨i, by omega⟩

def low (b : Block) : Half := fun i => b ⟨8 + i, by omega⟩

/-- The last byte of `A` gets the number of the turn. -/
def count (a : Half) (t : Nat) : Half :=
  Function.update a 7 (a 7 ^^^ BitVec.ofNat 8 t)

/-- `A` and `R`. -/
structure State where
  A : Half
  R : Mem

/-- `NdisMoveMemory(&R[o], &BOUT[8], 8)`. -/
def putHalf (r : Mem) (o : Nat) (h : Half) : Mem := store r o (List.ofFn h)

section Turns

variable (ctx : AesContext) (numBlocks : Nat)

/-- One turn for the `i`th half, which stands at `8 * i`. -/
def wrapTurn (j : Nat) (s : State) (i : Nat) : State :=
  let bout := rtmpAesEncrypt ctx (join s.A (field s.R (8 * i) 8))
  ⟨count (high bout) (numBlocks * j + i), putHalf s.R (8 * i) (low bout)⟩

/-- In unwrapping the halves stand at the head of `R`. -/
def unwrapTurn (j : Nat) (s : State) (i : Nat) : State :=
  let bout := rtmpAesDecrypt ctx (join (count s.A (numBlocks * j + i)) (field s.R ((i - 1) * 8) 8))
  ⟨high bout, putHalf s.R ((i - 1) * 8) (low bout)⟩

/-- `i` from 1 up to the number of halves. -/
def halfNumbers : List Nat := (List.range numBlocks).map (· + 1)

def wrapLoops (s : State) : State :=
  (List.range 6).foldl (fun s j => (halfNumbers numBlocks).foldl (wrapTurn ctx numBlocks j) s) s

/-- From the last turn to the first one. -/
def unwrapLoops (s : State) : State :=
  (List.range 6).reverse.foldl
    (fun s j => (halfNumbers numBlocks).reverse.foldl (unwrapTurn ctx numBlocks j) s) s

end Turns

/-- `A` before the first turn. -/
def initialValue : Half := fun _ => 0xa6

/-- `A` and `R` before the first turn of the unwrapping. -/
def unwrapStart (r : Mem) (ciphertext : List Byte) : State :=
  ⟨fun i => ciphertext.getD i 0, store r 0 (ciphertext.drop 8)⟩

/-- `AES_GTK_KEY_WRAP`: `ciphertext`, of `*c_len` bytes. `r` is what `R` held. -/
def aesGtkKeyWrap (r : Mem) (key : Block) (plaintext : List Byte) : List Byte :=
  let numBlocks := plaintext.length / 8
  let s := wrapLoops (rtmpAesSetKey key) numBlocks
    ⟨initialValue, store r 8 (plaintext.take (8 * numBlocks))⟩
  List.ofFn s.A ++ segment s.R 8 (8 * numBlocks)

/-- `AES_GTK_KEY_UNWRAP`: the `c_len` bytes of `plaintext` that are written; `*p_len` is less by 8.
`r` is what `R` held. -/
def aesGtkKeyUnwrap (r : Mem) (key : Block) (ciphertext : List Byte) : List Byte :=
  let s := unwrapLoops (rtmpAesSetKey key) (ciphertext.length / 8 - 1) (unwrapStart r ciphertext)
  segment s.R 0 ciphertext.length

/-! ## Halves -/

@[simp] theorem high_join (a r : Half) : high (join a r) = a := by
  funext i
  simp [high, join]

@[simp] theorem low_join (a r : Half) : low (join a r) = r := by
  funext i
  simp [low, join]

theorem join_high_low (b : Block) : join (high b) (low b) = b := by
  funext i
  unfold join high low
  split
  · rfl
  · congr 1
    apply Fin.ext
    simp only
    omega

/-- A number is taken out as it was put in. -/
theorem count_count (a : Half) (t : Nat) : count (count a t) t = a := by
  unfold count
  rw [Function.update_self, Function.update_idem, BitVec.xor_assoc, BitVec.xor_self,
    BitVec.xor_zero, Function.update_eq_self]

theorem putHalf_in {r : Mem} {o : Nat} {h : Half} {i : Nat} (hi : i < 8) :
    putHalf r o h (o + i) = h ⟨i, hi⟩ := by
  unfold putHalf store
  rw [if_pos ⟨Nat.le_add_right o i, by rw [List.length_ofFn]; omega⟩, Nat.add_sub_cancel_left,
    List.getD_eq_getElem?_getD, List.getElem?_ofFn, dif_pos hi]
  rfl

theorem putHalf_out {r : Mem} {o : Nat} {h : Half} {i : Nat} (hi : i < o ∨ o + 8 ≤ i) :
    putHalf r o h i = r i := by
  unfold putHalf store
  rw [if_neg (by rw [List.length_ofFn]; omega)]

theorem field_putHalf (r : Mem) (o : Nat) (h : Half) : field (putHalf r o h) o 8 = h := by
  funext i
  exact putHalf_in i.isLt

/-! ## One turn -/

/-- The states that belong together: the halves are in other places, and behind them the second
array is as it was. -/
structure Same (n : Nat) (r' : Mem) (s t : State) : Prop where
  A : t.A = s.A
  R : ∀ i < 8 * n, t.R i = s.R (8 + i)
  rest : ∀ i, 8 * n ≤ i → t.R i = r' i

theorem Same.field {n : Nat} {r' : Mem} {s t : State} (h : Same n r' s t) {i : Nat}
    (hpos : 0 < i) (hi : i ≤ n) :
    field t.R ((i - 1) * 8) 8 = field s.R (8 * i) 8 := by
  funext k
  show t.R ((i - 1) * 8 + k) = s.R (8 * i + k)
  rw [h.R _ (by omega)]
  congr 1
  omega

/-- **One turn is taken back**. -/
theorem unwrapTurn_wrapTurn (key : Block) {n i : Nat} (j : Nat) (hpos : 0 < i) (hi : i ≤ n)
    {r' : Mem} {s t : State} (h : Same n r' (wrapTurn (rtmpAesSetKey key) n j s i) t) :
    Same n r' s (unwrapTurn (rtmpAesSetKey key) n j t i) := by
  obtain ⟨bout, hbout⟩ : ∃ bout, rtmpAesEncrypt (rtmpAesSetKey key)
      (join s.A (field s.R (8 * i) 8)) = bout := ⟨_, rfl⟩
  have hA : t.A = count (high bout) (n * j + i) := by
    rw [h.A, ← hbout]
    rfl
  have hR : field t.R ((i - 1) * 8) 8 = low bout := by
    rw [h.field hpos hi, ← hbout]
    exact field_putHalf _ _ _
  have hback : rtmpAesDecrypt (rtmpAesSetKey key)
      (join (count t.A (n * j + i)) (field t.R ((i - 1) * 8) 8))
        = join s.A (field s.R (8 * i) 8) := by
    rw [hA, hR, count_count, join_high_low, ← hbout]
    exact rtmpAesDecrypt_rtmpAesEncrypt key _
  unfold unwrapTurn
  rw [hback]
  refine ⟨high_join _ _, fun k hk => ?_, fun k hk => (putHalf_out (by omega)).trans (h.rest k hk)⟩
  show putHalf t.R ((i - 1) * 8) (low (join s.A (field s.R (8 * i) 8))) k = s.R (8 + k)
  rw [low_join]
  by_cases hin : (i - 1) * 8 ≤ k ∧ k < (i - 1) * 8 + 8
  · obtain ⟨d, rfl⟩ := Nat.exists_eq_add_of_le hin.1
    rw [putHalf_in (by omega)]
    show s.R (8 * i + d) = s.R (8 + ((i - 1) * 8 + d))
    congr 1
    omega
  · rw [putHalf_out (by omega), h.R k hk]
    exact putHalf_out (by omega)

/-! ## All turns -/

theorem mem_halfNumbers {n i : Nat} (h : i ∈ halfNumbers n) : 0 < i ∧ i ≤ n := by
  obtain ⟨k, hk, rfl⟩ := List.mem_map.mp h
  have := List.mem_range.mp hk
  omega

theorem unwrapLoops_wrapLoops (key : Block) (n : Nat) {r' : Mem} {s t : State}
    (h : Same n r' (wrapLoops (rtmpAesSetKey key) n s) t) :
    Same n r' s (unwrapLoops (rtmpAesSetKey key) n t) := by
  refine Undo.foldl_reverse (fun j _ _ _ => ?_) h
  refine Undo.foldl_reverse fun i hi _ _ => ?_
  obtain ⟨hpos, hle⟩ := mem_halfNumbers hi
  exact unwrapTurn_wrapTurn key j hpos hle

/-- The wrapped text is taken apart as it was put together. -/
theorem unwrapStart_same (n : Nat) (r' : Mem) (s : State) :
    Same n r' s (unwrapStart r' (List.ofFn s.A ++ segment s.R 8 (8 * n))) := by
  have hdrop : (List.ofFn s.A ++ segment s.R 8 (8 * n)).drop 8 = segment s.R 8 (8 * n) :=
    List.drop_left' List.length_ofFn
  refine ⟨funext fun i => ?_, fun i hi => ?_, fun i hi => ?_⟩
  · show (List.ofFn s.A ++ segment s.R 8 (8 * n)).getD i 0 = s.A i
    have hi : (i : Nat) < (List.ofFn s.A).length := by
      rw [List.length_ofFn]
      exact i.isLt
    rw [List.getD_eq_getElem?_getD, List.getElem?_append_left hi, List.getElem?_ofFn,
      dif_pos i.isLt]
    rfl
  · show store r' 0 _ i = s.R (8 + i)
    rw [hdrop]
    unfold store
    rw [if_pos ⟨Nat.zero_le i, by rw [length_segment]; omega⟩, Nat.sub_zero,
      List.getD_eq_getElem?_getD, getElem?_segment _ hi]
    rfl
  · show store r' 0 _ i = r' i
    rw [hdrop]
    unfold store
    rw [if_neg (by rw [length_segment]; omega)]

theorem length_aesGtkKeyWrap (r : Mem) (key : Block) (plaintext : List Byte) :
    (aesGtkKeyWrap r key plaintext).length = 8 + 8 * (plaintext.length / 8) := by
  unfold aesGtkKeyWrap
  rw [List.length_append, List.length_ofFn, length_segment]

/-- **Unwrapping takes wrapping back**: the text is what was wrapped, whatever the two arrays
held, and eight bytes from the second one follow. -/
theorem aesGtkKeyUnwrap_aesGtkKeyWrap (r r' : Mem) (key : Block) {plaintext : List Byte}
    (h : 8 ∣ plaintext.length) :
    aesGtkKeyUnwrap r' key (aesGtkKeyWrap r key plaintext)
      = plaintext ++ segment r' plaintext.length 8 := by
  obtain ⟨n, hn⟩ := h
  have hlen : (aesGtkKeyWrap r key plaintext).length = plaintext.length + 8 := by
    rw [length_aesGtkKeyWrap]
    omega
  have hback : Same n r' ⟨initialValue, store r 8 plaintext⟩ (unwrapLoops (rtmpAesSetKey key) n
      (unwrapStart r' (aesGtkKeyWrap r key plaintext))) := by
    refine unwrapLoops_wrapLoops key n ?_
    unfold aesGtkKeyWrap
    rw [show plaintext.length / 8 = n by omega]
    dsimp only
    rw [List.take_of_length_le (Nat.le_of_eq hn)]
    exact unwrapStart_same n r' _
  unfold aesGtkKeyUnwrap
  rw [hlen, show (plaintext.length + 8) / 8 - 1 = n by omega]
  dsimp only
  rw [segment_add, Nat.zero_add]
  congr 1
  · refine Eq.trans ?_ (segment_store_self r 8 plaintext)
    refine segment_congr fun i hi => ?_
    rw [Nat.zero_add]
    exact hback.R i (by omega)
  · exact segment_congr fun i hi => hback.rest _ (by omega)

end ExtDrv.Rt3370.KeyWrap
