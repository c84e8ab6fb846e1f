import ExtDrv.Lib.WrapRounds
import ExtDrv.Lib.Blocks
import ExtDrv.Rt3370.EapolKeyData
import Mathlib.Tactic.IntervalCases
import Mathlib.Tactic.NormNum

/-!
# The key wrap and its standard

The wrap of RFC 3394, over any keyed permutation of blocks, beside `AES_GTK_KEY_WRAP` and
`AES_GTK_KEY_UNWRAP` with that permutation in the place of the AES: the routines keep the number of
a turn in one byte, and neither the unwrapping nor `PeerWpaMessageSanity` looks at the register.
-/

namespace ExtDrv.Rt3370.KeyWrap

open Ccm Memory RtmpAes WrapRounds Wpa

/-! ## The standard -/

/-- A block cipher, by its keys. -/
structure KeyedPermutation where
  enc : Block → Block → Block
  dec : Block → Block → Block
  dec_enc : ∀ key b, dec key (enc key b) = b
  enc_dec : ∀ key b, enc key (dec key b) = b

/-- `MSB(64, ..)` and `LSB(64, ..)` of a block that is made of two halves. -/
def onHalves (E : Block → Block) (x : Half × Half) : Half × Half :=
  (high (E (join x.1 x.2)), low (E (join x.1 x.2)))

/-- `A ^ t`, `t` a number of 64 bits. -/
def count64 (t : Nat) (a : Half) : Half :=
  fun i => a i ^^^ BitVec.ofNat 8 (t / 256 ^ (7 - (i : Nat)))

/-- The bytes of some halves. -/
def bytesOf (hs : List Half) : List Byte := hs.flatMap List.ofFn

/-- The halves of some bytes. -/
def halvesOf (bs : List Byte) : List Half :=
  (List.range (bs.length / 8)).map fun i k => bs.getD (8 * i + k) 0

/-- The key wrap of RFC 3394. -/
def standardWrap (E : Block → Block) (p : List Half) : List Half :=
  let s := wrap (onHalves E) count64 p.length ⟨initialValue, fun i => p.getD (i - 1) 0⟩
  s.A :: (numbers p.length).map s.R

/-- Its unwrapping: the register that is to be compared with the initial value, and the text. -/
def standardUnwrap (D : Block → Block) (c : List Half) : Half × List Half :=
  let s := unwrap (onHalves D) count64 (c.length - 1) ⟨c.getD 0 0, fun i => c.getD i 0⟩
  (s.A, (numbers (c.length - 1)).map s.R)

/-! ## The routines over a permutation -/

section Routines

variable (E : Block → Block) (numBlocks : Nat)

/-- `wrapTurn`. -/
def wrapTurnBy (j : Nat) (s : State) (i : Nat) : State :=
  let bout := E (join s.A (field s.R (8 * i) 8))
  ⟨count (high bout) (numBlocks * j + i), putHalf s.R (8 * i) (low bout)⟩

/-- `unwrapTurn`. -/
def unwrapTurnBy (j : Nat) (s : State) (i : Nat) : State :=
  let bout := E (join (count s.A (numBlocks * j + i)) (field s.R ((i - 1) * 8) 8))
  ⟨high bout, putHalf s.R ((i - 1) * 8) (low bout)⟩

/-- `AES_GTK_KEY_WRAP`. -/
def aesGtkKeyWrapBy (r : Mem) (plaintext : List Byte) : List Byte :=
  let numBlocks := plaintext.length / 8
  let s := (List.range 6).foldl
    (fun s j => (halfNumbers numBlocks).foldl (wrapTurnBy E numBlocks j) s)
    ⟨initialValue, store r 8 (plaintext.take (8 * numBlocks))⟩
  List.ofFn s.A ++ segment s.R 8 (8 * numBlocks)

/-- `AES_GTK_KEY_UNWRAP`. -/
def aesGtkKeyUnwrapBy (r : Mem) (ciphertext : List Byte) : List Byte :=
  let n := ciphertext.length / 8 - 1
  let s := (List.range 6).reverse.foldl
    (fun s j => (halfNumbers n).reverse.foldl (unwrapTurnBy E n j) s) (unwrapStart r ciphertext)
  segment s.R 0 ciphertext.length

end Routines

/-- They are the driver's, over its AES. -/
theorem aesGtkKeyWrapBy_aes (r : Mem) (key : Block) (plaintext : List Byte) :
    aesGtkKeyWrapBy (rtmpAesEncrypt (rtmpAesSetKey key)) r plaintext
      = aesGtkKeyWrap r key plaintext := rfl

theorem aesGtkKeyUnwrapBy_aes (r : Mem) (key : Block) (ciphertext : List Byte) :
    aesGtkKeyUnwrapBy (rtmpAesDecrypt (rtmpAesSetKey key)) r ciphertext
      = aesGtkKeyUnwrap r key ciphertext := rfl

/-! ## Bytes and halves -/

theorem bytesOf_cons (h : Half) (hs : List Half) : bytesOf (h :: hs) = List.ofFn h ++ bytesOf hs :=
  rfl

theorem length_bytesOf (hs : List Half) : (bytesOf hs).length = 8 * hs.length := by
  induction hs with
  | nil => rfl
  | cons h hs ih =>
      rw [bytesOf_cons, List.length_append, ih, List.length_ofFn, List.length_cons]
      omega

@[simp] theorem length_halvesOf (bs : List Byte) : (halvesOf bs).length = bs.length / 8 := by
  simp [halvesOf]

theorem halvesOf_getD {bs : List Byte} {i : Nat} (hi : i < bs.length / 8) (k : Fin 8) :
    (halvesOf bs).getD i 0 k = bs.getD (8 * i + k) 0 := by
  simp [halvesOf, List.getD_eq_getElem?_getD, hi]

/-- The bytes of a field. -/
theorem segment_field (m : Mem) (o : Nat) : segment m o 8 = List.ofFn (field m o 8) := by
  rw [List.ofFn_eq_map]
  rfl

/-- The halves that lie behind each other in memory. -/
theorem segment_halves (m : Mem) (o n : Nat) :
    segment m o (8 * n) = bytesOf ((numbers n).map fun i => field m (o + 8 * (i - 1)) 8) := by
  induction n with
  | zero => rfl
  | succ n ih =>
      have hnumbers : numbers (n + 1) = numbers n ++ [n + 1] := by
        simp [numbers, List.range_succ]
      rw [Nat.mul_succ, segment_add, ih, hnumbers, List.map_append, bytesOf, bytesOf,
        List.flatMap_append, segment_field]
      simp

/-- A byte that a store put there. -/
theorem store_get (m : Mem) (o i : Nat) {bs : List Byte} (hi : i < bs.length) :
    store m o bs (o + i) = bs.getD i 0 := by
  unfold store
  rw [if_pos ⟨Nat.le_add_right o i, by omega⟩, Nat.add_sub_cancel_left]

/-! ## The turns, simulated -/

/-- The array has the halves from `o` on, and behind them what it held before. -/
structure Simulates (o n : Nat) (r : Mem) (s : State) (t : Halves Half Half) : Prop where
  A : s.A = t.A
  R : ∀ i, 0 < i → i ≤ n → field s.R (o + 8 * (i - 1)) 8 = t.R i
  rest : ∀ i, o + 8 * n ≤ i → s.R i = r i

/-- A half is put in its place. -/
theorem Simulates.put {o n i : Nat} {r : Mem} {s : State} {t : Halves Half Half}
    (h : Simulates o n r s t) (hpos : 0 < i) (hi : i ≤ n) (a b : Half) :
    Simulates o n r ⟨a, putHalf s.R (o + 8 * (i - 1)) b⟩ ⟨a, Function.update t.R i b⟩ where
  A := rfl
  R := by
    intro k hk hkn
    show field (putHalf s.R (o + 8 * (i - 1)) b) (o + 8 * (k - 1)) 8 = Function.update t.R i b k
    by_cases hki : k = i
    · subst hki
      rw [field_putHalf, Function.update_self]
    · rw [Function.update_of_ne hki, ← h.R k hk hkn]
      funext x
      exact putHalf_out (by omega)
  rest := by
    intro k hk
    show putHalf s.R (o + 8 * (i - 1)) b k = r k
    rw [putHalf_out (by omega)]
    exact h.rest k hk

section Turns

variable (E : Block → Block) {n i : Nat} {r : Mem} {s : State} {t : Halves Half Half}

theorem wrapTurnBy_simulates (j : Nat) (hpos : 0 < i) (hi : i ≤ n) (h : Simulates 8 n r s t) :
    Simulates 8 n r (wrapTurnBy E n j s i)
      (turn (onHalves E) (fun t a => count a t) n j t i) := by
  have hat : 8 * i = 8 + 8 * (i - 1) := by omega
  unfold wrapTurnBy turn onHalves
  rw [hat, h.R i hpos hi, h.A]
  exact h.put hpos hi _ _

theorem unwrapTurnBy_simulates (j : Nat) (hpos : 0 < i) (hi : i ≤ n) (h : Simulates 0 n r s t) :
    Simulates 0 n r (unwrapTurnBy E n j s i)
      (unturn (onHalves E) (fun t a => count a t) n j t i) := by
  have hat : (i - 1) * 8 = 0 + 8 * (i - 1) := by omega
  unfold unwrapTurnBy unturn onHalves
  rw [hat, h.R i hpos hi, h.A]
  exact h.put hpos hi _ _

end Turns

/-- All turns: each fold goes over the same numbers. -/
theorem loops_simulate {ns : List Nat} {js : List Nat} {n : Nat} {o : Nat} {r : Mem}
    {f : Nat → State → Nat → State} {g : Nat → Halves Half Half → Nat → Halves Half Half}
    (hturn : ∀ j i s t, i ∈ ns → Simulates o n r s t → Simulates o n r (f j s i) (g j t i))
    {s : State} {t : Halves Half Half} (h : Simulates o n r s t) :
    Simulates o n r (js.foldl (fun s j => ns.foldl (f j) s) s)
      (js.foldl (fun t j => ns.foldl (g j) t) t) := by
  refine List.foldl_rel h fun j _ s t hst => ?_
  exact List.foldl_rel hst fun i hi s t hst => hturn j i s t hi hst

/-- The number of a turn, in one byte, is its number while that is below 256. -/
theorem count64_eq {t : Nat} (h : t < 256) : count64 t = fun a => count a t := by
  funext a k
  unfold count64 count
  by_cases hk : k = 7
  · subst hk
    rw [Function.update_self]
    norm_num
  · have hlt : (k : Nat) < 7 := by
      have hne : (k : Nat) ≠ 7 := fun h => hk (Fin.ext h)
      omega
    have hpow : 256 ^ 1 ≤ 256 ^ (7 - (k : Nat)) := Nat.pow_le_pow_right (by omega) (by omega)
    rw [Function.update_of_ne hk, Nat.div_eq_of_lt (by omega)]
    simp

/-! ## What the routines compute -/

/-- `AES_GTK_KEY_WRAP` wraps, with the number of a turn in one byte. -/
theorem aesGtkKeyWrapBy_eq (E : Block → Block) (r : Mem) {plaintext : List Byte} {n : Nat}
    (hn : plaintext.length = 8 * n) {t : Halves Half Half}
    (ht : t = wrap (onHalves E) (fun t a => count a t) n
      ⟨initialValue, fun i => (halvesOf plaintext).getD (i - 1) 0⟩) :
    aesGtkKeyWrapBy E r plaintext = bytesOf (t.A :: (numbers n).map t.R) := by
  have hblocks : plaintext.length / 8 = n := by omega
  have hstart : Simulates 8 n (store r 8 plaintext) ⟨initialValue, store r 8 plaintext⟩
      ⟨initialValue, fun i => (halvesOf plaintext).getD (i - 1) 0⟩ := by
    constructor <;> dsimp only
    case R =>
      intro i hpos hi
      funext k
      rw [halvesOf_getD (by omega)]
      show store r 8 plaintext (8 + 8 * (i - 1) + k) = _
      rw [Nat.add_assoc, store_get _ _ _ (by omega)]
    case rest =>
      intro i _
      rfl
  have hend : Simulates 8 n (store r 8 plaintext)
      ((List.range 6).foldl (fun s j => (halfNumbers n).foldl (wrapTurnBy E n j) s)
        ⟨initialValue, store r 8 plaintext⟩) t := by
    rw [ht]
    refine loops_simulate (fun j i s t hi h => ?_) hstart
    exact wrapTurnBy_simulates E j (mem_numbers hi).1 (mem_numbers hi).2 h
  unfold aesGtkKeyWrapBy
  rw [hblocks]
  dsimp only
  rw [List.take_of_length_le (by omega), segment_halves, bytesOf_cons, hend.A]
  congr 2
  refine List.map_congr_left fun i hi => ?_
  exact hend.R i (mem_numbers hi).1 (mem_numbers hi).2

/-- `AES_GTK_KEY_UNWRAP` unwraps, in the same way, and writes eight bytes more: what its array held
behind the halves. -/
theorem aesGtkKeyUnwrapBy_eq (D : Block → Block) (r : Mem) {ciphertext : List Byte} {n : Nat}
    (hn : ciphertext.length = 8 * (n + 1)) {t : Halves Half Half}
    (ht : t = unwrap (onHalves D) (fun t a => count a t) n
      ⟨(halvesOf ciphertext).getD 0 0, fun i => (halvesOf ciphertext).getD i 0⟩) :
    aesGtkKeyUnwrapBy D r ciphertext
      = bytesOf ((numbers n).map t.R) ++ segment r (8 * n) 8 := by
  have hblocks : ciphertext.length / 8 - 1 = n := by omega
  have hstart : Simulates 0 n r (unwrapStart r ciphertext)
      ⟨(halvesOf ciphertext).getD 0 0, fun i => (halvesOf ciphertext).getD i 0⟩ := by
    constructor <;> dsimp only [unwrapStart]
    case A =>
      funext k
      rw [halvesOf_getD (by omega), Nat.mul_zero, Nat.zero_add]
    case R =>
      intro i hpos hi
      funext k
      rw [halvesOf_getD (by omega)]
      show store r 0 (ciphertext.drop 8) (0 + 8 * (i - 1) + k) = _
      rw [Nat.add_assoc, store_get _ _ _ (by rw [List.length_drop]; omega),
        List.getD_eq_getElem?_getD, List.getD_eq_getElem?_getD, List.getElem?_drop]
      congr 2
      omega
    case rest =>
      intro i hi
      exact Blocks.store_outside (Or.inr (by rw [List.length_drop]; omega))
  have hend : Simulates 0 n r
      ((List.range 6).reverse.foldl
        (fun s j => (halfNumbers n).reverse.foldl (unwrapTurnBy D n j) s)
        (unwrapStart r ciphertext)) t := by
    rw [ht]
    refine loops_simulate (fun j i s t hi h => ?_) hstart
    have hi := mem_numbers (List.mem_reverse.mp hi)
    exact unwrapTurnBy_simulates D j hi.1 hi.2 h
  unfold aesGtkKeyUnwrapBy
  rw [hblocks, hn, Nat.mul_succ]
  dsimp only
  rw [segment_add, segment_halves, Nat.zero_add]
  congr 1
  · congr 1
    refine List.map_congr_left fun i hi => ?_
    exact hend.R i (mem_numbers hi).1 (mem_numbers hi).2
  · refine segment_congr fun i hi => ?_
    exact hend.rest _ (by omega)

/-! ## Where the wrapping is the standard's -/

/-- The register after all turns over a permutation that changes nothing, byte 6 of it: `d` is what
a turn puts there. -/
theorem wrap_id_byte6 {cnt : Nat → Half → Half} {d : Nat → Byte}
    (hcnt : ∀ t a, cnt t a 6 = a 6 ^^^ d t) (n : Nat) (s : Halves Half Half) :
    (wrap (onHalves id) cnt n s).A 6
      = (List.range 6).foldl
          (fun b j => (numbers n).foldl (fun b i => b ^^^ d (n * j + i)) b) (s.A 6) := by
  symm
  refine List.foldl_hom (fun s : Halves Half Half => s.A 6) fun s j => ?_
  refine List.foldl_hom (fun s : Halves Half Half => s.A 6) fun s i => ?_
  show s.A 6 ^^^ d (n * j + i) = cnt (n * j + i) (high (join s.A (s.R i))) 6
  rw [hcnt, high_join]

/-- From 43 halves on, and while they fit the array, byte 6 of the register tells the two numbers
of a turn apart: an odd count of them goes over 255. -/
theorem byte6_apart : ∀ n < 64, 42 < n →
    (List.range 6).foldl
        (fun b j => (numbers n).foldl (fun b i => b ^^^ BitVec.ofNat 8 ((n * j + i) / 256)) b)
        0xa6#8
      ≠ (List.range 6).foldl (fun b _ => (numbers n).foldl (fun b _ => b ^^^ 0#8) b) 0xa6#8 := by
  intro n hn hmany
  interval_cases n <;> decide +kernel

/-- The permutation that changes nothing. -/
def KeyedPermutation.unchanged : KeyedPermutation where
  enc _ b := b
  dec _ b := b
  dec_enc _ _ := rfl
  enc_dec _ _ := rfl

/-- `AES_GTK_KEY_WRAP` returns the standard's wrapping, for every cipher and key and whatever its
array held. -/
def WrapConforms (plaintext : List Byte) : Prop :=
  ∀ (C : KeyedPermutation) (key : Block) (r : Mem),
    aesGtkKeyWrapBy (C.enc key) r plaintext
      = bytesOf (standardWrap (C.enc key) (halvesOf plaintext))

/-- A text that fits the array, eight bytes of which come before it. -/
theorem wrapConforms_iff {plaintext : List Byte} (h8 : 8 ∣ plaintext.length)
    (hfits : 8 + plaintext.length ≤ 512) :
    WrapConforms plaintext ↔ plaintext.length ≤ 336 := by
  obtain ⟨n, hn⟩ := h8
  have hblocks : (halvesOf plaintext).length = n := by
    rw [length_halvesOf]
    omega
  constructor
  · intro h
    by_contra hlong
    have heq := h .unchanged (fun _ => 0) (fun _ => 0)
    rw [aesGtkKeyWrapBy_eq _ _ hn rfl, standardWrap, hblocks] at heq
    rw [bytesOf_cons, bytesOf_cons] at heq
    have hA := congrFun (List.ofFn_injective (List.append_inj heq (by simp)).1) 6
    have hid : KeyedPermutation.unchanged.enc (fun _ => 0) = id := rfl
    have hcode : ∀ (t : Nat) (a : Half), count a t 6 = a 6 ^^^ 0#8 := by
      intro t a
      rw [count, Function.update_of_ne (by decide), BitVec.xor_zero]
    have hstandard : ∀ (t : Nat) (a : Half),
        count64 t a 6 = a 6 ^^^ BitVec.ofNat 8 (t / 256) := by
      intro t a
      rfl
    rw [hid, wrap_id_byte6 hcode, wrap_id_byte6 hstandard] at hA
    exact byte6_apart n (by omega) (by omega) hA.symm
  · intro hshort C key r
    rw [aesGtkKeyWrapBy_eq _ _ hn rfl, standardWrap, hblocks]
    rw [wrap_congr fun t ht => (count64_eq (by omega)).symm]

/-! ## Where the unwrapping is the standard's -/

section Unwrapping

variable (C : KeyedPermutation) (c : Crypto) (ptk : Bytes 64) (p : Mem) (ty : MsgType)
  (bWPA2 : Bool)

/-- The key data is encrypted by AES, and is some halves. -/
structure AesKeyData : Prop where
  encrypted : keyDataEncrypted ty bWPA2 = true
  version : (keyInfo p).KeyDescVer = keyDescAes
  halves : 8 ∣ keyDataLen p
  some : 0 < keyDataLen p
  fits : keyDataLen p ≤ 512

/-- The register and the text that the standard gives for the key data. -/
def unwrapped : Half × List Half :=
  standardUnwrap (C.dec (kek ptk)) (halvesOf (keyData p (keyDataLen p)))

/-- What `PeerWpaMessageSanity` has for `RTMPParseEapolKeyData`: its `KEYDATA`, of which `heap` is
what it held before, and the length. `r` is what the array of `AES_GTK_KEY_UNWRAP` held. -/
def takenKeyData (heap r : Mem) (g : Grants) : Except Fault (Option (Mem × Nat)) :=
  keyDataOf { c with aesKeyUnwrap := fun key => aesGtkKeyUnwrapBy (C.dec key) r } g heap ptk p ty
    bWPA2

/-- Where the memory is granted, key data is taken if and only if the register is the initial value,
and then it is the text, and nothing behind it is written. -/
def UnwrapConforms : Prop :=
  ∀ (heap r : Mem) (g : Grants), g.unwrap = true →
    ∃ taken, takenKeyData C c ptk p ty bWPA2 heap r g = .ok taken ∧
      (taken.isSome ↔ (unwrapped C ptk p).1 = initialValue) ∧
      ∀ text len, taken = some (text, len) →
        len = keyDataLen p - 8 ∧ segment text 0 len = bytesOf (unwrapped C ptk p).2 ∧
          ∀ i, len ≤ i → text i = heap i

variable {ptk p ty bWPA2}

/-- All memory is there. -/
def allGranted : Grants where
  keyData := some fun _ => 0
  unwrap := true
  prf := true
  mpool := true
  snonce := .zero 32
  ptkStack := .zero 64

/-- The text is eight bytes shorter than the key data. -/
theorem length_unwrapped (h8 : 8 ∣ keyDataLen p) :
    (bytesOf (unwrapped C ptk p).2).length = keyDataLen p - 8 := by
  rw [length_bytesOf, unwrapped, standardUnwrap, List.length_map, numbers, List.length_map,
    List.length_range, length_halvesOf, keyData, length_segment]
  omega

/-- **The register does not count.** Key data that fits `KEYDATA` is taken, as the standard's text
with eight bytes behind it from the array of the unwrapping. -/
theorem takenKeyData_eq (h : AesKeyData p ty bWPA2) (hshort : keyDataLen p ≤ 255) (heap r : Mem)
    {g : Grants} (hg : g.unwrap = true) :
    takenKeyData C c ptk p ty bWPA2 heap r g
      = .ok (some (store heap 0 (bytesOf (unwrapped C ptk p).2 ++ segment r (keyDataLen p - 8) 8),
          keyDataLen p - 8)) := by
  have hsome := h.some
  obtain ⟨m, hm⟩ := h.halves
  have hn : (keyData p (keyDataLen p)).length = 8 * (m - 1 + 1) := by
    rw [keyData, length_segment]
    omega
  have hblocks : (halvesOf (keyData p (keyDataLen p))).length - 1 = m - 1 := by
    rw [length_halvesOf]
    omega
  have htext : aesGtkKeyUnwrapBy (C.dec (kek ptk)) r (keyData p (keyDataLen p))
      = bytesOf (unwrapped C ptk p).2 ++ segment r (keyDataLen p - 8) 8 := by
    rw [aesGtkKeyUnwrapBy_eq _ _ hn rfl, unwrapped, standardUnwrap, hblocks,
      unwrap_congr fun t ht => (count64_eq (by omega)).symm,
      show 8 * (m - 1) = keyDataLen p - 8 by omega]
  unfold takenKeyData keyDataOf
  simp only [h.encrypted, h.version, hg, htext]
  rw [if_neg (by omega), if_pos trivial, if_pos trivial]
  simp only [Bool.not_true, Bool.false_eq_true, if_false]
  rw [if_neg (by omega)]

/-- Key data that does not fit goes over the end of `KEYDATA`. -/
theorem takenKeyData_long (h : AesKeyData p ty bWPA2) (hlong : 255 < keyDataLen p) (heap r : Mem)
    {g : Grants} (hg : g.unwrap = true) :
    takenKeyData C c ptk p ty bWPA2 heap r g = .error (.keyDataOverrun (keyDataLen p)) := by
  unfold takenKeyData keyDataOf
  simp only [h.encrypted, h.version, hg]
  rw [if_neg (by omega), if_pos trivial, if_pos trivial]
  simp only [Bool.not_true, Bool.false_eq_true, if_false]
  rw [if_pos (Or.inr hlong)]

/-- **No key data is unwrapped as it should be**: eight bytes behind the text are written, where
the register is the initial value too. -/
theorem not_unwrapConforms (h : AesKeyData p ty bWPA2) : ¬ UnwrapConforms C c ptk p ty bWPA2 := by
  intro hconf
  have hsome := h.some
  obtain ⟨m, hm⟩ := h.halves
  have hg : allGranted.unwrap = true := rfl
  obtain ⟨taken, htaken, -, hwritten⟩ := hconf (fun _ => 0) (fun _ => 1) _ hg
  rcases Nat.lt_or_ge 255 (keyDataLen p) with hlong | hshort
  · rw [takenKeyData_long C c h hlong _ _ hg] at htaken
    cases htaken
  · rw [takenKeyData_eq C c h hshort _ _ hg] at htaken
    obtain ⟨-, -, hbehind⟩ := hwritten _ _ (Except.ok.inj htaken).symm
    have hat := hbehind (keyDataLen p - 8) (Nat.le_refl _)
    have hlen : (bytesOf (unwrapped C ptk p).2).length = keyDataLen p - 8 :=
      length_unwrapped C h.halves
    rw [← Nat.zero_add (keyDataLen p - 8), store_get _ _ _ (by
      rw [List.length_append, hlen, length_segment]
      omega)] at hat
    rw [List.getD_eq_getElem?_getD, List.getElem?_append_right (by omega), hlen, Nat.zero_add,
      Nat.sub_self] at hat
    have hone : (1 : Byte) = 0 := hat
    exact absurd hone (by decide)

/-- **The routines and the standard**: the wrapping is the standard's up to 42 halves, the
unwrapping with what its caller makes of it never is. -/
theorem keyWrap_iff (ptk : Bytes 64) {plaintext : List Byte} (h8 : 8 ∣ plaintext.length)
    (hfits : 8 + plaintext.length ≤ 512) (h : AesKeyData p ty bWPA2) :
    (WrapConforms plaintext ↔ plaintext.length ≤ 336) ∧ ¬ UnwrapConforms C c ptk p ty bWPA2 :=
  ⟨wrapConforms_iff h8 hfits, not_unwrapConforms C c h⟩

end Unwrapping

/-- A first message of the group handshake with 24 bytes of key data, all of them zero. -/
def zeroKeyData : Mem := fun i => if i = 6 then 2 else if i = 98 then 24 else 0

theorem zeroKeyData_aes : AesKeyData zeroKeyData .groupMsg1 true where
  encrypted := rfl
  version := by decide
  halves := by decide
  some := by decide
  fits := by decide

/-- Ciphers that do not do anything. -/
def noCiphers : Crypto where
  rtHmacMd5 _ _ := .zero 16
  rtHmacSha1 _ _ := .zero 20
  aesKeyUnwrap _ text := text
  arc4Compute _ text := text

theorem keyWrap_iff_zeros :
    (WrapConforms (List.replicate 24 0) ↔ (List.replicate 24 (0 : Byte)).length ≤ 336) ∧
      ∀ c ptk, ¬ UnwrapConforms .unchanged c ptk zeroKeyData .groupMsg1 true := by
  have h8 : 8 ∣ (List.replicate 24 (0 : Byte)).length := by
    rw [List.length_replicate]
    decide
  have hfits : 8 + (List.replicate 24 (0 : Byte)).length ≤ 512 := by
    rw [List.length_replicate]
    decide
  constructor
  · exact (keyWrap_iff .unchanged noCiphers (.zero 64) h8 hfits zeroKeyData_aes).1
  · intro c ptk
    exact (keyWrap_iff .unchanged c ptk h8 hfits zeroKeyData_aes).2

/-- 43 halves of zeros are not wrapped as the standard does; and zeros over the permutation that
changes nothing, for which the register is not the initial value, are taken. -/
theorem zeros_broken :
    ¬ WrapConforms (List.replicate 344 0) ∧
      ∀ c ptk, (unwrapped .unchanged ptk zeroKeyData).1 ≠ initialValue ∧
        (∀ heap r, ∃ text,
          takenKeyData .unchanged c ptk zeroKeyData .groupMsg1 true heap r allGranted
            = .ok (some text)) ∧
        ¬ UnwrapConforms .unchanged c ptk zeroKeyData .groupMsg1 true := by
  constructor
  · have hlen : (List.replicate 344 (0 : Byte)).length = 344 := List.length_replicate
    rw [wrapConforms_iff (by rw [hlen]; decide) (by rw [hlen]; decide), hlen]
    decide
  · intro c ptk
    refine ⟨?_, ?_, not_unwrapConforms .unchanged c zeroKeyData_aes⟩
    · intro h
      have hid : unwrapped .unchanged ptk zeroKeyData
          = standardUnwrap id (halvesOf (keyData zeroKeyData (keyDataLen zeroKeyData))) := rfl
      have hfirst : (standardUnwrap id
          (halvesOf (keyData zeroKeyData (keyDataLen zeroKeyData)))).1 0 = 0 := by decide +kernel
      rw [← hid, h] at hfirst
      exact absurd hfirst (by decide)
    · intro heap r
      exact ⟨_, takenKeyData_eq .unchanged c zeroKeyData_aes (by decide) heap r rfl⟩

end ExtDrv.Rt3370.KeyWrap
