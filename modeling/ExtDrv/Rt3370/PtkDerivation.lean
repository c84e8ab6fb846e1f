import ExtDrv.Lib.Memory
import ExtDrv.Rt3370.Wpa

/-!
# The derivation of the pairwise key

`PRF` and `WpaDerivePTK` (`cmm_wpa.c`) on the memory they work in: the input that is put together
and counted up in its last octet, the output that grows by a digest in every turn. The two sides
of a handshake call `WpaDerivePTK` with the same addresses and nonces, and both have to come to
the same key.
-/

namespace ExtDrv.Rt3370.PtkDerivation

open Memory BigEndian

/-! ## The routines -/

/-- HMAC-SHA1: key, text. -/
abbrev HmacSha1 := List (BitVec 8) → List (BitVec 8) → Bytes 20

/-- The variables of `PRF`. -/
structure PrfState where
  input : Mem
  output : Mem
  currentindex : Nat

/-- One turn of the loop of `PRF`. -/
def prfTurn (rtHmacSha1 : HmacSha1) (key : List (BitVec 8)) (total_len : Nat) (s : PrfState) :
    PrfState where
  output := store s.output s.currentindex
    (List.ofFn (rtHmacSha1 key (segment s.input 0 total_len)))
  currentindex := s.currentindex + 20
  -- update the last octet
  input := store s.input (total_len - 1) [s.input (total_len - 1) + 1]

/-- `PRF`. `input` is what `os_alloc_mem` gives, if it does. -/
def prf (rtHmacSha1 : HmacSha1) (input : Option Mem) (key pfx data : List (BitVec 8))
    (output : Mem) (len : Nat) : Mem :=
  match input with
  | none => output
  | some input =>
      let input := store input 0 pfx
      let input := store input pfx.length [0]
      let input := store input (pfx.length + 1) data
      let total_len := pfx.length + 1 + data.length
      let input := store input total_len [0]
      let total_len := total_len + 1
      ((prfTurn rtHmacSha1 key total_len)^[(len + 19) / 20] ⟨input, output, 0⟩).output

/-- `concatenation` of `WpaDerivePTK`. -/
def concatenation (anonce : Bytes 32) (aa : Bytes 6) (snonce : Bytes 32) (sa : Bytes 6) : Mem :=
  let ANonce := List.ofFn anonce
  let AA := List.ofFn aa
  let SNonce := List.ofFn snonce
  let SA := List.ofFn sa
  let mem : Mem := store (fun _ => 0) 0 (if rtmpCompareMemory SA AA = 1 then AA else SA)
  let mem := store mem 6 (if rtmpCompareMemory SA AA = 1 then SA else AA)
  -- the larger address, for equal nonces
  let temp := store (fun _ => 0) 0 (segment mem 6 6)
  let mem := store mem 12
    (if rtmpCompareMemory ANonce SNonce = 0 then segment temp 0 32
    else if rtmpCompareMemory ANonce SNonce = 1 then SNonce else ANonce)
  store mem 44
    (if rtmpCompareMemory ANonce SNonce = 0 then segment temp 0 32
    else if rtmpCompareMemory ANonce SNonce = 1 then ANonce else SNonce)

/-- `WpaDerivePTK`. -/
def wpaDerivePTK (rtHmacSha1 : HmacSha1) (input : Option Mem) (pmk anonce : Bytes 32)
    (aa : Bytes 6) (snonce : Bytes 32) (sa : Bytes 6) (output : Mem) (len : Nat) : Mem :=
  prf rtHmacSha1 input (List.ofFn pmk) Wpa.pairwiseKeyExpansion
    (segment (concatenation anonce aa snonce sa) 0 76) output len

/-! ## The standard -/

/-- The HMAC of the label, a zero, the data and the number `i`. -/
def block (hmac : HmacSha1) (key label data : List (BitVec 8)) (i : Nat) : List (BitVec 8) :=
  List.ofFn (hmac key (label ++ [0] ++ data ++ [BitVec.ofNat 8 i]))

/-- The blocks one after the other. -/
def blocks (hmac : HmacSha1) (key label data : List (BitVec 8)) (n : Nat) : List (BitVec 8) :=
  (List.range n).flatMap (block hmac key label data)

/-- The first `len` bytes of the blocks. -/
def prfOctets (hmac : HmacSha1) (key label data : List (BitVec 8)) (len : Nat) : List (BitVec 8) :=
  (blocks hmac key label data ((len + 19) / 20)).take len

/-- The smaller of two strings of one length, as numbers. -/
def lesser (a b : List (BitVec 8)) : List (BitVec 8) := if beNat a ≤ beNat b then a else b

/-- The larger. -/
def greater (a b : List (BitVec 8)) : List (BitVec 8) := if beNat a ≤ beNat b then b else a

/-- What the key is derived from. -/
def keyData (anonce : Bytes 32) (aa : Bytes 6) (snonce : Bytes 32) (sa : Bytes 6) :
    List (BitVec 8) :=
  lesser (List.ofFn aa) (List.ofFn sa) ++ greater (List.ofFn aa) (List.ofFn sa)
    ++ lesser (List.ofFn anonce) (List.ofFn snonce) ++ greater (List.ofFn anonce) (List.ofFn snonce)

/-! ## The iterated hash -/

section

variable (hmac : HmacSha1) (key msg : List (BitVec 8))

theorem blocks_succ (label data : List (BitVec 8)) (n : Nat) :
    blocks hmac key label data (n + 1)
      = blocks hmac key label data n ++ block hmac key label data n := by
  simp [blocks, List.range_succ]

theorem length_blocks (label data : List (BitVec 8)) (n : Nat) :
    (blocks hmac key label data n).length = 20 * n := by
  induction n with
  | zero => rfl
  | succ n ih => rw [blocks_succ, List.length_append, ih, block, List.length_ofFn, Nat.mul_succ]

/-- The loop of `PRF` after `n` turns that began with `output`. -/
structure Turned (label data : List (BitVec 8)) (output : Mem) (n : Nat) (s : PrfState) :
    Prop where
  index : s.currentindex = 20 * n
  input : segment s.input 0 (label.length + 1 + data.length) = label ++ [0] ++ data
  last : s.input (label.length + 1 + data.length) = BitVec.ofNat 8 n
  blocks : segment s.output 0 (20 * n) = blocks hmac key label data n
  rest : ∀ i, 20 * n ≤ i → s.output i = output i

/-- The input is put together. -/
theorem turned_start (label data : List (BitVec 8)) (input output : Mem) :
    Turned hmac key label data output 0
      ⟨store (store (store (store input 0 label) label.length [0]) (label.length + 1) data)
        (label.length + 1 + data.length) [0], output, 0⟩ := by
  have hlabel : segment (store input 0 label) 0 label.length = label :=
    segment_store_self input 0 label
  have hzero := segment_store_append (store input 0 label) label.length [0]
  have hdata := segment_store_append (store (store input 0 label) label.length [0])
    (label.length + 1) data
  rw [hlabel, List.length_singleton] at hzero
  rw [hzero] at hdata
  refine ⟨rfl, ?_, ?_, rfl, fun _ _ => rfl⟩
  · rw [← hdata]
    exact segment_store_of_le (by omega)
  · simp [store]

/-- A turn appends a digest and counts the last octet of the input up. -/
theorem Turned.turn {label data : List (BitVec 8)} {output : Mem} {n : Nat} {s : PrfState}
    (h : Turned hmac key label data output n s) :
    Turned hmac key label data output (n + 1)
      (prfTurn hmac key (label.length + 1 + data.length + 1) s) := by
  have hinput : segment s.input 0 (label.length + 1 + data.length + 1)
      = label ++ [0] ++ data ++ [BitVec.ofNat 8 n] := by
    rw [segment_add, h.input, Nat.zero_add]
    simp [Memory.segment, h.last]
  have hdigest : List.ofFn (hmac key (segment s.input 0 (label.length + 1 + data.length + 1)))
      = block hmac key label data n := by
    rw [hinput, block]
  have hlen : (block hmac key label data n).length = 20 := List.length_ofFn
  have houtput : (prfTurn hmac key (label.length + 1 + data.length + 1) s).output
      = store s.output (20 * n) (block hmac key label data n) := by
    rw [prfTurn, hdigest, h.index]
  constructor
  · show s.currentindex + 20 = _
    rw [h.index, Nat.mul_succ]
  · rw [← h.input]
    refine segment_store_of_le ?_
    rw [Nat.zero_add, Nat.add_sub_cancel]
  · show store s.input (label.length + 1 + data.length)
      [s.input (label.length + 1 + data.length) + 1] _ = _
    rw [h.last, BitVec.ofNat_add]
    simp [store]
  · have hnext := segment_store_append s.output (20 * n) (block hmac key label data n)
    rw [hlen] at hnext
    rw [houtput, Nat.mul_succ, hnext, h.blocks, blocks_succ]
  · intro i hi
    have hout : ¬ (20 * n ≤ i ∧ i < 20 * n + (block hmac key label data n).length) := by
      rw [hlen]
      omega
    rw [houtput, store, if_neg hout]
    exact h.rest i (by omega)

theorem Turned.iterate {label data : List (BitVec 8)} {output : Mem} {s : PrfState}
    (h : Turned hmac key label data output 0 s) (n : Nat) :
    Turned hmac key label data output n
      ((prfTurn hmac key (label.length + 1 + data.length + 1))^[n] s) := by
  induction n with
  | zero => exact h
  | succ n ih =>
      rw [Function.iterate_succ_apply']
      exact ih.turn

/-- **What `PRF` does with its output**: the first bytes are those of the standard, and nothing
is written behind the last digest. -/
theorem prf_output (label data : List (BitVec 8)) (input output : Mem) (len : Nat) :
    segment (prf hmac (some input) key label data output len) 0 len
        = prfOctets hmac key label data len
      ∧ ∀ i, 20 * ((len + 19) / 20) ≤ i →
          prf hmac (some input) key label data output len i = output i := by
  have h := (turned_start hmac key label data input output).iterate hmac key ((len + 19) / 20)
  refine ⟨?_, h.rest⟩
  obtain ⟨k, hk⟩ : ∃ k, 20 * ((len + 19) / 20) = len + k := ⟨_, (Nat.add_sub_of_le (by omega)).symm⟩
  have hall := h.blocks
  rw [hk, segment_add] at hall
  rw [prfOctets, ← hall, List.take_left' (length_segment ..)]
  rfl

end

/-! ## What is hashed -/

section

variable {a b : List (BitVec 8)}

theorem lesser_comm (hlen : a.length = b.length) : lesser a b = lesser b a := by
  rcases Nat.lt_trichotomy (beNat a) (beNat b) with hlt | heq | hgt
  · rw [lesser, lesser, if_pos hlt.le, if_neg (Nat.not_le.mpr hlt)]
  · rw [beNat_inj hlen heq]
  · rw [lesser, lesser, if_pos hgt.le, if_neg (Nat.not_le.mpr hgt)]

theorem greater_comm (hlen : a.length = b.length) : greater a b = greater b a := by
  rcases Nat.lt_trichotomy (beNat a) (beNat b) with hlt | heq | hgt
  · rw [greater, greater, if_pos hlt.le, if_neg (Nat.not_le.mpr hlt)]
  · rw [beNat_inj hlen heq]
  · rw [greater, greater, if_pos hgt.le, if_neg (Nat.not_le.mpr hgt)]

/-- The comparison of the source chooses the smaller. -/
theorem ite_compare_lesser (hlen : a.length = b.length) :
    (if rtmpCompareMemory a b = 1 then b else a) = lesser a b := by
  by_cases h : beNat a ≤ beNat b
  · rw [lesser, if_pos h, if_neg fun h1 => Nat.not_lt.mpr h ((rtmpCompareMemory_eq_one hlen).mp h1)]
  · rw [lesser, if_neg h, if_pos ((rtmpCompareMemory_eq_one hlen).mpr (Nat.not_le.mp h))]

theorem ite_compare_greater (hlen : a.length = b.length) :
    (if rtmpCompareMemory a b = 1 then a else b) = greater a b := by
  by_cases h : beNat a ≤ beNat b
  · rw [greater, if_pos h, if_neg fun h1 => Nat.not_lt.mpr h ((rtmpCompareMemory_eq_one hlen).mp h1)]
  · rw [greater, if_neg h, if_pos ((rtmpCompareMemory_eq_one hlen).mpr (Nat.not_le.mp h))]

/-- The parts of `concatenation` follow one another. -/
theorem segment_parts (m : Mem) {p q r s : List (BitVec 8)} (hp : p.length = 6)
    (hq : q.length = 6) (hr : r.length = 32) (hs : s.length = 32) :
    segment (store (store (store (store m 0 p) 6 q) 12 r) 44 s) 0 76 = p ++ q ++ r ++ s := by
  have h₀ : segment (store m 0 p) 0 p.length = p := segment_store_self m 0 p
  have h₁ := segment_store_append (store m 0 p) 6 q
  have h₂ := segment_store_append (store (store m 0 p) 6 q) 12 r
  have h₃ := segment_store_append (store (store (store m 0 p) 6 q) 12 r) 44 s
  rw [hp] at h₀
  rw [hq, h₀] at h₁
  rw [hr, h₁] at h₂
  rw [hs, h₂] at h₃
  exact h₃

end

section

variable {anonce snonce : Bytes 32} (aa sa : Bytes 6)

theorem concatenation_eq (hnonces : anonce ≠ snonce) :
    segment (concatenation anonce aa snonce sa) 0 76 = keyData anonce aa snonce sa := by
  have haddr : (List.ofFn sa).length = (List.ofFn aa).length := by simp
  have hnonce : (List.ofFn anonce).length = (List.ofFn snonce).length := by simp
  have hne : rtmpCompareMemory (List.ofFn anonce) (List.ofFn snonce) ≠ 0 := fun h =>
    hnonces (List.ofFn_injective ((rtmpCompareMemory_eq_zero hnonce).mp h))
  have hlengths (c : Prop) [Decidable c] {n : Nat} (x y : Bytes n) :
      (if c then List.ofFn x else List.ofFn y).length = n := by
    split <;> exact List.length_ofFn
  rw [concatenation, if_neg hne, if_neg hne]
  rw [segment_parts _ (hlengths ..) (hlengths ..) (hlengths ..) (hlengths ..),
    ite_compare_lesser haddr, ite_compare_greater haddr, ite_compare_lesser hnonce,
    ite_compare_greater hnonce, lesser_comm haddr, greater_comm haddr, keyData]

theorem keyData_comm (anonce snonce : Bytes 32) :
    keyData anonce aa snonce sa = keyData snonce sa anonce aa := by
  have haddr : (List.ofFn aa).length = (List.ofFn sa).length := by simp
  have hnonce : (List.ofFn anonce).length = (List.ofFn snonce).length := by simp
  rw [keyData, keyData, lesser_comm haddr, greater_comm haddr, lesser_comm hnonce,
    greater_comm hnonce]

end

/-- **The pairwise key**: where the nonces are not the same, it is that of the standard, either
side of the handshake comes to it, and nothing is written behind the next multiple of twenty.
Without memory for the input nothing is written at all. -/
theorem wpaDerivePTK_standard (rtHmacSha1 : HmacSha1) (pmk anonce snonce : Bytes 32)
    (aa sa : Bytes 6) (input output : Mem) (len : Nat) (hnonces : anonce ≠ snonce) :
    segment (wpaDerivePTK rtHmacSha1 (some input) pmk anonce aa snonce sa output len) 0 len
        = prfOctets rtHmacSha1 (List.ofFn pmk) Wpa.pairwiseKeyExpansion
            (keyData anonce aa snonce sa) len
      ∧ wpaDerivePTK rtHmacSha1 (some input) pmk anonce aa snonce sa output len
        = wpaDerivePTK rtHmacSha1 (some input) pmk snonce sa anonce aa output len
      ∧ (∀ i, 20 * ((len + 19) / 20) ≤ i →
          wpaDerivePTK rtHmacSha1 (some input) pmk anonce aa snonce sa output len i = output i)
      ∧ wpaDerivePTK rtHmacSha1 none pmk anonce aa snonce sa output len = output := by
  have hboth : wpaDerivePTK rtHmacSha1 (some input) pmk anonce aa snonce sa output len
      = wpaDerivePTK rtHmacSha1 (some input) pmk snonce sa anonce aa output len := by
    rw [wpaDerivePTK, wpaDerivePTK, concatenation_eq aa sa hnonces,
      concatenation_eq sa aa hnonces.symm, keyData_comm]
  refine ⟨?_, hboth, ?_, rfl⟩
  · rw [wpaDerivePTK, concatenation_eq aa sa hnonces]
    exact (prf_output ..).1
  · exact (prf_output ..).2

/-- The 64 bytes from nonces that differ in one bit, with a hash that repeats the last octet. -/
theorem wpaDerivePTK_standard_example :
    segment (wpaDerivePTK (fun _ text _ => text.getLastD 0) (some fun _ => 0) (.zero 32) (.zero 32)
        (.zero 6) (fun _ => 1) (fun _ => 2) (fun _ => 0) 64) 0 64
      = prfOctets (fun _ text _ => text.getLastD 0) (List.ofFn (Bytes.zero 32))
          Wpa.pairwiseKeyExpansion (keyData (.zero 32) (.zero 6) (fun _ => 1) (fun _ => 2)) 64 := by
  have hne : Bytes.zero 32 ≠ fun _ => 1 := fun h => absurd (congrFun h 0) (by decide)
  exact (wpaDerivePTK_standard (fun _ text _ => text.getLastD 0) (.zero 32) (.zero 32)
    (fun _ => 1) (.zero 6) (fun _ => 2) (fun _ => 0) (fun _ => 0) 64 hne).1

/-! ## The handlers' model -/

/-- `temp` holds the larger address, and zeros. -/
theorem segment_temp (m : Mem) {p q : List (BitVec 8)} (hq : q.length = 6) :
    segment (store (fun _ => 0) 0 (segment (store (store m 0 p) 6 q) 6 6)) 0 32
      = q ++ List.replicate 26 0 := by
  have haddr : segment (store (store m 0 p) 6 q) 6 6 = q := by
    have hself := segment_store_self (store m 0 p) 6 q
    rwa [hq] at hself
  have hfront := segment_store_front (fun _ => 0) 0 26 q
  rw [hq] at hfront
  rw [haddr, hfront]
  rfl

theorem ofFn_getD {n : Nat} {l : List (BitVec 8)} (h : n ≤ l.length) :
    (List.ofFn fun i : Fin n => l.getD i 0) = l.take n := by
  refine List.ext_getElem (by simp [h]) fun i h₁ h₂ => ?_
  have hi : i < l.length := by
    rw [List.length_ofFn] at h₁
    omega
  simp [List.getD_eq_getElem?_getD, List.getElem?_eq_getElem hi]

/-- The handlers take the key as one value: it is what stands in the output. -/
theorem segment_wpaDerivePTK (c : Wpa.Crypto) (pmk anonce snonce : Bytes 32) (aa sa : Bytes 6)
    (input output : Mem) :
    segment (wpaDerivePTK c.rtHmacSha1 (some input) pmk anonce aa snonce sa output 64) 0 64
      = List.ofFn (Wpa.wpaDerivePtk c pmk anonce aa snonce sa) := by
  have hblocks (data : List (BitVec 8)) :
      64 ≤ (Wpa.prf c (List.ofFn pmk) Wpa.pairwiseKeyExpansion data 4).length := by
    have hlen := length_blocks c.rtHmacSha1 (List.ofFn pmk) Wpa.pairwiseKeyExpansion data 4
    exact (by decide : 64 ≤ 20 * 4).trans hlen.ge
  have haa : (List.ofFn aa).length = 6 := List.length_ofFn
  have hsa : (List.ofFn sa).length = 6 := List.length_ofFn
  have hanonce : (List.ofFn anonce).length = 32 := List.length_ofFn
  have hsnonce : (List.ofFn snonce).length = 32 := List.length_ofFn
  have htemp (x : Bytes 6) : (List.ofFn x ++ List.replicate 26 0).length = 32 := by
    rw [List.length_append, List.length_ofFn, List.length_replicate]
  rw [wpaDerivePTK, (prf_output ..).1, Wpa.wpaDerivePtk, ofFn_getD (hblocks _)]
  -- the same is hashed, whichever of the two addresses and nonces is the larger
  suffices hdata : segment (concatenation anonce aa snonce sa) 0 76 = _ by
    rw [hdata]
    rfl
  unfold concatenation
  dsimp only
  split
  · rw [segment_temp _ hsa]
    split
    · rw [segment_parts _ haa hsa (htemp sa) (htemp sa)]
    · split
      · rw [segment_parts _ haa hsa hsnonce hanonce]
      · rw [segment_parts _ haa hsa hanonce hsnonce]
  · rw [segment_temp _ haa]
    split
    · rw [segment_parts _ hsa haa (htemp aa) (htemp aa)]
    · split
      · rw [segment_parts _ hsa haa hsnonce hanonce]
      · rw [segment_parts _ hsa haa hanonce hsnonce]

end ExtDrv.Rt3370.PtkDerivation
