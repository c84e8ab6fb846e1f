import ExtDrv.Lib.Ccm

/-!
# Cipher block chaining

Chaining over any block function with an inverse, and byte strings as whole blocks and a
rest. A text is padded with one to sixteen bytes that all say how many they are.
-/

namespace ExtDrv.Cbc

open Ccm

/-! ## Chaining -/

section Chaining

variable {β : Type*}

/-- A block function with its inverse, and a way to lay a block over another and to take it
off again. -/
structure Scheme (β : Type*) where
  enc : β → β
  dec : β → β
  mix : β → β → β
  dec_enc : ∀ b, dec (enc b) = b
  mix_mix : ∀ a b, mix (mix a b) b = a

def Scheme.encrypt (S : Scheme β) (iv : β) : List β → List β
  | [] => []
  | p :: ps => S.enc (S.mix p iv) :: S.encrypt (S.enc (S.mix p iv)) ps

def Scheme.decrypt (S : Scheme β) (iv : β) : List β → List β
  | [] => []
  | c :: cs => S.mix (S.dec c) iv :: S.decrypt c cs

/-- The chaining value behind some blocks of cipher text. -/
def chained (iv : β) (cs : List β) : β := cs.getLastD iv

variable {S : Scheme β}

@[simp] theorem Scheme.encrypt_nil (iv : β) : S.encrypt iv [] = [] := rfl

@[simp] theorem Scheme.decrypt_nil (iv : β) : S.decrypt iv [] = [] := rfl

@[simp] theorem chained_nil (iv : β) : chained iv [] = iv := rfl

@[simp] theorem chained_cons (iv c : β) (cs : List β) : chained iv (c :: cs) = chained c cs :=
  List.getLastD_cons ..

@[simp] theorem Scheme.length_encrypt (iv : β) (ps : List β) :
    (S.encrypt iv ps).length = ps.length := by
  induction ps generalizing iv with
  | nil => rfl
  | cons p ps ih => simp [Scheme.encrypt, ih]

@[simp] theorem Scheme.length_decrypt (iv : β) (cs : List β) :
    (S.decrypt iv cs).length = cs.length := by
  induction cs generalizing iv with
  | nil => rfl
  | cons c cs ih => simp [Scheme.decrypt, ih]

/-- A text in two parts: the second one goes on from the chaining value of the first. -/
theorem Scheme.encrypt_append (iv : β) (ps qs : List β) :
    S.encrypt iv (ps ++ qs) = S.encrypt iv ps ++ S.encrypt (chained iv (S.encrypt iv ps)) qs := by
  induction ps generalizing iv with
  | nil => rfl
  | cons p ps ih =>
    rw [List.cons_append, Scheme.encrypt, ih, Scheme.encrypt, chained_cons, List.cons_append]

theorem Scheme.decrypt_append (iv : β) (cs ds : List β) :
    S.decrypt iv (cs ++ ds) = S.decrypt iv cs ++ S.decrypt (chained iv cs) ds := by
  induction cs generalizing iv with
  | nil => rfl
  | cons c cs ih =>
    rw [List.cons_append, Scheme.decrypt, ih, Scheme.decrypt, chained_cons, List.cons_append]

theorem chained_append (iv : β) (cs ds : List β) :
    chained iv (cs ++ ds) = chained (chained iv cs) ds := by
  induction cs generalizing iv with
  | nil => rfl
  | cons c cs ih => rw [List.cons_append, chained_cons, ih, chained_cons]

/-- **Round trip** of the chained blocks. -/
theorem Scheme.decrypt_encrypt (iv : β) (ps : List β) : S.decrypt iv (S.encrypt iv ps) = ps := by
  induction ps generalizing iv with
  | nil => rfl
  | cons p ps ih => rw [Scheme.encrypt, Scheme.decrypt, S.dec_enc, S.mix_mix, ih]

end Chaining

/-! ## Bytes and blocks -/

theorem xorBlock_xorBlock (a b : Block) : xorBlock (xorBlock a b) b = a := by
  funext i
  simp only [xorBlock, BitVec.xor_assoc, BitVec.xor_self, BitVec.xor_zero]

/-- The bytes of some blocks. -/
def bytes (bs : List Block) : List Byte := bs.flatMap fun b => List.ofFn b

@[simp] theorem bytes_nil : bytes [] = [] := rfl

@[simp] theorem bytes_cons (b : Block) (bs : List Block) :
    bytes (b :: bs) = List.ofFn b ++ bytes bs := rfl

@[simp] theorem bytes_append (bs cs : List Block) : bytes (bs ++ cs) = bytes bs ++ bytes cs :=
  List.flatMap_append

@[simp] theorem length_bytes (bs : List Block) : (bytes bs).length = 16 * bs.length := by
  induction bs with
  | nil => rfl
  | cons b bs ih =>
    rw [bytes_cons, List.length_append, ih, List.length_ofFn, List.length_cons]
    omega

theorem pad_ofFn_append (b : Block) (bs : List Byte) : pad (List.ofFn b ++ bs) = b := by
  funext i
  have hi : i.val < (List.ofFn b).length := by
    rw [List.length_ofFn]
    exact i.isLt
  rw [pad, List.getD_eq_getElem?_getD, List.getElem?_append_left hi, List.getElem?_eq_getElem hi,
    List.getElem_ofFn]
  rfl

theorem ofFn_pad {bs : List Byte} (h : bs.length = 16) : List.ofFn (pad bs) = bs := by
  refine List.ext_getElem (by rw [List.length_ofFn, h]) fun i hi hi' => ?_
  rw [List.getElem_ofFn, pad, List.getD_eq_getElem?_getD, List.getElem?_eq_getElem hi']
  rfl

theorem drop_ofFn_append (b : Block) (bs : List Byte) : (List.ofFn b ++ bs).drop 16 = bs :=
  List.drop_left' List.length_ofFn

theorem take_bytes (bs : List Block) (n : Nat) : (bytes bs).take (16 * n) = bytes (bs.take n) := by
  induction bs generalizing n with
  | nil => simp
  | cons b bs ih =>
    cases n with
    | zero => rfl
    | succ n =>
      rw [bytes_cons, List.take_succ_cons, bytes_cons, ← ih, List.take_append, List.length_ofFn,
        List.take_of_length_le (by rw [List.length_ofFn]; omega), Nat.mul_succ,
        Nat.add_sub_cancel]

theorem drop_bytes (bs : List Block) (n : Nat) : (bytes bs).drop (16 * n) = bytes (bs.drop n) := by
  induction bs generalizing n with
  | nil => simp
  | cons b bs ih =>
    cases n with
    | zero => rfl
    | succ n =>
      rw [bytes_cons, List.drop_succ_cons, ← ih, List.drop_append, List.length_ofFn,
        List.drop_eq_nil_of_le (by rw [List.length_ofFn]; omega), Nat.mul_succ,
        Nat.add_sub_cancel, List.nil_append]

/-- **Every byte string** is some whole blocks and a rest. -/
theorem exists_blocks (bs : List Byte) :
    ∃ (ps : List Block) (rest : List Byte), bs = bytes ps ++ rest ∧ rest.length < 16 := by
  induction hn : bs.length using Nat.strongRecOn generalizing bs with
  | _ n ih =>
  by_cases hlt : n < 16
  · exact ⟨[], bs, rfl, by omega⟩
  · obtain ⟨ps, rest, hbs, hrest⟩ :=
      ih (n - 16) (by omega) (bs.drop 16) (by rw [List.length_drop, hn])
    refine ⟨pad (bs.take 16) :: ps, rest, ?_, hrest⟩
    rw [bytes_cons, ofFn_pad (by rw [List.length_take]; omega), List.append_assoc, ← hbs,
      List.take_append_drop]

/-! ## Padding -/

/-- A rest that is filled up to a block: what is added says how much that is. -/
def fill (rest : List Byte) : Block := fun i =>
  if i < rest.length then rest.getD i 0 else BitVec.ofNat 8 (16 - rest.length)

theorem take_fill {rest : List Byte} (h : rest.length ≤ 16) :
    (List.ofFn (fill rest)).take rest.length = rest := by
  have hlen : ((List.ofFn (fill rest)).take rest.length).length = rest.length := by
    rw [List.length_take, List.length_ofFn, Nat.min_eq_left h]
  refine List.ext_getElem hlen fun i hi hi' => ?_
  rw [List.getElem_take, List.getElem_ofFn, fill, if_pos hi', List.getD_eq_getElem?_getD,
    List.getElem?_eq_getElem hi']
  rfl

/-- The last byte of a filled block. -/
theorem fill_last {rest : List Byte} (h : rest.length < 16) :
    fill rest 15 = BitVec.ofNat 8 (16 - rest.length) := by
  rw [fill, if_neg]
  simp only [show (15 : Fin 16).val = 15 from rfl]
  omega

end ExtDrv.Cbc
