import ExtDrv.Rt3370.RtAes

/-!
# The other block cipher

`next_key`, `byte_sub`, `shift_row`, `mix_column` and `aes128k128d` of
`common/cmm_aes.c`: a block cipher with keys of sixteen bytes that makes the key of
each round on its way and multiplies by shifting. It is `RT_AES_Encrypt` with such
keys, round for round.
-/

namespace ExtDrv.Rt3370.CmmAes

open Rijndael RtAes
open Ccm (Block xorBlock)

/-! ## Words -/

theorem byteIndex_lt (o i : Fin 4) : 4 * o.val + i.val < 16 := by omega

/-- Four bytes from `4 * o` on. -/
def wordOf (b : Block) (o : Fin 4) : Column := fun i => b ⟨4 * o.val + i.val, byteIndex_lt o i⟩

def setWord (b : Block) (o : Fin 4) (w : Column) : Block := fun i =>
  if i.val / 4 = o.val then w ⟨i.val % 4, rowIndex_lt i⟩ else b i

/-- `xor_32`. -/
def xor32 (a b : Column) : Column := fun i => a i ^^^ b i

/-- `xor_128`. -/
abbrev xor128 : Block → Block → Block := xorBlock

/-! ## The steps -/

/-- `SboxTable`: its entries are those of `aes_sbox_enc`. -/
def SboxTable : List Byte := aesSboxEnc

/-- `RTMPCkipSbox`. -/
def rtmpCkipSbox (a : Byte) : Byte := tableAt SboxTable a

/-- `rcon_table`. -/
def rconTable : List Byte :=
  [0x01, 0x02, 0x04, 0x08, 0x10, 0x20, 0x40, 0x80, 0x1b, 0x36, 0x36, 0x36]

/-- `next_key`. -/
def nextKey (key : Block) (round : Nat) : Block :=
  let sboxKey : Column := fun
    | 0 => rtmpCkipSbox (key 13)
    | 1 => rtmpCkipSbox (key 14)
    | 2 => rtmpCkipSbox (key 15)
    | 3 => rtmpCkipSbox (key 12)
  let rcon := rconTable.getD round 0
  let key := setWord key 0 (xor32 (wordOf key 0) sboxKey)
  let key := Function.update key 0 (key 0 ^^^ rcon)
  let key := setWord key 1 (xor32 (wordOf key 1) (wordOf key 0))
  let key := setWord key 2 (xor32 (wordOf key 2) (wordOf key 1))
  setWord key 3 (xor32 (wordOf key 3) (wordOf key 2))

/-- `byte_sub`. -/
def byteSub (inp : Block) : Block := fun i => rtmpCkipSbox (inp i)

/-- `shift_row`. -/
def shiftRow (inp : Block) : Block := fun i =>
  inp (([0, 5, 10, 15, 4, 9, 14, 3, 8, 13, 2, 7, 12, 1, 6, 11] : List (Fin 16)).getD i.val 0)

/-- A turn of the loop that shifts `andf7` to the left, with a carry from the byte below. -/
def shiftCarry (andf7 : Column) (i : Fin 4) : Column :=
  let andf7 := Function.update andf7 i (andf7 i <<< 1)
  if andf7 (i - 1) &&& 0x80#8 = 0x80#8 then Function.update andf7 i (andf7 i ||| 0x01#8) else andf7

/-- `andf7`, shifted left by one bit. -/
def logicalShift (andf7 : Column) : Column :=
  let andf7 := [3, 2, 1].foldl shiftCarry andf7
  let andf7 := Function.update andf7 0 (andf7 0 <<< 1)
  Function.update andf7 0 (andf7 0 &&& 0xfe#8)

/-- `mix_column`. -/
def mixColumn (inp : Column) : Column :=
  let add1b : Column := fun i => if inp i &&& 0x80#8 = 0x80#8 then 0x1b#8 else 0x00#8
  -- swap halfs, and rotate left 8 bits
  let swapHalfs : Column := fun i => inp (i + 2)
  let rotl : Column := fun i => inp (i + 3)
  let andf7 : Column := fun i => inp i &&& 0x7f#8
  let add1bf7 := xor32 add1b (logicalShift andf7)
  let rotr := xor32 inp add1bf7
  -- rotate right 8 bits
  let rotr : Column := fun i => rotr (i + 1)
  xor32 (xor32 add1bf7 rotr) (xor32 swapHalfs rotl)

/-- The four columns of `intermediateb`. -/
def mixWords (inp : Block) : Block := fun i =>
  mixColumn (wordOf inp ⟨i.val / 4, columnIndex_lt i⟩) ⟨i.val % 4, rowIndex_lt i⟩

/-- One turn of the loop of `aes128k128d`: `ciphertext` and `round_key`. -/
def aesTurn (data : Block) (s : Block × Block) (round : Nat) : Block × Block :=
  if round = 0 then (xor128 s.2 data, nextKey s.2 round)
  else if round = 10 then (xor128 (shiftRow (byteSub s.1)) s.2, s.2)
  else (xor128 (mixWords (shiftRow (byteSub s.1))) s.2, nextKey s.2 round)

/-- `aes128k128d`: the first turn writes the whole of `ciphertext`. -/
def aes128k128d (key data : Block) : Block :=
  ((List.range 11).foldl (aesTurn data) (fun _ => 0, key)).1

/-! ## The steps are those of the network -/

theorem stateOf_xor (a b : Block) :
    stateOf (xor128 a b) = network.add (stateOf b) (stateOf a) := rfl

theorem network_add_comm (k s : State) : network.add k s = network.add s k :=
  funext fun r => funext fun c => BitVec.xor_comm (s r c) (k r c)

theorem stateOf_byteSub (b : Block) : stateOf (byteSub b) = network.sub (stateOf b) := rfl

theorem stateOf_shiftRow (b : Block) : stateOf (shiftRow b) = network.shift (stateOf b) := by
  funext r c
  fin_cases r <;> fin_cases c <;> rfl

/-- A shift without the carries, which are never there, and the reduction. -/
theorem shift_reduce : ∀ a : Byte,
    (if a &&& 0x80#8 = 0x80#8 then 0x1b#8 else 0x00#8) ^^^ ((a &&& 0x7f#8) <<< 1) = xtime a := by
  decide +kernel

theorem no_carry (a : Byte) : ¬ ((a &&& 0x7f#8) &&& 0x80#8 = 0x80#8) := by
  rw [BitVec.and_assoc]
  simp

theorem shifted_even (a : Byte) : ((a &&& 0x7f#8) <<< 1) &&& 0xfe#8 = (a &&& 0x7f#8) <<< 1 := by
  revert a
  decide +kernel

theorem shiftCarry_eq {andf7 : Column} {i : Fin 4} (a : Byte)
    (h : andf7 (i - 1) = a &&& 0x7f#8) :
    shiftCarry andf7 i = Function.update andf7 i (andf7 i <<< 1) := by
  have hne : i - 1 ≠ i := sub_eq_self.not.mpr (by decide)
  rw [shiftCarry, Function.update_of_ne hne, h, if_neg (no_carry a)]

theorem logicalShift_eq (inp : Column) :
    logicalShift (fun i => inp i &&& 0x7f#8) = fun i => (inp i &&& 0x7f#8) <<< 1 := by
  have hloop : ([3, 2, 1].foldl shiftCarry fun i => inp i &&& 0x7f#8)
      = fun i => if i = 0 then inp 0 &&& 0x7f#8 else (inp i &&& 0x7f#8) <<< 1 := by
    rw [List.foldl_cons, shiftCarry_eq (inp 2) rfl, List.foldl_cons,
      shiftCarry_eq (inp 1) rfl, List.foldl_cons,
      shiftCarry_eq (inp 0) rfl, List.foldl_nil]
    funext i
    fin_cases i <;> rfl
  funext i
  rw [logicalShift, hloop]
  by_cases hi : i = 0
  · subst hi
    rw [Function.update_self, Function.update_self]
    exact shifted_even (inp 0)
  · rw [Function.update_of_ne hi, Function.update_of_ne hi, if_neg hi]

theorem mul_two (a : Byte) : mul 2#8 a = xtime a := by
  simp [mul_eq]

theorem mul_three (a : Byte) : mul 3#8 a = a ^^^ xtime a := by
  simp [mul_eq]

/-- The bit tricks multiply the column by the matrix. -/
theorem mixColumn_eq (inp : Column) : mixColumn inp = circulant mixRow inp := by
  have hadd1bf7 : xor32 (fun i => if inp i &&& 0x80#8 = 0x80#8 then 0x1b#8 else 0x00#8)
      (logicalShift fun i => inp i &&& 0x7f#8) = fun i => xtime (inp i) := by
    rw [logicalShift_eq]
    exact funext fun i => shift_reduce (inp i)
  funext r
  rw [mixColumn, hadd1bf7]
  simp only [xor32, circulant, mixRow, mul_two, mul_three, one_mul]
  ac_rfl

theorem stateOf_mixWords (b : Block) : stateOf (mixWords b) = network.mix (stateOf b) := by
  have hcol (c : Fin 4) : wordOf b c = fun i => stateOf b i c :=
    funext fun i => congrArg b (Fin.ext (Nat.add_comm _ _))
  funext r c
  have hc : (⟨(r.val + 4 * c.val) / 4, by omega⟩ : Fin 4) = c := by
    ext
    show (r.val + 4 * c.val) / 4 = c.val
    omega
  have hr : (⟨(r.val + 4 * c.val) % 4, by omega⟩ : Fin 4) = r := by
    ext
    show (r.val + 4 * c.val) % 4 = r.val
    omega
  rw [stateOf, mixWords, mixColumn_eq, hc, hr, hcol]
  rfl

/-! ## The keys -/

theorem rconTable_eq : ∀ round, round < 10 → ∀ r : Fin 4,
    rconByte (aesRcon.getD (round + 1) 0) r = if r = 0 then rconTable.getD round 0 else 0#8 := by
  decide

/-- The words of the next key, each made of the one before it. -/
theorem nextKey_words (key : Block) (round : Nat) (r : Fin 4) :
    wordOf (nextKey key round) 0 r = wordOf key 0 r ^^^ (rtmpCkipSbox (wordOf key 3 (r + 1))
        ^^^ if r = 0 then rconTable.getD round 0 else 0#8)
      ∧ wordOf (nextKey key round) 1 r = wordOf key 1 r ^^^ wordOf (nextKey key round) 0 r
      ∧ wordOf (nextKey key round) 2 r = wordOf key 2 r ^^^ wordOf (nextKey key round) 1 r
      ∧ wordOf (nextKey key round) 3 r = wordOf key 3 r ^^^ wordOf (nextKey key round) 2 r := by
  refine ⟨?_, ?_, ?_, ?_⟩
  · fin_cases r
    · exact BitVec.xor_assoc _ _ _
    · exact congrArg (key 1 ^^^ ·) (BitVec.xor_zero).symm
    · exact congrArg (key 2 ^^^ ·) (BitVec.xor_zero).symm
    · exact congrArg (key 3 ^^^ ·) (BitVec.xor_zero).symm
  · fin_cases r <;> rfl
  · fin_cases r <;> rfl
  · fin_cases r <;> rfl

/-- A key of sixteen bytes, as an array. -/
def keyArray (key : Block) : Nat → Byte := fun i => if h : i < 16 then key ⟨i, h⟩ else 0

/-- The expanded key holds it first. -/
theorem stateOf_key {key : Block} {kw : KeyWords}
    (h : Expanded (keyArray key) 4 44 kw) : stateOf key = roundKey kw 0 := by
  funext r c
  have hlt : 4 * c.val + r.val < 16 := by omega
  rw [roundKey, Nat.zero_mul, Nat.zero_add, h.load r c.val c.isLt, keyArray, dif_pos hlt]
  exact congrArg key (Fin.ext (Nat.add_comm _ _))

/-- **The next key** is the next group of words. -/
theorem stateOf_nextKey {key k : Block} {kw : KeyWords}
    (h : Expanded (keyArray key) 4 44 kw) {round : Nat} (hround : round < 10)
    (hk : stateOf k = roundKey kw round) :
    stateOf (nextKey k round) = roundKey kw (round + 1) := by
  have hword (c r : Fin 4) : wordOf k c r = kw r (round * 4 + c.val) :=
    (congrArg k (Fin.ext (Nat.add_comm _ _))).trans (congrFun (congrFun hk r) c)
  have hnext (c r : Fin 4) : wordOf (nextKey k round) c r = stateOf (nextKey k round) r c :=
    congrArg (nextKey k round) (Fin.ext (Nat.add_comm _ _))
  have hstep (r : Fin 4) (j : Nat) (hj : 0 < j) (hj4 : j < 4) :
      kw r ((round + 1) * 4 + j) = kw r (round * 4 + j) ^^^ kw r ((round + 1) * 4 + (j - 1)) := by
    have hmod : ((round + 1) * 4 + j) % 4 ≠ 0 := by omega
    rw [h.step r _ (by omega) (by omega), tempWord, if_neg hmod, if_neg (by omega)]
    congr 2 <;> omega
  have hfirst (r : Fin 4) : kw r ((round + 1) * 4) = kw r (round * 4)
      ^^^ (rtmpCkipSbox (kw (r + 1) (round * 4 + 3))
        ^^^ if r = 0 then rconTable.getD round 0 else 0#8) := by
    have hmod : (round + 1) * 4 % 4 = 0 := Nat.mul_mod_left _ _
    have hdiv : (round + 1) * 4 / 4 = round + 1 := Nat.mul_div_cancel _ (by decide)
    have hback : (round + 1) * 4 - 4 = round * 4 := by omega
    have hlast : (round + 1) * 4 - 1 = round * 4 + 3 := by omega
    rw [h.step r _ (by omega) (by omega), tempWord, if_pos hmod, hdiv, hback, hlast,
      rconTable_eq round hround r]
    rfl
  funext r c
  obtain ⟨h0, h1, h2, h3⟩ := nextKey_words k round r
  simp only [hword, hnext] at h0 h1 h2 h3
  have e0 := h0.trans (hfirst r).symm
  have e1 := h1.trans ((congrArg _ e0).trans (hstep r 1 (by decide) (by decide)).symm)
  have e2 := h2.trans ((congrArg _ e1).trans (hstep r 2 (by decide) (by decide)).symm)
  have e3 := h3.trans ((congrArg _ e2).trans (hstep r 3 (by decide) (by decide)).symm)
  fin_cases c
  · exact e0
  · exact e1
  · exact e2
  · exact e3

/-! ## The rounds -/

/-- After the first turn and `n` more, before the last one. -/
theorem foldl_aesTurn {key : Block} {kw : KeyWords} (h : Expanded (keyArray key) 4 44 kw)
    (data : Block) {n : Nat} (hn : n < 10) :
    stateOf ((List.range (n + 1)).foldl (aesTurn data) (fun _ => 0, key)).1
        = network.rounds (roundKey kw) (network.add (roundKey kw 0) (stateOf data)) n
      ∧ stateOf ((List.range (n + 1)).foldl (aesTurn data) (fun _ => 0, key)).2
        = roundKey kw (n + 1) := by
  induction n with
  | zero =>
    have hturn : (List.range (0 + 1)).foldl (aesTurn data) (fun _ => 0, key)
        = (xor128 key data, nextKey key 0) := rfl
    rw [hturn, stateOf_xor, stateOf_key h]
    exact ⟨network_add_comm _ _, stateOf_nextKey h hn (stateOf_key h)⟩
  | succ n ih =>
    obtain ⟨hct, hrk⟩ := ih (by omega)
    rw [List.range_succ, List.foldl_append, List.foldl_cons, List.foldl_nil, aesTurn,
      if_neg (by omega), if_neg (by omega)]
    refine ⟨?_, stateOf_nextKey h hn hrk⟩
    rw [stateOf_xor, stateOf_mixWords, stateOf_shiftRow, stateOf_byteSub, hct, hrk]
    rfl

/-- **The two are one**: `aes128k128d` is the block of `RT_AES_Encrypt`. -/
theorem aes128k128d_eq (key data : Block) :
    aes128k128d key data = aesBlock (keyArray key) 16 data := by
  have h : Expanded (keyArray key) 4 44 (rtAesKeyExpansion (keyArray key) 16 fun _ _ => 0) :=
    @rtAesKeyExpansion_expanded (keyArray key) 16 (fun _ _ => 0) (by decide)
  obtain ⟨hct, hrk⟩ := foldl_aesTurn h data (n := 9) (by decide)
  have hstate : stateOf (aes128k128d key data) = stateOf (aesBlock (keyArray key) 16 data) := by
    rw [aes128k128d, List.range_succ, List.foldl_append, List.foldl_cons, List.foldl_nil, aesTurn,
      if_neg (by decide), if_pos rfl, aesBlock, encryptRounds_eq _ 9, stateOf_blockOf, stateOf_xor,
      stateOf_shiftRow, stateOf_byteSub, hct, hrk]
    rfl
  rw [← blockOf_stateOf (aes128k128d key data), hstate, blockOf_stateOf]

/-- **The encryptors agree, and decryption undoes them**: where the contexts are allocated,
`RT_AES_Encrypt` with a key of sixteen bytes returns the block of `aes128k128d`, and with a key
of any length `RT_AES_Decrypt` returns the block that was enciphered. -/
theorem rtAes_agrees {size size' : Nat} (hsize : 16 ≤ size) (hsize' : 16 ≤ size')
    (mem mem' : Option KeyWords) (block : Block) :
    (∀ key : Block, rtAesEncrypt block 16 (keyArray key) 16 size mem
        = mem.map fun _ => (aes128k128d key block, 16))
      ∧ ∀ (key : Nat → Byte) (keyLength : Nat), ValidKeyLength keyLength →
        ((rtAesEncrypt block 16 key keyLength size mem).bind fun c =>
            rtAesDecrypt c.1 c.2 key keyLength size' mem')
          = mem.bind fun _ => mem'.map fun _ => (block, 16) := by
  constructor
  · intro key
    rw [rtAesEncrypt_eq _ (by decide) hsize, aes128k128d_eq]
  · intro key keyLength hlength
    rw [rtAesEncrypt_eq key hlength hsize]
    cases mem with
    | none => rw [Option.map_none, Option.bind_none, Option.bind_none]
    | some ctx =>
      rw [Option.map_some, Option.bind_some, Option.bind_some,
        rtAesDecrypt_eq key hlength hsize' mem' block]

theorem rtAes_agrees_zeroKey : (16 ≤ 16 ∧ ValidKeyLength 24)
    ∧ rtAesEncrypt (fun _ => 0) 16 (keyArray fun _ => 0) 16 16 (some fun _ _ => 0)
      = some (aes128k128d (fun _ => 0) (fun _ => 0), 16)
    ∧ ((rtAesEncrypt (fun _ => 0) 16 (fun _ => 0) 24 16 (some fun _ _ => 0)).bind fun c =>
        rtAesDecrypt c.1 c.2 (fun _ => 0) 24 16 (some fun _ _ => 0)) = some (fun _ => 0, 16) := by
  have h := rtAes_agrees (le_refl 16) (le_refl 16) (some fun _ _ => 0) (some fun _ _ => 0)
    fun _ => 0
  exact ⟨⟨le_refl 16, by decide⟩, h.1 fun _ => 0, h.2 (fun _ => 0) 24 (by decide)⟩

end ExtDrv.Rt3370.CmmAes
