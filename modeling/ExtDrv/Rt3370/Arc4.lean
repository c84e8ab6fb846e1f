import Mathlib.Data.BitVec
import Mathlib.Logic.Function.Basic

/-!
# ARC4

The stream cipher of `crypt_arc4.c`, and the protection of key data by it. The key stream does not
depend on the text, so that the cipher undoes itself.
-/

namespace ExtDrv.Rt3370.Arc4

abbrev Byte := BitVec 8

/-- `ARC4_CTX_STRUC`. -/
structure Arc4Ctx where
  BlockIndex1 : Byte
  BlockIndex2 : Byte
  KeyBlock : Byte → Byte

/-- One turn of the key schedule, with `SWAPIndex`. -/
def scheduleTurn (key : List Byte) (s : Byte × (Byte → Byte)) (blockIndex : Nat) :
    Byte × (Byte → Byte) :=
  let temp := s.2 (BitVec.ofNat 8 blockIndex)
  let swapIndex := s.1 + temp + key.getD (blockIndex % key.length) 0
  (swapIndex, Function.update (Function.update s.2 (BitVec.ofNat 8 blockIndex) (s.2 swapIndex))
    swapIndex temp)

/-- `ARC4_INIT`. -/
def arc4Init (key : List Byte) : Arc4Ctx :=
  ⟨0, 0, ((List.range 256).foldl (scheduleTurn key) (0, id)).2⟩

/-- The turn that the two loops share, and `TempValue`. -/
def Arc4Ctx.turn (ctx : Arc4Ctx) : Arc4Ctx × Byte :=
  let i := ctx.BlockIndex1 + 1
  let temp := ctx.KeyBlock i
  let j := ctx.BlockIndex2 + temp
  (⟨i, j, Function.update (Function.update ctx.KeyBlock i (ctx.KeyBlock j)) j temp⟩, temp)

/-- `ARC4_Discard_KeyLength`. -/
def arc4DiscardKeyLength (ctx : Arc4Ctx) (length : Nat) : Arc4Ctx :=
  (List.range length).foldl (fun ctx _ => ctx.turn.1) ctx

/-- `ARC4_Compute`: the output. -/
def arc4Compute (ctx : Arc4Ctx) : List Byte → List Byte
  | [] => []
  | b :: bs =>
    let t := ctx.turn
    (b ^^^ t.1.KeyBlock (t.2 + t.1.KeyBlock t.1.BlockIndex1)) :: arc4Compute t.1 bs

/-- `TKIP_GTK_KEY_WRAP`, and `TKIP_GTK_KEY_UNWRAP` as well; `ekey` is the IV with the key. -/
def tkipGtkKeyWrap (ekey text : List Byte) : List Byte :=
  arc4Compute (arc4DiscardKeyLength (arc4Init ekey) 256) text

theorem length_arc4Compute (ctx : Arc4Ctx) (bs : List Byte) :
    (arc4Compute ctx bs).length = bs.length := by
  induction bs generalizing ctx with
  | nil => rfl
  | cons b bs ih => exact congrArg (· + 1) (ih ctx.turn.1)

theorem arc4Compute_arc4Compute (ctx : Arc4Ctx) (bs : List Byte) :
    arc4Compute ctx (arc4Compute ctx bs) = bs := by
  induction bs generalizing ctx with
  | nil => rfl
  | cons b bs ih =>
    rw [arc4Compute, arc4Compute, ih, BitVec.xor_assoc, BitVec.xor_self, BitVec.xor_zero]

/-- **An involution**, for every key. -/
theorem tkipGtkKeyWrap_tkipGtkKeyWrap (ekey text : List Byte) :
    tkipGtkKeyWrap ekey (tkipGtkKeyWrap ekey text) = text :=
  arc4Compute_arc4Compute _ _

theorem length_tkipGtkKeyWrap (ekey text : List Byte) :
    (tkipGtkKeyWrap ekey text).length = text.length :=
  length_arc4Compute _ _

end ExtDrv.Rt3370.Arc4
