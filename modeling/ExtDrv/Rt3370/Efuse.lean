import ExtDrv.Rt3370.Sizes
import Mathlib.Data.List.Basic
import Mathlib.Data.List.Range
import Mathlib.Tactic.Common

/-!
# The eFuse

768 bytes that are programmed bit by bit from 0 to 1. Blocks 0 to 44, of 16 bytes each, hold
data; the bytes from 0x2d0 on say for each of them which logical block it holds, with two
parity bits. A logical block that no entry names reads as 0xffff.

`eFuseWriteRegisters` writes a 16-bit word to a logical address. Where the word cannot be
programmed over the old one, it moves the block to a free one and spoils the old entry.
-/

namespace ExtDrv.Rt3370.Efuse

abbrev Half := BitVec 16

/-- The fuses, by words of two bytes. -/
abbrev Otp := Nat → Half

/-- `pChipCap->EFUSE_USAGE_MAP_START`. -/
def usageMapStart : Nat := 0x2d0

/-- `pChipCap->EFUSE_USAGE_MAP_END`. -/
def usageMapEnd : Nat := 0x2fc

/-! ## The registers -/

/-- The block that `EFSROM_AIN` names: `Offset & 0xfff0` in a field of ten bits. -/
def ain (offset : Nat) : Nat := offset / 16 % 64

/-- The register `EFUSE_DATA3 - 4 * k` after a read of a block. -/
def dataReg (s : Otp) (blk k : Nat) : BitVec 32 := s (8 * blk + 2 * k + 1) ++ s (8 * blk + 2 * k)

/-- The two bytes that a register holds for an address. -/
def pick (data : BitVec 32) (offset : Nat) : Half := (data >>> (8 * (offset % 4))).setWidth 16

def eFusePhysicalReadRegisters (s : Otp) (offset : Nat) : Half :=
  pick (dataReg s (ain offset) (offset % 16 / 4)) offset

/-- The half of a register that goes to a word of the fuses. -/
def halfOf (d : BitVec 32) (i : Nat) : Half := (d >>> (16 * i)).setWidth 16

/-- The write procedure (mode 3): the set bits of the four registers are programmed. -/
def program (s : Otp) (blk : Nat) (reg : Nat → BitVec 32) : Otp := fun w =>
  if w / 8 = blk then s w ||| halfOf (reg (w % 8 / 2)) (w % 2) else s w

/-- The block is read into the registers, two bytes are replaced and all of it is programmed. -/
def eFusePhysicalWriteRegisters (s : Otp) (offset : Nat) (data : Half) : Otp :=
  let buffer := dataReg s (ain offset)
  let k := offset % 16 / 4
  let d := buffer k
  let d :=
    if offset % 4 ≠ 0 then (d &&& 0xffff#32) ||| (data.setWidth 32 <<< 16)
    else (d &&& 0xffff0000#32) ||| data.setWidth 32
  program s (ain offset) (Function.update buffer k d)

/-! ## The mapping table -/

/-- The entry of a physical block. -/
def mapByte (s : Otp) (blk : Nat) : BitVec 8 :=
  let w := s ((usageMapStart + blk) / 2)
  if (usageMapStart + blk) % 2 ≠ 0 then (w >>> 8).setWidth 8 else w.setWidth 8

/-- The block number in bits 0 to 5, and the parity bits 6 and 7. -/
def mapEntry (offset : Nat) : Half :=
  let t := BitVec.ofNat 16 (offset / 16)
  let t := t ||| (((~~~((t &&& 1#16) ^^^ ((t >>> 1) &&& 1#16) ^^^ ((t >>> 2) &&& 1#16) ^^^
    ((t >>> 3) &&& 1#16))) <<< 6) &&& 0x40#16)
  t ||| (((~~~(((t >>> 2) &&& 1#16) ^^^ ((t >>> 3) &&& 1#16) ^^^ ((t >>> 4) &&& 1#16) ^^^
    ((t >>> 5) &&& 1#16))) <<< 7) &&& 0x80#16)

/-- The entry that names a logical block, with its parity right. -/
def entryOf (lblk : Nat) : BitVec 8 := (mapEntry (16 * lblk)).setWidth 8

/-- A physical block holds a logical one. -/
def Maps (s : Otp) (lblk blk : Nat) : Prop := blk < 45 ∧ mapByte s blk = entryOf lblk

instance (s : Otp) (lblk blk : Nat) : Decidable (Maps s lblk blk) :=
  inferInstanceAs (Decidable (_ ∧ _))

/-- What the chip answers in `EFSROM_AOUT` to a read in the logical view: a block that holds
the logical one, or 0x3f. Which one it is where several do is not said. -/
structure Chip where
  aout : Otp → Nat → Nat
  maps : ∀ s lblk blk, Maps s lblk blk → Maps s lblk (aout s lblk)
  none : ∀ s lblk, (∀ blk, ¬ Maps s lblk blk) → aout s lblk = 0x3f

/-- `EFSROM_AOUT` and the word at a logical address. -/
def eFuseReadRegisters (chip : Chip) (s : Otp) (offset : Nat) : Nat × Half :=
  let aout := chip.aout s (ain offset)
  if aout = 0x3f then (aout, 0xffff)
  else (aout, pick (dataReg s aout (offset % 16 / 4)) offset)

/-- `eFuseRead`: a word for every two bytes. -/
def eFuseRead (chip : Chip) (s : Otp) (offset length : Nat) : List Half :=
  (List.range ((length + 1) / 2)).map fun i => (eFuseReadRegisters chip s (offset + 2 * i)).2

/-! ## Writing a word -/

def startBlock : Nat := if usageMapEnd % 2 ≠ 0 then usageMapEnd - 1 else usageMapEnd

def endBlock : Nat := if usageMapStart % 2 ≠ 0 then usageMapStart - 1 else usageMapStart

/-- The loop from `StartBlock` down to `EndBlock`, two entries at a turn: the first entry
that is zero. `n` turns are left. -/
def findFree (s : Otp) : (n : Nat) → Option Nat
  | 0 => none
  | n + 1 =>
    let i := endBlock + 2 * n
    let logicalAddress := eFusePhysicalReadRegisters s i
    if (logicalAddress >>> 8) &&& 0xff#16 = 0 ∧ i ≠ usageMapEnd then some (i - usageMapStart + 1)
    else if logicalAddress &&& 0xff#16 = 0 ∧ i ≠ usageMapStart - 1 then some (i - usageMapStart)
    else findFree s n

def freeBlock (s : Otp) : Option Nat := findFree s ((startBlock - endBlock) / 2 + 1)

/-- The words of a block, from its physical address on. -/
def readBlock (s : Otp) (blkNum : Nat) : Nat → Half := fun i =>
  eFusePhysicalReadRegisters s (blkNum * 16 + 2 * i)

/-- Step 3: the word at its place, or all of the block in the second attempt. -/
def writeData (bWriteSuccess : Bool) (s : Otp) (blkNum offset : Nat) (buffer : Nat → Half)
    (data : Half) : Otp :=
  if bWriteSuccess then eFusePhysicalWriteRegisters s (blkNum * 16 + offset % 16) data
  else (List.range 8).foldl
    (fun s i => eFusePhysicalWriteRegisters s (blkNum * 16 + 2 * i) (buffer i)) s

/-- Step 4: the entry in the mapping table, which is written with its neighbour. -/
def writeEntry (s : Otp) (blkNum offset : Nat) : Otp :=
  let addr := usageMapStart + blkNum
  if addr % 2 ≠ 0 then eFusePhysicalWriteRegisters s (addr - 1) (mapEntry offset <<< 8)
  else eFusePhysicalWriteRegisters s addr (mapEntry offset)

/-- Step 5. -/
def compare (s : Otp) (blkNum : Nat) (buffer : Nat → Half) : Bool :=
  (List.range 8).all fun i => buffer i == readBlock s blkNum i

/-- The word with the first bit set, of `n` from `i` on, that is not. -/
def setFirstZero (w : Half) : (n i : Nat) → Half
  | 0, _ => w
  | n + 1, i => if (w >>> i) &&& 1#16 = 0 then w ||| (1#16 <<< i) else setFirstZero w n (i + 1)

/-- Step 6: a bit of the entry is set that was not, in bits 8 to 14 of the word for the entry
in its high byte and in bits 0 to 7 for the one in its low byte. -/
def invalidate (s : Otp) (blkNum : Nat) : Otp :=
  let addr := usageMapStart + blkNum
  if addr % 2 ≠ 0 then
    let w := eFusePhysicalReadRegisters s (addr - 1)
    eFusePhysicalWriteRegisters s (addr - 1) (setFirstZero w 7 8)
  else
    let w := eFusePhysicalReadRegisters s addr
    eFusePhysicalWriteRegisters s addr (setFirstZero w 8 0)

/-- Where a turn of the loop leads. -/
inductive Turn where
  | done
  | retry (blkNum : Nat)
  | full

/-- One turn of the loop: steps 3 to 6. -/
def turn (bWriteSuccess : Bool) (s : Otp) (blkNum offset : Nat) (buffer : Nat → Half)
    (data : Half) : Otp × Turn :=
  let s := writeEntry (writeData bWriteSuccess s blkNum offset buffer data) blkNum offset
  if compare s blkNum buffer then (s, .done)
  else match freeBlock s with
    | none => (s, .full)
    | some blk => (invalidate s blkNum, .retry blk)

/-- The two turns at most, from a block on. -/
def writeBlock (s : Otp) (blkNum offset : Nat) (data : Half) : Bool × Otp :=
  let buffer := Function.update (readBlock s blkNum) (offset / 2 % 8) data
  match turn true s blkNum offset buffer data with
  | (s, .done) => (true, s)
  | (s, .full) => (false, s)
  | (s, .retry blk) =>
    match turn false s blk offset buffer data with
    | (s, .full) => (false, s)
    | (s, _) => (true, s)

def eFuseWriteRegisters (chip : Chip) (s : Otp) (offset : Nat) (data : Half) : Bool × Otp :=
  let aout := (eFuseReadRegisters chip s (offset - offset % 2)).1
  if aout = 0x3f then
    match freeBlock s with
    | none => (false, s)
    | some blk => writeBlock s blk offset data
  else writeBlock s aout offset data

/-! ## Writing some bytes -/

/-- The words that go to the eFuse one after the other, whatever each one returns. -/
def writeWords (chip : Chip) (s : Otp) (offset : Nat) (pValueX : Nat → Half) (n : Nat) : Otp :=
  (List.range n).foldl
    (fun s i => (eFuseWriteRegisters chip s ((offset + 2 * i) % 2 ^ 16) (pValueX i)).2) s

/-- `eFuseWrite`. The allocated buffer of two words is none if the allocation fails; the
words from the third on are what stands behind it. -/
def eFuseWrite (chip : Chip) (oddWriteByteBuf : Option (Nat → Half)) (s : Otp) (offset : Nat)
    (pData : Nat → Half) (length : Nat) : Bool × Otp :=
  match oddWriteByteBuf with
  | none => (false, s)
  | some buf =>
    if offset % 2 ≠ 0 then
      let length := (length + 2) % 2 ^ 16
      let offset := offset - 1
      let w0 := (eFuseReadRegisters chip s offset).2
      let w1 := (eFuseReadRegisters chip s (offset + 2)).2
      let w0 := (w0 &&& 0x00ff#16) ||| ((pData 0 &&& 0xff#16) <<< 8)
      let w1 := (w1 &&& 0xff00#16) ||| ((pData 0 &&& 0xff00#16) >>> 8)
      let buf := Function.update (Function.update buf 0 w0) 1 w1
      (true, writeWords chip s offset buf ((length + 1) / 2))
    else (true, writeWords chip s offset pData ((length + 1) / 2))

end ExtDrv.Rt3370.Efuse
