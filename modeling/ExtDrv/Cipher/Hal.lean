import Mathlib.Logic.Function.Basic
import ExtDrv.Lib.RegField

/-!
# The cipher engine's register layer (`hal_cipher.c`)

The registers of the eight hardware channels and the `HAL_Cipher_*`
accessors over them. The buffer count registers are write-to-adjust: the
engine adds the written number to `IBUF_CNT` and `OBUF_CNT` and subtracts
it from `IEMPTY_CNT` and `OFULL_CNT` (the `+1`, `-` and `+` remarks at the
driver's calls).
-/

namespace ExtDrv.Cipher

open RegField

abbrev HiU32 := BitVec 32
abbrev HiS32 := Int

def hiSuccess : HiS32 := 0
def hiFailure : HiS32 := -1
/-- `(HI_S32)(0x804D0002)`. -/
def hiErrCipherInvalidHandle : HiS32 := 0x804D0002 - 0x100000000
/-- `(HI_S32)(0x804D0004)`. -/
def hiErrCipherInvalidPara : HiS32 := 0x804D0004 - 0x100000000
/-- `(HI_S32)(0x804D0006)`. -/
def hiErrCipherFailedGethandle : HiS32 := 0x804D0006 - 0x100000000

/-- `CI_CHAN_NUM`, which is also `CIPHER_SOFT_CHAN_NUM`. -/
abbrev ciChanNum : Nat := 8
/-- `CI_MAX_LIST_NUM`: the nodes of a channel's ring. -/
abbrev ciMaxListNum : Nat := 128

-- the numerals of the two index types
scoped instance neZeroChanNum : NeZero ciChanNum := ⟨by decide⟩
scoped instance neZeroMaxListNum : NeZero ciMaxListNum := ⟨by decide⟩

/-- A hardware or soft channel number below `CI_CHAN_NUM`. -/
abbrev Chn := Fin ciChanNum

/-- `CI_PKGx1_CHAN`, the single-packet channel. -/
def ciPkgx1Chan : Chn := 0

/-- `CI_PKGxN_CHAN_MIN` to `CI_PKGxN_CHAN_MAX`, the multi-packet channels. -/
def multiPkgChns : List Chn := [1, 2, 3, 4, 5, 6, 7]

/-- `HI_UNF_CIPHER_CTRL_S`. The four enumerations and the `HI_BOOL` are kept as
the words the user passes; only their low bits reach the control register. -/
structure HiUnfCipherCtrl where
  u32Key : Vector HiU32 8
  u32IV : Vector HiU32 4
  bKeyByCA : HiU32
  enAlg : HiU32
  enBitWidth : HiU32
  enWorkMode : HiU32
  enKeyLen : HiU32
  deriving DecidableEq

/-- `HI_UNF_CIPHER_INFO_S`. -/
structure HiUnfCipherInfo where
  u32src : HiU32
  u32dest : HiU32
  u32length : HiU32
  bDecrypt : Bool
  u32DataPkg : Vector HiU32 4
  deriving DecidableEq

/-- The registers of one channel. `srcLstRaddr` is the ring index the
engine reads next (`SRC_LST_RADDR`). -/
structure ChanRegs where
  ibufNum : Nat
  ibufCnt : Nat
  iemptyCnt : Nat
  obufNum : Nat
  obufCnt : Nat
  ofullCnt : Nat
  intOcntcfg : Nat
  srcLstRaddr : Fin ciMaxListNum
  cipherCtrl : HiU32
  cipherKey : Vector HiU32 8

structure HalRegs where
  chan : Chn → ChanRegs
  intEn : HiU32
  chan0Ivin : Vector HiU32 4
  chan0Din : Vector HiU32 4
  chan0Cfg : HiU32

def HalRegs.setChan (r : HalRegs) (c : Chn) (x : ChanRegs) : HalRegs :=
  { r with chan := Function.update r.chan c x }

@[simp] theorem HalRegs.setChan_self (r : HalRegs) (c : Chn) (x : ChanRegs) :
    (r.setChan c x).chan c = x := by
  simp [setChan]

theorem HalRegs.setChan_ne (r : HalRegs) {c d : Chn} (x : ChanRegs) (h : d ≠ c) :
    (r.setChan c x).chan d = r.chan d := by
  simp [setChan, Function.update_of_ne h]

/-! ## The buffer count registers -/

/-- The common body of the `HAL_Cipher_Set*` count accessors: refuse the
single-packet channel, clamp to 16 bits, write. -/
def halCipherSetCount (put : Nat → ChanRegs → ChanRegs) (chnId : Chn) (num : Nat)
    (r : HalRegs) : HiS32 × HalRegs :=
  if chnId = ciPkgx1Chan then (hiErrCipherInvalidPara, r)
  else
    let num := if num > 0xffff then 0xffff else num
    (hiSuccess, r.setChan chnId (put num (r.chan chnId)))

/-- `HAL_Cipher_SetInBufNum`. -/
def halCipherSetInBufNum := halCipherSetCount fun n c => { c with ibufNum := n }
/-- `HAL_Cipher_SetInBufCnt`: the engine adds the number written. -/
def halCipherSetInBufCnt := halCipherSetCount fun n c => { c with ibufCnt := c.ibufCnt + n }
/-- `HAL_Cipher_SetInBufEmpty`: the engine subtracts the number written. -/
def halCipherSetInBufEmpty :=
  halCipherSetCount fun n c => { c with iemptyCnt := c.iemptyCnt - n }
/-- `HAL_Cipher_SetOutBufNum`. -/
def halCipherSetOutBufNum := halCipherSetCount fun n c => { c with obufNum := n }
/-- `HAL_Cipher_SetOutBufCnt`: the engine adds the number written. -/
def halCipherSetOutBufCnt := halCipherSetCount fun n c => { c with obufCnt := c.obufCnt + n }
/-- `HAL_Cipher_SetOutBufFull`: the engine subtracts the number written. -/
def halCipherSetOutBufFull :=
  halCipherSetCount fun n c => { c with ofullCnt := c.ofullCnt - n }

/-- The common body of the `HAL_Cipher_Get*` count accessors; `none` is
`HI_ERR_CIPHER_INVALID_PARA`, with the out parameter left unset. -/
def halCipherGetCount (get : ChanRegs → Nat) (chnId : Chn) (r : HalRegs) : Option Nat :=
  if chnId = ciPkgx1Chan then none else some (get (r.chan chnId))

/-- `HAL_Cipher_GetInBufCnt`. -/
def halCipherGetInBufCnt := halCipherGetCount ChanRegs.ibufCnt
/-- `HAL_Cipher_GetOutBufFull`. -/
def halCipherGetOutBufFull := halCipherGetCount ChanRegs.ofullCnt

/-- What a count write of a multi-packet channel does, in range. -/
theorem halCipherSetCount_of_le (put : Nat → ChanRegs → ChanRegs) {chnId : Chn}
    {num : Nat} (r : HalRegs) (hc : chnId ≠ ciPkgx1Chan) (hn : num ≤ 0xffff) :
    halCipherSetCount put chnId num r
      = (hiSuccess, r.setChan chnId (put num (r.chan chnId))) := by
  have hle : ¬ num > 0xffff := by omega
  simp only [halCipherSetCount, if_neg hc, if_neg hle]

theorem halCipherSetCount_chan_self (put : Nat → ChanRegs → ChanRegs) {c : Chn}
    (hc : c ≠ ciPkgx1Chan) (n : Nat) (x : HalRegs) :
    (halCipherSetCount put c n x).2.chan c
      = put (if n > 0xffff then 0xffff else n) (x.chan c) := by
  simp only [halCipherSetCount, if_neg hc, HalRegs.setChan_self]

theorem halCipherSetCount_chan_ne (put : Nat → ChanRegs → ChanRegs) {c d : Chn} (hd : d ≠ c)
    (n : Nat) (x : HalRegs) : (halCipherSetCount put c n x).2.chan d = x.chan d := by
  unfold halCipherSetCount
  split
  · rfl
  · exact x.setChan_ne _ hd

/-! ## Control register, key registers, initial vector -/

/-- `HAL_Cipher_SetInIV`: only the single-packet channel has an IV register. -/
def halCipherSetInIV (chnId : Chn) (pCtrl : HiUnfCipherCtrl) (r : HalRegs) :
    HiS32 × HalRegs :=
  if chnId ≠ ciPkgx1Chan then (hiErrCipherInvalidPara, r)
  else (hiSuccess, { r with chan0Ivin := pCtrl.u32IV })

/-- `HAL_Cipher_SetKey`: a key by the conditional-access module is not
loaded here ("NOT to do this now"). -/
def halCipherSetKey (chnId : Chn) (pCtrl : HiUnfCipherCtrl) (r : HalRegs) : HalRegs :=
  if pCtrl.bKeyByCA = 0#32 then
    r.setChan chnId { r.chan chnId with cipherKey := pCtrl.u32Key }
  else r

/-- The word `HAL_Cipher_Config` writes back to a control register. -/
def cipherCtrlWord (chnId : Chn) (bDecrypt : Bool) (pCtrl : HiUnfCipherCtrl)
    (regValue : HiU32) : HiU32 :=
  let regValue := if bDecrypt = false then regValue &&& ~~~1#32 else regValue ||| 1#32
  let regValue := setField 1 3 pCtrl.enWorkMode regValue
  let regValue := setField 4 2 pCtrl.enAlg regValue
  let regValue := setField 6 2 pCtrl.enBitWidth regValue
  let regValue := setField 9 2 pCtrl.enKeyLen regValue
  let regValue := setField 13 1 pCtrl.bKeyByCA regValue
  setField 14 3 (BitVec.ofNat 32 chnId.val) regValue

/-- `HAL_Cipher_Config`. -/
def halCipherConfig (chnId : Chn) (bDecrypt bIVChange : Bool) (pCtrl : HiUnfCipherCtrl)
    (r : HalRegs) : HiS32 × HalRegs :=
  let r := if bIVChange then (halCipherSetInIV chnId pCtrl r).2 else r
  (hiSuccess, r.setChan chnId
    { r.chan chnId with
      cipherCtrl := cipherCtrlWord chnId bDecrypt pCtrl (r.chan chnId).cipherCtrl })

theorem halCipherConfig_of_ne {chnId : Chn} (hc : chnId ≠ ciPkgx1Chan)
    (bDecrypt bIVChange : Bool) (pCtrl : HiUnfCipherCtrl) (r : HalRegs) :
    halCipherConfig chnId bDecrypt bIVChange pCtrl r
      = (hiSuccess, r.setChan chnId
          { r.chan chnId with
            cipherCtrl := cipherCtrlWord chnId bDecrypt pCtrl (r.chan chnId).cipherCtrl }) := by
  cases bIVChange <;> simp [halCipherConfig, halCipherSetInIV, hc]

theorem halCipherSetInIV_chan (c : Chn) (pCtrl : HiUnfCipherCtrl) (r : HalRegs) :
    (halCipherSetInIV c pCtrl r).2.chan = r.chan := by
  unfold halCipherSetInIV
  split <;> rfl

theorem halCipherConfig_chan_ne {c d : Chn} (hd : d ≠ c) (bDecrypt bIVChange : Bool)
    (pCtrl : HiUnfCipherCtrl) (r : HalRegs) :
    (halCipherConfig c bDecrypt bIVChange pCtrl r).2.chan d = r.chan d := by
  cases bIVChange <;>
    simp [halCipherConfig, HalRegs.setChan_ne _ _ hd, halCipherSetInIV_chan]

theorem halCipherSetKey_chan_ne {c d : Chn} (hd : d ≠ c) (pCtrl : HiUnfCipherCtrl)
    (r : HalRegs) : (halCipherSetKey c pCtrl r).chan d = r.chan d := by
  unfold halCipherSetKey
  split
  · exact r.setChan_ne _ hd
  · rfl

/-- The decrypt bit is written by the same read-modify-write as a field. -/
theorem decryptBit_eq_setField (bDecrypt : Bool) (regValue : HiU32) :
    (if bDecrypt = false then regValue &&& ~~~1#32 else regValue ||| 1#32)
      = setField 0 1 (if bDecrypt then 1#32 else 0#32) regValue := by
  cases bDecrypt with
  | false => simp [setField, mask]
  | true =>
      have hor : (regValue &&& ~~~1#32) ||| 1#32 = regValue ||| 1#32 := by
        rw [BitVec.or_comm, BitVec.or_comm regValue]
        apply BitVec.eq_of_getLsbD_eq
        intro i _
        simp only [BitVec.getLsbD_or, BitVec.getLsbD_and, BitVec.getLsbD_not]
        cases (1#32).getLsbD i <;> simp_all
      simpa [setField, mask] using hor.symm

/-! ## Interrupt enable -/

/-- `HAL_Cipher_SetIntThreshold(chnId, CIPHER_INT_TYPE_OUT_BUF, value)`. -/
def halCipherSetIntThreshold := halCipherSetCount fun n c => { c with intOcntcfg := n }

/-- `HAL_Cipher_EnableInt(chnId, CIPHER_INT_TYPE_OUT_BUF)`. -/
def halCipherEnableInt (chnId : Chn) (r : HalRegs) : HiS32 × HalRegs :=
  let regValue := r.intEn ||| (1#32 <<< 31)
  let regValue :=
    if chnId = ciPkgx1Chan then regValue ||| (1#32 <<< 8)
    else regValue ||| (1#32 <<< (8 + chnId.val))
  (hiSuccess, { r with intEn := regValue })

end ExtDrv.Cipher
