import ExtDrv.Cipher.Hal
import ExtDrv.Lib.RingBuf

/-!
# The cipher driver core (`drv_cipher.c`)

Hardware channels with their node rings, soft channels, the submit path
`DRV_Cipher_CreatTask` and the completion path `DRV_Cipher_ISR`. `Cb` is
the type of the completion callbacks (`funcCipherCallback`): the driver
only stores one per soft channel and calls it, so a call is recorded as
the pair of the callback and its argument.

Addresses inside the driver's own list memory are kept as ring indices:
`u32IVStartAddr` is the index of the IV slot it points to.
-/

namespace ExtDrv.Cipher

open RingBuf

/-- `CIPHER_INVALID_CHN`. -/
def cipherInvalidChn : HiU32 := 0xffffffff#32
/-- `CIPHER_DEFAULT_INT_NUM`. -/
def cipherDefaultIntNum : Nat := 1
def ciBufListFlagIvsetBit : Nat := 21
def ciBufListFlagEolBit : Nat := 22

/-- `CI_BUF_LIST_ENTRY_S`. -/
structure CiBufListEntry where
  u32DataAddr : HiU32
  u32Flags : HiU32
  U32DataLen : HiU32
  u32IVStartAddr : Fin ciMaxListNum
  deriving DecidableEq

/-- `CIPHER_PKGN_MNG_S`. -/
structure CipherPkgnMng where
  u32TotalPkg : HiU32
  u32CurrentPtr : Fin ciMaxListNum
  u32BusyCnt : Nat

/-- `CIPHER_CHAN_S`; `astCipherIVValue` is the content of the IV slots. -/
structure CipherChan where
  pstInBuf : Fin ciMaxListNum → CiBufListEntry
  pstOutBuf : Fin ciMaxListNum → CiBufListEntry
  astCipherIVValue : Fin ciMaxListNum → Vector HiU32 4
  au32WitchSoftChn : Fin ciMaxListNum → HiU32
  au32CallBackArg : Fin ciMaxListNum → HiU32
  unInData : CipherPkgnMng
  unOutData : CipherPkgnMng

/-- `CIPHER_SOFTCHAN_S`. -/
structure CipherSoftChan (Cb : Type) where
  bOpen : Bool
  u32HardWareChn : Chn
  stCtrl : HiUnfCipherCtrl
  bIVChange : Bool
  bKeyChange : Bool
  u32PirvateData : HiU32
  pfnCallBack : Option Cb

/-- `CIPHER_TASK_S`. -/
structure CipherTask where
  stData2Process : HiUnfCipherInfo
  u32CallBackArg : HiU32
  deriving DecidableEq

/-- The driver's globals and the engine's registers. -/
structure DrvState (Cb : Type) where
  g_stCipherChans : Chn → CipherChan
  g_stCipherSoftChans : Chn → CipherSoftChan Cb
  regs : HalRegs

variable {Cb : Type}

/-! ## Field updates -/

def DrvState.setChan (st : DrvState Cb) (c : Chn) (x : CipherChan) : DrvState Cb :=
  { st with g_stCipherChans := Function.update st.g_stCipherChans c x }

def DrvState.setSoft (st : DrvState Cb) (c : Chn) (x : CipherSoftChan Cb) : DrvState Cb :=
  { st with g_stCipherSoftChans := Function.update st.g_stCipherSoftChans c x }

def DrvState.setRegs (st : DrvState Cb) (r : HalRegs) : DrvState Cb := { st with regs := r }

section FieldUpdates

variable (st : DrvState Cb) (c : Chn)

@[simp] theorem setChan_chans_self (x : CipherChan) :
    (st.setChan c x).g_stCipherChans c = x := by
  simp [DrvState.setChan]

theorem setChan_chans_ne {d : Chn} (x : CipherChan) (h : d ≠ c) :
    (st.setChan c x).g_stCipherChans d = st.g_stCipherChans d := by
  simp [DrvState.setChan, Function.update_of_ne h]

@[simp] theorem setChan_soft (x : CipherChan) :
    (st.setChan c x).g_stCipherSoftChans = st.g_stCipherSoftChans := rfl

@[simp] theorem setChan_regs (x : CipherChan) : (st.setChan c x).regs = st.regs := rfl

@[simp] theorem setSoft_soft_self (x : CipherSoftChan Cb) :
    (st.setSoft c x).g_stCipherSoftChans c = x := by
  simp [DrvState.setSoft]

theorem setSoft_soft_ne {d : Chn} (x : CipherSoftChan Cb) (h : d ≠ c) :
    (st.setSoft c x).g_stCipherSoftChans d = st.g_stCipherSoftChans d := by
  simp [DrvState.setSoft, Function.update_of_ne h]

@[simp] theorem setSoft_chans (x : CipherSoftChan Cb) :
    (st.setSoft c x).g_stCipherChans = st.g_stCipherChans := rfl

@[simp] theorem setSoft_regs (x : CipherSoftChan Cb) : (st.setSoft c x).regs = st.regs := rfl

@[simp] theorem setRegs_chans (r : HalRegs) :
    (st.setRegs r).g_stCipherChans = st.g_stCipherChans := rfl

@[simp] theorem setRegs_soft (r : HalRegs) :
    (st.setRegs r).g_stCipherSoftChans = st.g_stCipherSoftChans := rfl

@[simp] theorem setRegs_regs (r : HalRegs) : (st.setRegs r).regs = r := rfl

end FieldUpdates

/-! ## Initialisation, open, close, configure -/

/-- `DRV_CipherInitHardWareChn`. -/
def drvCipherInitHardWareChn (chnId : Chn) (r : HalRegs) : HalRegs :=
  let r := (halCipherSetInBufNum chnId ciMaxListNum r).2
  let r := (halCipherSetInBufCnt chnId 0 r).2
  let r := (halCipherSetOutBufNum chnId ciMaxListNum r).2
  (halCipherSetOutBufCnt chnId ciMaxListNum r).2

/-- A zeroed list entry. -/
def zeroEntry : CiBufListEntry := ⟨0, 0, 0, 0⟩

def zeroCtrl : HiUnfCipherCtrl :=
  { u32Key := Vector.replicate 8 0, u32IV := Vector.replicate 4 0, bKeyByCA := 0,
    enAlg := 0, enBitWidth := 0, enWorkMode := 0, enKeyLen := 0 }

/-- `DRV_Cipher_Init`: the globals are zeroed and the seven multi-packet
channels initialised. The engine comes out of reset with its count
registers at zero; the contents of the control and key registers are
whatever they were. -/
def drvCipherInit (ctrl : Chn → HiU32) (key : Chn → Vector HiU32 8) : DrvState Cb :=
  let r : HalRegs :=
    { chan := fun c => ⟨0, 0, 0, 0, 0, 0, 0, 0, ctrl c, key c⟩,
      intEn := 0, chan0Ivin := Vector.replicate 4 0, chan0Din := Vector.replicate 4 0,
      chan0Cfg := 0 }
  { g_stCipherChans := fun _ =>
      { pstInBuf := fun _ => zeroEntry, pstOutBuf := fun _ => zeroEntry,
        astCipherIVValue := fun _ => Vector.replicate 4 0,
        au32WitchSoftChn := fun _ => 0, au32CallBackArg := fun _ => 0,
        unInData := ⟨0, 0, 0⟩, unOutData := ⟨0, 0, 0⟩ },
    g_stCipherSoftChans := fun _ => ⟨false, 0, zeroCtrl, false, false, 0, none⟩,
    regs := multiPkgChns.foldl (fun r c => drvCipherInitHardWareChn c r) r }

/-- `DRV_Cipher_OpenChn`. -/
def drvCipherOpenChn (softChnId : Chn) (st : DrvState Cb) : HiS32 × DrvState Cb :=
  let pSoftChan := { st.g_stCipherSoftChans softChnId with u32HardWareChn := softChnId }
  let r := (halCipherSetIntThreshold pSoftChan.u32HardWareChn cipherDefaultIntNum st.regs).2
  let (ret, r) := halCipherEnableInt pSoftChan.u32HardWareChn r
  (ret, (st.setRegs r).setSoft softChnId { pSoftChan with bOpen := true })

/-- `DRV_Cipher_CloseChn`. -/
def drvCipherCloseChn (softChnId : Chn) (st : DrvState Cb) : HiS32 × DrvState Cb :=
  (hiSuccess,
    st.setSoft softChnId { st.g_stCipherSoftChans softChnId with bOpen := false })

/-- `DRV_Cipher_ConfigChn`. -/
def drvCipherConfigChn (softChnId : Chn) (pConfig : HiUnfCipherCtrl) (fnCallBack : Cb)
    (st : DrvState Cb) : HiS32 × DrvState Cb :=
  let pSoftChan := st.g_stCipherSoftChans softChnId
  let (ret, r) := halCipherConfig pSoftChan.u32HardWareChn false false pConfig st.regs
  (ret, (st.setRegs r).setSoft softChnId
    { pSoftChan with
      pfnCallBack := some fnCallBack
      bIVChange := true
      bKeyChange := true
      stCtrl := pConfig })

/-! ## Submitting -/

/-- `DRV_CipherStartSinglePkgChn` up to the wait; `idle` is what
`HAL_Cipher_WaitIdle` reports. -/
def drvCipherStartSinglePkgChn (softChnId : Chn) (pBuf2Process : HiUnfCipherInfo)
    (idle : Bool) (st : DrvState Cb) : HiS32 × DrvState Cb :=
  let stCtrl := (st.g_stCipherSoftChans softChnId).stCtrl
  let r := (halCipherConfig 0 pBuf2Process.bDecrypt false stCtrl st.regs).2
  let r := (halCipherSetInIV 0 stCtrl r).2
  let r := halCipherSetKey 0 stCtrl r
  let r := { r with chan0Din := pBuf2Process.u32DataPkg }
  let r := { r with chan0Cfg := r.chan0Cfg ||| 1 }
  (if idle then hiSuccess else hiFailure, st.setRegs r)

theorem startSinglePkg_soft (c : Chn) (info : HiUnfCipherInfo) (idle : Bool)
    (st : DrvState Cb) : (drvCipherStartSinglePkgChn c info idle st).2.g_stCipherSoftChans
      = st.g_stCipherSoftChans := rfl
theorem startSinglePkg_chans (c : Chn) (info : HiUnfCipherInfo) (idle : Bool)
    (st : DrvState Cb) : (drvCipherStartSinglePkgChn c info idle st).2.g_stCipherChans
      = st.g_stCipherChans := rfl
theorem startSinglePkg_regs (c : Chn) {d : Chn} (hd : d ≠ ciPkgx1Chan)
    (info : HiUnfCipherInfo) (idle : Bool) (st : DrvState Cb) :
    (drvCipherStartSinglePkgChn c info idle st).2.regs.chan d = st.regs.chan d := by
  simp only [drvCipherStartSinglePkgChn, setRegs_regs]
  rw [halCipherSetKey_chan_ne (c := 0) hd, halCipherSetInIV_chan]
  exact halCipherConfig_chan_ne (c := 0) hd _ _ _ _

/-- `pInBuf->u32Flags` with bit `bit` set, or cleared. -/
def setFlag (bit : Nat) (on : Bool) (u32Flags : HiU32) : HiU32 :=
  if on then u32Flags ||| (1#32 <<< bit) else u32Flags &&& ~~~(1#32 <<< bit)

/-- The list entries and the IV slot a submit writes at `currentPtr`. -/
def fillNode (currentPtr : Fin ciMaxListNum) (pBuf2Process : HiUnfCipherInfo)
    (pSoftChan : CipherSoftChan Cb) (pChan : CipherChan) : CipherChan :=
  let pInBuf := pChan.pstInBuf currentPtr
  let pOutBuf := pChan.pstOutBuf currentPtr
  let pInBuf := { pInBuf with
    u32DataAddr := pBuf2Process.u32src, U32DataLen := pBuf2Process.u32length }
  let pOutBuf := { pOutBuf with
    u32DataAddr := pBuf2Process.u32dest, U32DataLen := pBuf2Process.u32length }
  let iv := if pSoftChan.bIVChange then pSoftChan.stCtrl.u32IV
    else pChan.astCipherIVValue currentPtr
  let pInBuf := { pInBuf with
    u32IVStartAddr := if pSoftChan.bIVChange then currentPtr else pInBuf.u32IVStartAddr
    u32Flags := setFlag ciBufListFlagIvsetBit pSoftChan.bIVChange pInBuf.u32Flags }
  let pInBuf := { pInBuf with u32Flags := setFlag ciBufListFlagEolBit true pInBuf.u32Flags }
  let pOutBuf := { pOutBuf with u32Flags := setFlag ciBufListFlagEolBit true pOutBuf.u32Flags }
  { pChan with
    pstInBuf := Function.update pChan.pstInBuf currentPtr pInBuf
    pstOutBuf := Function.update pChan.pstOutBuf currentPtr pOutBuf
    astCipherIVValue := Function.update pChan.astCipherIVValue currentPtr iv }

/-- The driver's memory after a submit: the node is filled in, its slots are
taken, the submit pointer moves on. -/
def submitChan (softChnId : Chn) (pBuf2Process : HiUnfCipherInfo) (callBackArg : HiU32)
    (pSoftChan : CipherSoftChan Cb) (pChan : CipherChan) : CipherChan :=
  let currentPtr := pChan.unInData.u32CurrentPtr
  let pChan := fillNode currentPtr pBuf2Process pSoftChan pChan
  { pChan with
    au32WitchSoftChn := Function.update pChan.au32WitchSoftChn currentPtr
      (BitVec.ofNat 32 softChnId.val)
    au32CallBackArg := Function.update pChan.au32CallBackArg currentPtr callBackArg
    unInData := { pChan.unInData with
      u32CurrentPtr := wrapSucc currentPtr
      u32TotalPkg := pChan.unInData.u32TotalPkg + 1 }
    unOutData := { pChan.unOutData with
      u32TotalPkg := pChan.unOutData.u32TotalPkg + 1 } }

/-- The register writes of a submit: the key if it changed, the control
register, one more node for the engine. -/
def submitRegs (hardWareChn : Chn) (bDecrypt : Bool) (pSoftChan : CipherSoftChan Cb)
    (r : HalRegs) : HiS32 × HalRegs :=
  let r := if pSoftChan.bKeyChange then
    halCipherSetKey hardWareChn pSoftChan.stCtrl r else r
  let (ret, r) := halCipherConfig hardWareChn bDecrypt pSoftChan.bIVChange
    pSoftChan.stCtrl r
  (ret, (halCipherSetInBufCnt hardWareChn 1 r).2)

/-- `DRV_CipherStartMultiPkgChn`. -/
def drvCipherStartMultiPkgChn (softChnId : Chn) (pBuf2Process : HiUnfCipherInfo)
    (callBackArg : HiU32) (st : DrvState Cb) : HiS32 × DrvState Cb :=
  let pSoftChan := st.g_stCipherSoftChans softChnId
  let hardWareChn := pSoftChan.u32HardWareChn
  let pChan := st.g_stCipherChans hardWareChn
  -- the single-packet channel, which leaves BusyCnt unset, is not sent here
  let BusyCnt := (halCipherGetInBufCnt hardWareChn st.regs).getD 0
  let pChan := { pChan with unInData := { pChan.unInData with u32BusyCnt := BusyCnt } }
  if BusyCnt < ciMaxListNum then
    let pChan := submitChan softChnId pBuf2Process callBackArg pSoftChan pChan
    let (ret, r) := submitRegs hardWareChn pBuf2Process.bDecrypt pSoftChan st.regs
    let pSoftChan := { pSoftChan with
      bKeyChange := false, bIVChange := false, u32PirvateData := callBackArg }
    (ret, ((st.setRegs r).setChan hardWareChn pChan).setSoft softChnId pSoftChan)
  else
    (hiFailure, st.setChan hardWareChn pChan)

/-- What a submit does to the registers of its channel. -/
theorem submitRegs_chan_self {c : Chn} (hc : c ≠ ciPkgx1Chan) (bDecrypt : Bool)
    (pSoftChan : CipherSoftChan Cb) (r : HalRegs) :
    (submitRegs c bDecrypt pSoftChan r).2.chan c
      = { r.chan c with
          cipherKey :=
            if pSoftChan.bKeyChange = true ∧ pSoftChan.stCtrl.bKeyByCA = 0#32 then
              pSoftChan.stCtrl.u32Key
            else (r.chan c).cipherKey
          cipherCtrl := cipherCtrlWord c bDecrypt pSoftChan.stCtrl (r.chan c).cipherCtrl
          ibufCnt := (r.chan c).ibufCnt + 1 } := by
  simp only [submitRegs, halCipherConfig_of_ne hc, halCipherSetInBufCnt,
    halCipherSetCount_of_le _ _ hc (show 1 ≤ 0xffff by decide), halCipherSetKey]
  cases pSoftChan.bKeyChange <;> by_cases hca : pSoftChan.stCtrl.bKeyByCA = 0#32 <;> simp [hca]

/-- It leaves the registers of the other channels alone. -/
theorem submitRegs_chan_ne {c d : Chn} (hc : c ≠ ciPkgx1Chan) (hd : d ≠ c) (bDecrypt : Bool)
    (pSoftChan : CipherSoftChan Cb) (r : HalRegs) :
    (submitRegs c bDecrypt pSoftChan r).2.chan d = r.chan d := by
  simp only [submitRegs, halCipherConfig_of_ne hc, halCipherSetInBufCnt,
    halCipherSetCount_of_le _ _ hc (show 1 ≤ 0xffff by decide), halCipherSetKey]
  cases pSoftChan.bKeyChange <;> by_cases hca : pSoftChan.stCtrl.bKeyByCA = 0#32 <;>
    simp [hca, HalRegs.setChan_ne _ _ hd]

theorem submitRegs_ret {c : Chn} (hc : c ≠ ciPkgx1Chan) (bDecrypt : Bool)
    (pSoftChan : CipherSoftChan Cb) (r : HalRegs) :
    (submitRegs c bDecrypt pSoftChan r).1 = hiSuccess := by
  simp only [submitRegs, halCipherConfig_of_ne hc]

/-- The soft channel `DRV_Cipher_CreatTask` leaves when the caller passes a
key or an initial vector of its own. -/
def overrideCtrl (pKey : Option (Vector HiU32 8)) (pIV : Option (Vector HiU32 4))
    (pSoftChan : CipherSoftChan Cb) : CipherSoftChan Cb :=
  let pSoftChan := match pKey with
    | some k => { pSoftChan with
        bKeyChange := true, stCtrl := { pSoftChan.stCtrl with u32Key := k } }
    | none => pSoftChan
  match pIV with
  | some v => { pSoftChan with
      bIVChange := true, stCtrl := { pSoftChan.stCtrl with u32IV := v } }
  | none => pSoftChan

/-- `DRV_Cipher_CreatTask`. -/
def drvCipherCreatTask (softChnId : Chn) (pTask : CipherTask)
    (pKey : Option (Vector HiU32 8)) (pIV : Option (Vector HiU32 4)) (idle : Bool)
    (st : DrvState Cb) : HiS32 × DrvState Cb :=
  let st := st.setSoft softChnId (overrideCtrl pKey pIV (st.g_stCipherSoftChans softChnId))
  if (st.g_stCipherSoftChans softChnId).u32HardWareChn = ciPkgx1Chan then
    drvCipherStartSinglePkgChn softChnId pTask.stData2Process idle st
  else
    drvCipherStartMultiPkgChn softChnId pTask.stData2Process pTask.u32CallBackArg st

/-! ## Completing -/

/-- `&g_stCipherSoftChans[softChnId]` for a soft channel number read from a
slot; `none` when the number is outside the array. -/
def softChanIdx (softChnId : HiU32) : Option Chn :=
  if h : softChnId.toNat < ciChanNum then some ⟨softChnId.toNat, h⟩ else none

/-- The call a completed node makes, if its soft channel has a callback. -/
def callBack (pSoftChan : CipherSoftChan Cb) : List (Cb × HiU32) :=
  match pSoftChan.pfnCallBack with
  | some f => [(f, pSoftChan.u32PirvateData)]
  | none => []

/-- The `for (i = 0; i < fullCnt; i++)` loop of `DRV_CipherDataDoneMultiPkg`:
the slots and the index it leaves and the calls it makes, or `none` if it
indexes `g_stCipherSoftChans` out of bounds. -/
def dataDoneLoop (soft : Chn → CipherSoftChan Cb) :
    Nat → (Fin ciMaxListNum → HiU32) → Fin ciMaxListNum →
      Option ((Fin ciMaxListNum → HiU32) × Fin ciMaxListNum × List (Cb × HiU32))
  | 0, au32WitchSoftChn, idx => some (au32WitchSoftChn, idx, [])
  | n + 1, au32WitchSoftChn, idx =>
      (softChanIdx (au32WitchSoftChn idx)).bind fun s =>
        (dataDoneLoop soft n (Function.update au32WitchSoftChn idx cipherInvalidChn)
          (wrapSucc idx)).map fun (slots, idx', calls) =>
            (slots, idx', callBack (soft s) ++ calls)

theorem softChanIdx_ofNat (s : Chn) : softChanIdx (BitVec.ofNat 32 s.val) = some s := by
  have hlt : s.val < 8 := s.isLt
  have hmod : s.val % 4294967296 = s.val := Nat.mod_eq_of_lt (by omega)
  simp [softChanIdx, hmod]

/-- While the slots from `idx` on hold the soft channel `s`, the loop calls
its callback once per slot and leaves the rest of the ring alone. -/
theorem dataDoneLoop_of_holds (soft : Chn → CipherSoftChan Cb) (s : Chn) (n : Nat)
    {slots : Fin ciMaxListNum → HiU32} {idx : Fin ciMaxListNum} {q : List HiU32}
    (h : Holds slots idx (List.replicate n (BitVec.ofNat 32 s.val) ++ q))
    (hlen : n + q.length ≤ ciMaxListNum) :
    ∃ slots', dataDoneLoop soft n slots idx
        = some (slots', slotAt idx n, (List.replicate n (callBack (soft s))).flatten)
      ∧ Holds slots' (slotAt idx n) q := by
  induction n generalizing slots idx with
  | zero => exact ⟨slots, by simp [dataDoneLoop], by simpa using h⟩
  | succ n ih =>
      rw [List.replicate_succ, List.cons_append] at h
      have hs : softChanIdx (slots idx) = some s := by rw [h.head, softChanIdx_ofNat]
      have htail := h.pop_set (by simp; omega) cipherInvalidChn
      obtain ⟨slots', hloop, hholds⟩ := ih htail (by omega)
      refine ⟨slots', ?_, ?_⟩
      · simp only [dataDoneLoop, hs, Option.bind_some, hloop, Option.map_some,
          slotAt_wrapSucc, List.replicate_succ, List.flatten_cons]
      · rwa [slotAt_wrapSucc] at hholds

/-- `DRV_CipherDataDoneMultiPkg`: status, state and calls; `none` when the
loop leaves the soft channel array. -/
def drvCipherDataDoneMultiPkg (chnId : Chn) (st : DrvState Cb) :
    Option (HiS32 × DrvState Cb × List (Cb × HiU32)) :=
  let pChan := st.g_stCipherChans chnId
  match halCipherGetOutBufFull chnId st.regs with
  | none => some (hiErrCipherInvalidPara, st, [])
  | some fullCnt =>
      if fullCnt > 0 then
        (dataDoneLoop st.g_stCipherSoftChans fullCnt pChan.au32WitchSoftChn
          pChan.unOutData.u32CurrentPtr).map fun (slots, idx, calls) =>
            let r := (halCipherSetInBufEmpty chnId fullCnt st.regs).2
            let r := (halCipherSetOutBufFull chnId fullCnt r).2
            let r := (halCipherSetOutBufCnt chnId fullCnt r).2
            (hiSuccess,
              (st.setRegs r).setChan chnId { pChan with
                au32WitchSoftChn := slots
                unOutData := { pChan.unOutData with u32CurrentPtr := idx } },
              calls)
      else some (hiFailure, st, [])

/-- `DRV_CipherDataDoneSinglePkg`. -/
def drvCipherDataDoneSinglePkg (chnId : Chn) (st : DrvState Cb) : List (Cb × HiU32) :=
  callBack (st.g_stCipherSoftChans chnId)

/-- The channels `DRV_Cipher_ISR` hands to `DRV_CipherDataDoneMultiPkg`, in
the order it visits them. -/
def isrChannels (INTValue : HiU32) : List Chn :=
  multiPkgChns.filter fun i => INTValue.getLsbD (i.val + 8)

/-- The channel loop of `DRV_Cipher_ISR`, over the channels still to visit:
the state and the calls made for each channel. -/
def isrLoop : List Chn → DrvState Cb → Option (DrvState Cb × List (Chn × Cb × HiU32))
  | [], st => some (st, [])
  | i :: rest, st =>
      (drvCipherDataDoneMultiPkg i st).bind fun (_, st', calls) =>
        (isrLoop rest st').map fun (st'', calls') =>
          (st'', calls.map (Prod.mk i) ++ calls')

/-- `DRV_Cipher_ISR`, with `INTValue` the interrupt status it reads. -/
def drvCipherIsr (INTValue : HiU32) (st : DrvState Cb) :
    Option (DrvState Cb × List (Chn × Cb × HiU32)) :=
  let calls0 := if INTValue.getLsbD 8 then drvCipherDataDoneSinglePkg 0 st else []
  (isrLoop (isrChannels INTValue) st).map fun (st', calls) =>
    (st', calls0.map (Prod.mk 0) ++ calls)

/-! ## The engine -/

/-- The engine finishes the next node of a channel: `IBUF_CNT` and
`OBUF_CNT` go down, `IEMPTY_CNT` and `OFULL_CNT` go up, the read address
moves on. Without a node to process it does nothing. -/
def engineFinish (chnId : Chn) (st : DrvState Cb) : DrvState Cb :=
  let x := st.regs.chan chnId
  if x.ibufCnt = 0 then st
  else st.setRegs (st.regs.setChan chnId
    { x with
      ibufCnt := x.ibufCnt - 1
      iemptyCnt := x.iemptyCnt + 1
      obufCnt := x.obufCnt - 1
      ofullCnt := x.ofullCnt + 1
      srcLstRaddr := wrapSucc x.srcLstRaddr })

end ExtDrv.Cipher
