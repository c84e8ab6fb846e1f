import ExtDrv.Cipher.Queue

/-!
# The cipher ioctl layer (`cipher_intf.c`)

Soft channels handed out to open files as handles. An Encrypt or Decrypt
releases the ioctl semaphore before it submits its task and takes it again
after the wait, so `DRV_CIPHER_Ioctl` is cut there: `ioctlBody` is what runs
under the semaphore up to the final `up` or to the release in the middle,
and the rest of an Encrypt or Decrypt follows as separate steps.

The driver's callbacks are all `DRV_CIPHER_UserCommCallBack`, so the type of
callbacks is `Unit`.
-/

namespace ExtDrv.Cipher

open Run

/-- A `struct file *`. -/
abbrev File := Nat

def erestartsys : HiS32 := -512

/-- `CIPHER_OSR_CHN_S`, its wait queue apart. -/
structure CipherOsrChn where
  g_bSoftChnOpen : Bool
  g_bDataDone : Bool
  pWichFile : Option File
  deriving DecidableEq

/-- `g_stCipherOsrChn` and the driver below. -/
structure IntfState where
  g_stCipherOsrChn : Chn → CipherOsrChn
  drv : DrvRun Unit

def IntfState.setOsr (s : IntfState) (c : Chn) (x : CipherOsrChn) : IntfState :=
  { s with g_stCipherOsrChn := Function.update s.g_stCipherOsrChn c x }

/-- `DRV_CIPHER_ModInit`. -/
def drvCipherModInit (ctrl : Chn → HiU32) (key : Chn → Vector HiU32 8) : IntfState :=
  { g_stCipherOsrChn := fun _ => ⟨false, false, none⟩
    drv := { st := drvCipherInit ctrl key, hist := fun _ => .empty, fault := false } }

/-! ## Completion -/

/-- `DRV_CIPHER_UserCommCallBack`. Its argument is always the number of a soft
channel. -/
def drvCipherUserCommCallBack (arg : HiU32) (osr : Chn → CipherOsrChn) :
    Chn → CipherOsrChn :=
  match softChanIdx arg with
  | some i => Function.update osr i { osr i with g_bDataDone := true }
  | none => osr

/-- The callbacks of a list of calls, one after the other. -/
def runCallBacks (calls : List (Unit × HiU32)) (osr : Chn → CipherOsrChn) :
    Chn → CipherOsrChn :=
  calls.foldl (fun osr call => drvCipherUserCommCallBack call.2 osr) osr

/-- `DRV_CipherDataDoneMultiPkg` with the callbacks it makes. -/
def intfDataDone (c : Chn) (s : IntfState) : IntfState :=
  { g_stCipherOsrChn := runCallBacks (dataDoneCalls c s.drv.st) s.g_stCipherOsrChn
    drv := runDataDone c s.drv }

/-- `DRV_Cipher_ISR` with the callbacks it makes. -/
def intfIsr (INTValue : HiU32) (s : IntfState) : IntfState :=
  let calls0 :=
    if INTValue.getLsbD 8 then drvCipherDataDoneSinglePkg 0 s.drv.st else []
  let s := { s with g_stCipherOsrChn := runCallBacks calls0 s.g_stCipherOsrChn }
  (isrChannels INTValue).foldl (fun s c => intfDataDone c s) s

/-- What happens below the ioctl layer: the engine finishes a node, or an
interrupt is taken. -/
inductive IntfEvent where
  | engine (chnId : Chn)
  | isr (INTValue : HiU32)

def intfEvent (s : IntfState) : IntfEvent → IntfState
  | .engine c => { s with drv := drvStep s.drv (.engine c) }
  | .isr INTValue => intfIsr INTValue s

/-! ## The ioctl commands -/

/-- `CIPHER_Config_CTRL`. -/
structure CipherConfigCtrl where
  CIHandle : HiU32
  CIpstCtrl : HiUnfCipherCtrl

/-- `CIPHER_DATA_S`. -/
structure CipherData where
  ScrPhyAddr : HiU32
  DestPhyAddr : HiU32
  ByteLength : HiU32
  CIHandle : HiU32

/-- The commands of `DRV_CIPHER_Ioctl` with what the user passes; `none` is a
`copy_from_user` that fails. -/
inductive IoctlCmd where
  | createHandle (copyToUserFails : Bool)
  | destroyHandle (arg : HiU32)
  | configHandle (arg : Option CipherConfigCtrl)
  | encrypt (arg : Option CipherData)
  | decrypt (arg : Option CipherData)
  | other

/-- The soft channel is open and `file` opened it. -/
def IntfState.owns (s : IntfState) (file : File) (softChnId : Chn) : Bool :=
  (s.g_stCipherOsrChn softChnId).g_bSoftChnOpen
    && decide ((s.g_stCipherOsrChn softChnId).pWichFile = some file)

/-- `(HI_ID_CIPHER << 16) + softChnId`. -/
def cipherHandle (softChnId : Chn) : HiU32 :=
  (100#32 <<< 16) + BitVec.ofNat 32 softChnId.val

/-- `HI_CIPHER_CreateHandle`: status, the handle written to the user, state. -/
def ioctlCreateHandle (file : File) (copyToUserFails : Bool) (s : IntfState) :
    HiS32 × Option HiU32 × IntfState :=
  match multiPkgChns.find? fun i => !(s.g_stCipherOsrChn i).g_bSoftChnOpen with
  | none => (hiErrCipherFailedGethandle, none, s)
  | some softChnId =>
      -- open before anything has succeeded, and the failures below leave it so
      let s := s.setOsr softChnId
        { s.g_stCipherOsrChn softChnId with g_bSoftChnOpen := true }
      let Cipherchn := cipherHandle softChnId
      let Ret := (drvCipherOpenChn softChnId s.drv.st).1
      let s := { s with drv := drvStep s.drv (.openChn softChnId) }
      if Ret ≠ hiSuccess then (Ret, none, s)
      else if copyToUserFails then (hiFailure, none, s)
      else
        (hiSuccess, some Cipherchn, s.setOsr softChnId
          { s.g_stCipherOsrChn softChnId with pWichFile := some file })

/-- `HI_CIPHER_DestroyHandle`. -/
def ioctlDestroyHandle (file : File) (arg : HiU32) (s : IntfState) : HiS32 × IntfState :=
  match softChanIdx (arg &&& 0x00ff#32) with
  | none => (hiErrCipherInvalidHandle, s)
  | some softChnId =>
      if s.owns file softChnId = false then
        (hiSuccess, s) -- success on re-Destroy
      else
        let s := s.setOsr softChnId
          { s.g_stCipherOsrChn softChnId with g_bSoftChnOpen := false, pWichFile := none }
        ((drvCipherCloseChn softChnId s.drv.st).1,
          { s with drv := drvStep s.drv (.closeChn softChnId) })

/-- `HI_CIPHER_ConfigHandle`. -/
def ioctlConfigHandle (file : File) (arg : Option CipherConfigCtrl) (s : IntfState) :
    HiS32 × IntfState :=
  match arg with
  | none => (hiFailure, s)
  | some CIConfig =>
      match softChanIdx (CIConfig.CIHandle &&& 0xffff#32) with
      | none => (hiErrCipherInvalidHandle, s)
      | some softChnId =>
          if s.owns file softChnId = false then (hiErrCipherInvalidHandle, s)
          else
            ((drvCipherConfigChn softChnId CIConfig.CIpstCtrl () s.drv.st).1,
              { s with drv := drvStep s.drv (.configChn softChnId CIConfig.CIpstCtrl ()) })

/-- How far a command gets under the semaphore: to the final `up` with a
status and what was written to the user, or to the release in the middle of
an Encrypt or Decrypt, with the task to submit. -/
inductive IoctlBody where
  | leave (Ret : HiS32) (out : Option HiU32) (s : IntfState)
  | submit (softChnId : Chn) (pCITask : CipherTask) (s : IntfState)

/-- The common body of `HI_CIPHER_Encrypt` and `HI_CIPHER_Decrypt`. -/
def ioctlCrypt (bDecrypt : Bool) (file : File) (arg : Option CipherData)
    (s : IntfState) : IoctlBody :=
  match arg with
  | none => .leave hiFailure none s
  | some CIData =>
      match softChanIdx (CIData.CIHandle &&& 0xffff#32) with
      | none => .leave hiErrCipherInvalidHandle none s
      | some softChnId =>
          if s.owns file softChnId = false then .leave hiErrCipherInvalidHandle none s
          else
            .submit softChnId
              { stData2Process :=
                  { u32src := CIData.ScrPhyAddr, u32dest := CIData.DestPhyAddr,
                    u32length := CIData.ByteLength, bDecrypt := bDecrypt,
                    u32DataPkg := Vector.replicate 4 0 }
                u32CallBackArg := BitVec.ofNat 32 softChnId.val }
              (s.setOsr softChnId
                { s.g_stCipherOsrChn softChnId with g_bDataDone := false })

/-- An Encrypt or Decrypt leaves with an error and changes nothing, or clears
the done flag of a channel its file owns and goes on to submit. -/
theorem ioctlCrypt_cases (bDecrypt : Bool) (file : File) (arg : Option CipherData)
    (s : IntfState) :
    (∃ Ret, Ret ≠ hiSuccess ∧ ioctlCrypt bDecrypt file arg s = .leave Ret none s)
    ∨ ∃ c pCITask, s.owns file c = true
      ∧ pCITask.u32CallBackArg = BitVec.ofNat 32 c.val
      ∧ ioctlCrypt bDecrypt file arg s
        = .submit c pCITask (s.setOsr c { s.g_stCipherOsrChn c with g_bDataDone := false }) := by
  cases arg with
  | none => exact .inl ⟨hiFailure, by decide, rfl⟩
  | some CIData =>
      simp only [ioctlCrypt]
      cases softChanIdx (CIData.CIHandle &&& 0xffff#32) with
      | none => exact .inl ⟨hiErrCipherInvalidHandle, by decide, rfl⟩
      | some softChnId =>
          by_cases ho : s.owns file softChnId = false
          · simp only [if_pos ho]
            exact .inl ⟨hiErrCipherInvalidHandle, by decide, rfl⟩
          · simp only [if_neg ho]
            exact .inr ⟨softChnId, _, by simpa using ho, rfl, rfl⟩

/-- `DRV_CIPHER_Ioctl` between its first `down_interruptible` and the next
`up`. -/
def ioctlBody (file : File) (cmd : IoctlCmd) (s : IntfState) : IoctlBody :=
  match cmd with
  | .createHandle copyToUserFails =>
      let (Ret, out, s) := ioctlCreateHandle file copyToUserFails s
      .leave Ret out s
  | .destroyHandle arg =>
      let (Ret, s) := ioctlDestroyHandle file arg s
      .leave Ret none s
  | .configHandle arg =>
      let (Ret, s) := ioctlConfigHandle file arg s
      .leave Ret none s
  | .encrypt arg => ioctlCrypt false file arg s
  | .decrypt arg => ioctlCrypt true file arg s
  | .other => .leave hiFailure none s

/-- The `DRV_Cipher_CreatTask` of an Encrypt or Decrypt. -/
def ioctlCreatTask (softChnId : Chn) (pCITask : CipherTask) (s : IntfState) :
    HiS32 × IntfState :=
  ((drvCipherCreatTask softChnId pCITask none none true s.drv.st).1,
    { s with drv := drvStep s.drv (.creatTask softChnId pCITask none none true) })

/-- One turn of the loop of `DRV_CIPHER_Release`. -/
def releaseChn (file : File) (s : IntfState) (i : Chn) : IntfState :=
  if (s.g_stCipherOsrChn i).pWichFile = some file then
    { s.setOsr i { s.g_stCipherOsrChn i with g_bSoftChnOpen := false, pWichFile := none } with
      drv := drvStep s.drv (.closeChn i) }
  else s

/-- `DRV_CIPHER_Release`. -/
def drvCipherRelease (file : File) (s : IntfState) : IntfState :=
  (List.finRange ciChanNum).foldl (releaseChn file) s

/-! ## A whole ioctl, on its own -/

/-- What an Encrypt or Decrypt meets after its submit: the events until it
wakes up, whether it is then woken by the timer (else by a signal) in case
its data is not done, and whether the second `down_interruptible` is broken
by a signal. -/
structure WaitEnv where
  events : List IntfEvent
  timeout : Bool
  broken : Bool

/-- The rest of an Encrypt or Decrypt, from its submit on. -/
def ioctlFinish (softChnId : Chn) (pCITask : CipherTask) (env : WaitEnv) (s : IntfState) :
    HiS32 × IntfState :=
  let (Ret, s) := ioctlCreatTask softChnId pCITask s
  if Ret ≠ hiSuccess then (Ret, s)
  else
    let s := env.events.foldl intfEvent s
    if (s.g_stCipherOsrChn softChnId).g_bDataDone = false ∧ env.timeout then (hiFailure, s)
    else if env.broken then (erestartsys, s)
    else (hiSuccess, s)

/-- `DRV_CIPHER_Ioctl` run by one thread with no other thread in it. -/
def drvCipherIoctl (file : File) (cmd : IoctlCmd) (env : WaitEnv) (s : IntfState) :
    HiS32 × Option HiU32 × IntfState :=
  match ioctlBody file cmd s with
  | .leave Ret out s => (Ret, out, s)
  | .submit softChnId pCITask s =>
      let (Ret, s) := ioctlFinish softChnId pCITask env s
      (Ret, none, s)

end ExtDrv.Cipher
