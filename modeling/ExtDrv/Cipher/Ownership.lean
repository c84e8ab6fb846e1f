import ExtDrv.Cipher.Intf
import Mathlib.Tactic.FinCases

/-!
# Who owns a soft channel

`CreateHandle` marks a soft channel open and enters the file that gets the
handle; `DestroyHandle` and the release of the file take both back. Only
these touch the open flag and the owner.
-/

namespace ExtDrv.Cipher

open Run

/-! ## What leaves the owners alone -/

/-- Open flags and owners are the same in both tables. -/
def SameOwners (o o' : Chn → CipherOsrChn) : Prop :=
  ∀ c, (o' c).g_bSoftChnOpen = (o c).g_bSoftChnOpen ∧ (o' c).pWichFile = (o c).pWichFile

namespace SameOwners

variable {o o' o'' : Chn → CipherOsrChn}

theorem refl (o : Chn → CipherOsrChn) : SameOwners o o := fun _ => ⟨rfl, rfl⟩

theorem trans (h : SameOwners o o') (h' : SameOwners o' o'') : SameOwners o o'' :=
  fun c => ⟨(h' c).1.trans (h c).1, (h' c).2.trans (h c).2⟩

/-- Writing the done flag of a channel. -/
theorem setDone (o : Chn → CipherOsrChn) (c : Chn) (b : Bool) :
    SameOwners o (Function.update o c { o c with g_bDataDone := b }) := by
  intro d
  by_cases hd : d = c
  · subst hd
    simp
  · simp [Function.update_of_ne hd]

end SameOwners

theorem userCommCallBack_owners (arg : HiU32) (o : Chn → CipherOsrChn) :
    SameOwners o (drvCipherUserCommCallBack arg o) := by
  unfold drvCipherUserCommCallBack
  cases softChanIdx arg with
  | none => exact .refl o
  | some i => exact .setDone o i true

theorem runCallBacks_owners (calls : List (Unit × HiU32)) (o : Chn → CipherOsrChn) :
    SameOwners o (runCallBacks calls o) := by
  induction calls generalizing o with
  | nil => exact .refl o
  | cons call calls ih => exact (userCommCallBack_owners call.2 o).trans (ih _)

theorem intfDataDone_owners (c : Chn) (s : IntfState) :
    SameOwners s.g_stCipherOsrChn (intfDataDone c s).g_stCipherOsrChn :=
  runCallBacks_owners _ _

theorem intfEvent_owners (s : IntfState) (e : IntfEvent) :
    SameOwners s.g_stCipherOsrChn (intfEvent s e).g_stCipherOsrChn := by
  cases e with
  | engine c => exact .refl _
  | isr INTValue =>
      have hfold : ∀ (cs : List Chn) (s : IntfState), SameOwners s.g_stCipherOsrChn
          (cs.foldl (fun s c => intfDataDone c s) s).g_stCipherOsrChn := by
        intro cs
        induction cs with
        | nil => exact fun s => .refl _
        | cons c cs ih => exact fun s => (intfDataDone_owners c s).trans (ih _)
      exact (runCallBacks_owners _ _).trans (hfold _ _)

theorem foldl_intfEvent_owners (es : List IntfEvent) (s : IntfState) :
    SameOwners s.g_stCipherOsrChn (es.foldl intfEvent s).g_stCipherOsrChn := by
  induction es generalizing s with
  | nil => exact .refl _
  | cons e es ih => exact (intfEvent_owners s e).trans (ih _)

theorem ioctlFinish_owners (softChnId : Chn) (pCITask : CipherTask) (env : WaitEnv)
    (s : IntfState) : SameOwners s.g_stCipherOsrChn
      (ioctlFinish softChnId pCITask env s).2.g_stCipherOsrChn := by
  have h : SameOwners s.g_stCipherOsrChn
      (env.events.foldl intfEvent (ioctlCreatTask softChnId pCITask s).2).g_stCipherOsrChn :=
    foldl_intfEvent_owners env.events (ioctlCreatTask softChnId pCITask s).2
  unfold ioctlFinish
  by_cases hret : (ioctlCreatTask softChnId pCITask s).1 ≠ hiSuccess
  · simp only [if_pos hret]
    exact .refl _
  · simp only [if_neg hret]
    split
    · exact h
    · split <;> exact h

/-! ## What each command does to the owners -/

theorem owns_eq_true {s : IntfState} {file : File} {c : Chn} :
    s.owns file c = true ↔ (s.g_stCipherOsrChn c).g_bSoftChnOpen = true
      ∧ (s.g_stCipherOsrChn c).pWichFile = some file := by
  simp [IntfState.owns]

/-- `CreateHandle`, the copy to the user succeeding: no channel is free and
nothing happens, or a free one is opened, entered and handed out. -/
theorem createHandle_spec (file : File) (s : IntfState) :
    ((∀ c ∈ multiPkgChns, (s.g_stCipherOsrChn c).g_bSoftChnOpen = true)
      ∧ ioctlCreateHandle file false s = (hiErrCipherFailedGethandle, none, s))
    ∨ ∃ c ∈ multiPkgChns, (s.g_stCipherOsrChn c).g_bSoftChnOpen = false
      ∧ ∃ s', ioctlCreateHandle file false s = (hiSuccess, some (cipherHandle c), s')
        ∧ s'.g_stCipherOsrChn = Function.update s.g_stCipherOsrChn c
          { s.g_stCipherOsrChn c with g_bSoftChnOpen := true, pWichFile := some file } := by
  unfold ioctlCreateHandle
  cases hfind : multiPkgChns.find? fun i => !(s.g_stCipherOsrChn i).g_bSoftChnOpen with
  | none =>
      left
      refine ⟨?_, rfl⟩
      intro c hc
      simpa using List.find?_eq_none.mp hfind c hc
  | some c =>
      right
      have hopen := List.find?_some hfind
      refine ⟨c, List.mem_of_find?_eq_some hfind, by simpa using hopen, _, rfl, ?_⟩
      simp [IntfState.setOsr]

/-- A channel released by the owner's file is closed, the others are left. -/
theorem release_osr (file : File) (s : IntfState) (c : Chn) :
    (drvCipherRelease file s).g_stCipherOsrChn c
      = if (s.g_stCipherOsrChn c).pWichFile = some file then
          { s.g_stCipherOsrChn c with g_bSoftChnOpen := false, pWichFile := none }
        else s.g_stCipherOsrChn c := by
  have hfold : ∀ (cs : List Chn) (s : IntfState),
      (cs.foldl (releaseChn file) s).g_stCipherOsrChn c
      = if c ∈ cs ∧ (s.g_stCipherOsrChn c).pWichFile = some file then
          { s.g_stCipherOsrChn c with g_bSoftChnOpen := false, pWichFile := none }
        else s.g_stCipherOsrChn c := by
    intro cs
    induction cs with
    | nil => simp
    | cons i cs ih =>
        intro s
        rw [List.foldl_cons, ih]
        by_cases hown : (s.g_stCipherOsrChn i).pWichFile = some file
        · by_cases hci : c = i
          · subst hci
            simp [releaseChn, hown, IntfState.setOsr]
          · simp [releaseChn, hown, IntfState.setOsr, hci]
        · by_cases hci : c = i
          · subst hci
            simp [releaseChn, hown]
          · simp [releaseChn, hown, hci]
  rw [drvCipherRelease, hfold]
  simp

theorem configHandle_owners (file : File) (arg : Option CipherConfigCtrl) (s : IntfState) :
    SameOwners s.g_stCipherOsrChn (ioctlConfigHandle file arg s).2.g_stCipherOsrChn := by
  cases arg with
  | none => exact .refl _
  | some CIConfig =>
      simp only [ioctlConfigHandle]
      cases softChanIdx (CIConfig.CIHandle &&& 0xffff#32) with
      | none => exact .refl _
      | some softChnId =>
          by_cases ho : s.owns file softChnId = false
          · simp only [if_pos ho]
            exact .refl _
          · simp only [if_neg ho]
            exact .refl _

/-- `DestroyHandle` closes at most one channel, one its file owns. -/
theorem destroyHandle_osr (file : File) (arg : HiU32) (s : IntfState) (c : Chn) :
    (ioctlDestroyHandle file arg s).2.g_stCipherOsrChn c = s.g_stCipherOsrChn c
      ∨ ((ioctlDestroyHandle file arg s).2.g_stCipherOsrChn c).g_bSoftChnOpen = false := by
  unfold ioctlDestroyHandle
  cases softChanIdx (arg &&& 0x00ff#32) with
  | none => exact .inl rfl
  | some i =>
      by_cases ho : s.owns file i = false
      · left
        simp only [if_pos ho]
      · simp only [if_neg ho]
        by_cases hci : c = i
        · right
          simp [IntfState.setOsr, hci]
        · left
          simp [IntfState.setOsr, Function.update_of_ne hci]

/-! ## Runs over open files -/

/-- The ioctl layer with the files that are open, and for each soft channel
the file its handle was last written to. -/
structure FileRun where
  intf : IntfState
  opened : File → Bool
  returned : Chn → Option File

/-- The calls on the device, and what happens below it. -/
inductive FileOp where
  | openFile (file : File)
  | release (file : File)
  | ioctl (file : File) (cmd : IoctlCmd) (env : WaitEnv)
  | event (e : IntfEvent)

/-- The file a handle written to the user is entered for. -/
def handOut (out : Option HiU32) (file : File) (returned : Chn → Option File) :
    Chn → Option File :=
  match out.bind fun h => softChanIdx (h &&& 0xffff#32) with
  | some c => Function.update returned c (some file)
  | none => returned

/-- A file that is not open makes no call. -/
def fileStep (r : FileRun) : FileOp → FileRun
  | .openFile file => { r with opened := Function.update r.opened file true }
  | .release file =>
      if r.opened file then
        { r with
          intf := drvCipherRelease file r.intf
          opened := Function.update r.opened file false }
      else r
  | .ioctl file cmd env =>
      if r.opened file then
        let (_, out, s) := drvCipherIoctl file cmd env r.intf
        { r with intf := s, returned := handOut out file r.returned }
      else r
  | .event e => { r with intf := intfEvent r.intf e }

def fileStart (ctrl : Chn → HiU32) (key : Chn → Vector HiU32 8) : FileRun :=
  { intf := drvCipherModInit ctrl key, opened := fun _ => false, returned := fun _ => none }

/-- The operation is no `CreateHandle` whose copy to the user fails. -/
def CopySucceeds : FileOp → Prop
  | .ioctl _ (.createHandle copyToUserFails) _ => copyToUserFails = false
  | _ => True

/-- Every channel marked open is owned by a file that is open and that its
handle was written to. -/
def Owned (r : FileRun) : Prop :=
  ∀ c, (r.intf.g_stCipherOsrChn c).g_bSoftChnOpen = true →
    ∃ file, (r.intf.g_stCipherOsrChn c).pWichFile = some file
      ∧ r.opened file = true ∧ r.returned c = some file

theorem softChanIdx_cipherHandle (c : Chn) :
    softChanIdx (cipherHandle c &&& 0xffff#32) = some c := by
  fin_cases c <;> decide

/-- What leaves the owners alone keeps the channels owned. -/
theorem Owned.of_same {r r' : FileRun} (h : Owned r)
    (hsame : SameOwners r.intf.g_stCipherOsrChn r'.intf.g_stCipherOsrChn)
    (hopened : r'.opened = r.opened) (hret : r'.returned = r.returned) : Owned r' := by
  intro c hc
  rw [(hsame c).1] at hc
  rw [(hsame c).2, hopened, hret]
  exact h c hc

/-- Encrypt and Decrypt, whatever they meet, leave the owners alone. -/
theorem Owned.ioctlCrypt {r : FileRun} (h : Owned r) {file : File} (bDecrypt : Bool)
    (arg : Option CipherData) (env : WaitEnv) :
    Owned (
      let (_, out, s) :=
        match Cipher.ioctlCrypt bDecrypt file arg r.intf with
        | .leave Ret out s => (Ret, out, s)
        | .submit softChnId pCITask s =>
            let (Ret, s) := ioctlFinish softChnId pCITask env s
            (Ret, none, s)
      { r with intf := s, returned := handOut out file r.returned }) := by
  rcases ioctlCrypt_cases bDecrypt file arg r.intf with
    ⟨Ret, -, heq⟩ | ⟨c, pCITask, -, -, heq⟩
  · rw [heq]
    exact h
  · rw [heq]
    exact h.of_same ((SameOwners.setDone _ _ _).trans (ioctlFinish_owners _ _ env _)) rfl rfl

theorem Owned.ioctl {r : FileRun} (h : Owned r) {file : File} (hopen : r.opened file = true)
    (cmd : IoctlCmd) (env : WaitEnv) (hcopy : CopySucceeds (.ioctl file cmd env)) :
    Owned (fileStep r (.ioctl file cmd env)) := by
  simp only [fileStep, hopen, if_true]
  cases cmd with
  | createHandle copyToUserFails =>
      have hf : copyToUserFails = false := hcopy
      subst hf
      -- no channel is free, or the first free one is entered for the file
      rcases createHandle_spec file r.intf with ⟨-, heq⟩ | ⟨c, -, -, s', heq, hosr⟩
      · simp only [drvCipherIoctl, ioctlBody, heq, handOut]
        exact h
      · simp only [drvCipherIoctl, ioctlBody, heq, handOut, Option.bind_some,
          softChanIdx_cipherHandle]
        intro d hd
        rw [hosr] at hd ⊢
        by_cases hdc : d = c
        · subst hdc
          exact ⟨file, by simp, hopen, by simp⟩
        · simp only [Function.update_of_ne hdc] at hd ⊢
          exact h d hd
  | destroyHandle arg =>
      simp only [drvCipherIoctl, ioctlBody, handOut]
      intro d hd
      rcases destroyHandle_osr file arg r.intf d with heq | hclosed
      · rw [heq] at hd ⊢
        exact h d hd
      · rw [hclosed] at hd
        cases hd
  | configHandle arg => exact h.of_same (configHandle_owners file arg r.intf) rfl rfl
  | encrypt arg => exact h.ioctlCrypt false arg env
  | decrypt arg => exact h.ioctlCrypt true arg env
  | other => exact h

/-- **One step** keeps every open channel owned. -/
theorem Owned.step {r : FileRun} (h : Owned r) (op : FileOp) (hcopy : CopySucceeds op) :
    Owned (fileStep r op) := by
  cases op with
  | openFile file =>
      intro c hc
      obtain ⟨f, hw, hopen, hret⟩ := h c hc
      refine ⟨f, hw, ?_, hret⟩
      by_cases hf : f = file
      · simp [fileStep, hf]
      · simpa [fileStep, Function.update_of_ne hf] using hopen
  | release file =>
      by_cases hopen : r.opened file = true
      · simp only [fileStep, hopen, if_true]
        intro c hc
        rw [release_osr] at hc ⊢
        by_cases hw : (r.intf.g_stCipherOsrChn c).pWichFile = some file
        · simp [hw] at hc
        · rw [if_neg hw] at hc ⊢
          obtain ⟨f, hf, hfo, hret⟩ := h c hc
          -- a channel that is still open belongs to another file
          have hne : f ≠ file := by
            intro heq
            exact hw (heq ▸ hf)
          exact ⟨f, hf, by simpa [Function.update_of_ne hne] using hfo, hret⟩
      · simp only [fileStep, hopen]
        exact h
  | ioctl file cmd env =>
      by_cases hopen : r.opened file = true
      · exact h.ioctl hopen cmd env hcopy
      · simp only [fileStep, hopen]
        exact h
  | event e => exact h.of_same (intfEvent_owners r.intf e) rfl rfl

/-! ## Allocation -/

/-- The handles `n` calls of `CreateHandle` in a row write to the user. -/
def allocate (file : File) : Nat → IntfState → List (Option HiU32)
  | 0, _ => []
  | n + 1, s =>
      let (_, out, s) := ioctlCreateHandle file false s
      out :: allocate file n s

/-- With the channels before them taken and these free, `CreateHandle` hands
out these one after the other. -/
theorem allocate_of_split (file : File) (free : List Chn) :
    ∀ (taken : List Chn) (s : IntfState), multiPkgChns = taken ++ free →
      (∀ c ∈ taken, (s.g_stCipherOsrChn c).g_bSoftChnOpen = true) →
      (∀ c ∈ free, (s.g_stCipherOsrChn c).g_bSoftChnOpen = false) →
      allocate file free.length s = free.map fun c => some (cipherHandle c) := by
  induction free with
  | nil => intro _ _ _ _ _; rfl
  | cons c free ih =>
      intro taken s hsplit htaken hfree
      have hnodup : (taken ++ c :: free).Nodup := hsplit ▸ (by decide)
      have hc := hfree c List.mem_cons_self
      have hfind : (multiPkgChns.find? fun i => !(s.g_stCipherOsrChn i).g_bSoftChnOpen)
          = some c := by
        rw [hsplit, List.find?_append]
        have hnone : (taken.find? fun i => !(s.g_stCipherOsrChn i).g_bSoftChnOpen) = none := by
          rw [List.find?_eq_none]
          intro i hi
          simp [htaken i hi]
        rw [hnone]
        simp [hc]
      rcases createHandle_spec file s with ⟨hall, -⟩ | ⟨d, -, -, s', heq, hosr⟩
      · have := hall c (by rw [hsplit]; simp)
        rw [hc] at this
        cases this
      -- the channel taken is the first of the free ones
      · have hd : d = c := by
          have hout : (ioctlCreateHandle file false s).2.1 = some (cipherHandle c) := by
            simp only [ioctlCreateHandle, hfind]
            rfl
          rw [heq] at hout
          have hh : cipherHandle d = cipherHandle c := Option.some.inj hout
          have := softChanIdx_cipherHandle d
          rw [hh, softChanIdx_cipherHandle c] at this
          exact (Option.some.inj this).symm
        subst hd
        simp only [List.length_cons, allocate, heq, List.map_cons]
        congr 1
        refine ih (taken ++ [d]) s' (by rw [hsplit]; simp) ?_ ?_
        · intro i hi
          rw [hosr]
          by_cases hid : i = d
          · simp [hid]
          · rw [Function.update_of_ne hid]
            refine htaken i ?_
            simpa [hid] using hi
        · intro i hi
          rw [hosr]
          have hid : i ≠ d := by
            rintro rfl
            have := (List.nodup_append.mp hnodup).2.1
            exact (List.nodup_cons.mp this).1 hi
          rw [Function.update_of_ne hid]
          exact hfree i (List.mem_cons_of_mem _ hi)

/-! ## The ownership laws -/

/-- The channel a handle names, if it names one, is not the file's. -/
def NotOwner (s : IntfState) (file : File) (handle : HiU32) : Prop :=
  ∀ c, softChanIdx handle = some c → s.owns file c = false

/-- What holds of handles and files in a state. -/
structure HandleLaws (r : FileRun) : Prop where
  owned : Owned r
  configByOther : ∀ file arg env, NotOwner r.intf file (arg.CIHandle &&& 0xffff#32) →
    drvCipherIoctl file (.configHandle (some arg)) env r.intf
      = (hiErrCipherInvalidHandle, none, r.intf)
  encryptByOther : ∀ file arg env, NotOwner r.intf file (arg.CIHandle &&& 0xffff#32) →
    drvCipherIoctl file (.encrypt (some arg)) env r.intf
      = (hiErrCipherInvalidHandle, none, r.intf)
  decryptByOther : ∀ file arg env, NotOwner r.intf file (arg.CIHandle &&& 0xffff#32) →
    drvCipherIoctl file (.decrypt (some arg)) env r.intf
      = (hiErrCipherInvalidHandle, none, r.intf)
  destroyByOther : ∀ file arg env, NotOwner r.intf file (arg &&& 0x00ff#32) →
    drvCipherIoctl file (.destroyHandle arg) env r.intf
      = (if (softChanIdx (arg &&& 0x00ff#32)).isSome then hiSuccess
          else hiErrCipherInvalidHandle, none, r.intf)
  createFails : ∀ file env,
    (drvCipherIoctl file (.createHandle false) env r.intf).1 ≠ hiSuccess →
      (drvCipherIoctl file (.createHandle false) env r.intf).2.2 = r.intf
  allReleased : (∀ file, r.opened file = false) →
    (∀ c, (r.intf.g_stCipherOsrChn c).g_bSoftChnOpen = false)
      ∧ ∀ file, allocate file 7 r.intf = multiPkgChns.map fun c => some (cipherHandle c)

theorem ioctlCrypt_of_notOwner {s : IntfState} {file : File} {arg : CipherData}
    (bDecrypt : Bool) (h : NotOwner s file (arg.CIHandle &&& 0xffff#32)) :
    ioctlCrypt bDecrypt file (some arg) s = .leave hiErrCipherInvalidHandle none s := by
  unfold NotOwner at h
  simp only [ioctlCrypt]
  cases hi : softChanIdx (arg.CIHandle &&& 0xffff#32) with
  | none => rfl
  | some c => simp only [if_pos (h c hi)]

theorem Owned.laws {r : FileRun} (h : Owned r) : HandleLaws r where
  owned := h
  configByOther := by
    intro file arg env hno
    unfold NotOwner at hno
    simp only [drvCipherIoctl, ioctlBody, ioctlConfigHandle]
    cases hi : softChanIdx (arg.CIHandle &&& 0xffff#32) with
    | none => rfl
    | some c => simp only [if_pos (hno c hi)]
  encryptByOther := by
    intro file arg env hno
    simp only [drvCipherIoctl, ioctlBody, ioctlCrypt_of_notOwner false hno]
  decryptByOther := by
    intro file arg env hno
    simp only [drvCipherIoctl, ioctlBody, ioctlCrypt_of_notOwner true hno]
  destroyByOther := by
    intro file arg env hno
    unfold NotOwner at hno
    simp only [drvCipherIoctl, ioctlBody, ioctlDestroyHandle]
    cases hi : softChanIdx (arg &&& 0x00ff#32) with
    | none => rfl
    | some c => simp only [if_pos (hno c hi)]; rfl
  createFails := by
    intro file env
    -- the only failure left is that all channels are taken
    rcases createHandle_spec file r.intf with ⟨-, heq⟩ | ⟨c, -, -, s', heq, -⟩
    · intro _
      simp only [drvCipherIoctl, ioctlBody, heq]
    · intro hne
      simp only [drvCipherIoctl, ioctlBody, heq] at hne
      exact absurd rfl hne
  allReleased := by
    intro hall
    have hfree : ∀ c, (r.intf.g_stCipherOsrChn c).g_bSoftChnOpen = false := by
      intro c
      by_contra hc
      obtain ⟨file, -, hopen, -⟩ := h c (by simpa using hc)
      rw [hall file] at hopen
      cases hopen
    refine ⟨hfree, ?_⟩
    intro file
    exact allocate_of_split file multiPkgChns [] r.intf rfl
      (fun c hc => absurd hc List.not_mem_nil) fun c _ => hfree c

/-- **Handle ownership**: in every run in which no `CreateHandle` fails to copy
its handle out, each open channel belongs to one open file that was handed
its handle, a file gets nowhere with a handle it does not own, a failing
`CreateHandle` changes nothing, and the release of all files frees all
channels. -/
theorem handle_laws_of_copies_succeed (ctrl : Chn → HiU32) (key : Chn → Vector HiU32 8)
    (ops : List FileOp) (h : ∀ op ∈ ops, CopySucceeds op) :
    HandleLaws (exec fileStep (fileStart ctrl key) ops) := by
  have h0 : Owned (fileStart ctrl key) := fun c hc => by cases hc
  suffices Owned (exec fileStep (fileStart ctrl key) ops) from this.laws
  generalize fileStart ctrl key = r at h0
  induction ops generalizing r with
  | nil => exact h0
  | cons op ops ih =>
      exact ih (fun o ho => h o (List.mem_cons_of_mem _ ho)) _
        (h0.step op (h op List.mem_cons_self))

/-- An environment in which nothing happens and the wait times out. -/
def quietEnv : WaitEnv := ⟨[], true, false⟩

def zeroFileStart : FileRun := fileStart (fun _ => 0) fun _ => Vector.replicate 8 0

/-- Two files create a handle each, one of them is released. -/
theorem handle_laws_two_files :
    HandleLaws (exec fileStep zeroFileStart
      [.openFile 1, .openFile 2, .ioctl 1 (.createHandle false) quietEnv,
        .ioctl 2 (.createHandle false) quietEnv, .release 1]) := by
  refine handle_laws_of_copies_succeed _ _ _ ?_
  intro op hop
  fin_cases hop <;> trivial

/-- A file that does not own a handle destroys it with success, and a
`CreateHandle` whose copy to the user fails returns an error with the channel
left open. -/
theorem destroy_by_other_succeeds_and_failed_create_leaks :
    (exec fileStep zeroFileStart
        [.openFile 1, .openFile 2, .ioctl 1 (.createHandle false) quietEnv]).intf.owns 2 1
      = false
    ∧ (drvCipherIoctl 2 (.destroyHandle (cipherHandle 1)) quietEnv
        (exec fileStep zeroFileStart
          [.openFile 1, .openFile 2, .ioctl 1 (.createHandle false) quietEnv]).intf).1
      = hiSuccess
    ∧ (drvCipherIoctl 1 (.createHandle true) quietEnv
        (exec fileStep zeroFileStart [.openFile 1]).intf).1 = hiFailure
    ∧ ((drvCipherIoctl 1 (.createHandle true) quietEnv
        (exec fileStep zeroFileStart [.openFile 1]).intf).2.2.g_stCipherOsrChn 1).g_bSoftChnOpen
      = true := by
  decide

end ExtDrv.Cipher
