import ExtDrv.Cipher.Intf

/-!
# Threads in the cipher ioctl

`n` threads run `DRV_CIPHER_Ioctl` concurrently, any number of calls each.
A step is what a thread does between two points where it may lose the
processor to the others: an attempt to take the semaphore, the commands'
work up to the next `up`, a submit, a wake-up, the final `up`. Any
`down_interruptible` may be broken by a signal. The first one's result is
not looked at; a thread whose `down` was broken goes on without the
semaphore.
-/

namespace ExtDrv.Cipher

open Run

/-- Where a thread is. `held` tells whether its last `down` took the
semaphore; `node` is the index, among the nodes of `softChnId`, of the one
the call put in the ring, and `own` the channel and that index. -/
inductive Pc where
  | out
  | atDown
  | body (held : Bool)
  | submitting (softChnId : Chn) (pCITask : CipherTask)
  | waiting (softChnId : Chn) (node : Nat)
  | atDown2 (softChnId : Chn) (node : Nat)
  | atUp (held : Bool) (Ret : HiS32) (own : Option (Chn × Nat))
  | returned (Ret : HiS32) (own : Option (Chn × Nat))
  deriving DecidableEq

/-- A thread, with the file and the command of its call. -/
structure Thread where
  file : File
  cmd : IoctlCmd
  pc : Pc

/-- The semaphore's count, the ioctl layer, the threads. -/
structure Sys (n : Nat) where
  sem : Nat
  intf : IntfState
  thr : Fin n → Thread

/-- Why `wait_event_interruptible_timeout` returns. -/
inductive Wake where
  | done
  | timeout
  | signal

/-- What a thread, the hardware, or the close of a file does next. -/
inductive Act (n : Nat) where
  | call (t : Fin n) (file : File) (cmd : IoctlCmd)
  | down (t : Fin n) (broken : Bool)
  | body (t : Fin n)
  | submit (t : Fin n)
  | wake (t : Fin n) (why : Wake)
  | down2 (t : Fin n) (broken : Bool)
  | up (t : Fin n)
  | event (e : IntfEvent)
  | release (file : File)

variable {n : Nat}

def Sys.setPc (s : Sys n) (t : Fin n) (pc : Pc) : Sys n :=
  { s with thr := Function.update s.thr t { s.thr t with pc := pc } }

/-- One step; `none` when it is not enabled. -/
def sysStep (s : Sys n) : Act n → Option (Sys n)
  | .call t file cmd =>
      match (s.thr t).pc with
      | .out | .returned _ _ =>
          some { s with thr := Function.update s.thr t ⟨file, cmd, .atDown⟩ }
      | _ => none
  | .down t broken =>
      match (s.thr t).pc with
      | .atDown =>
          if broken then some (s.setPc t (.body false))
          else if s.sem = 0 then none
          else some { s.setPc t (.body true) with sem := s.sem - 1 }
      | _ => none
  | .body t =>
      match (s.thr t).pc with
      | .body held =>
          match ioctlBody (s.thr t).file (s.thr t).cmd s.intf with
          | .leave Ret _ intf =>
              some { s.setPc t (.atUp held Ret none) with intf := intf }
          | .submit softChnId pCITask intf =>
              -- the `up` before `DRV_Cipher_CreatTask`
              some { s.setPc t (.submitting softChnId pCITask) with
                intf := intf, sem := s.sem + 1 }
      | _ => none
  | .submit t =>
      match (s.thr t).pc with
      | .submitting softChnId pCITask =>
          let (Ret, intf) := ioctlCreatTask softChnId pCITask s.intf
          let pc := if Ret ≠ hiSuccess then .returned Ret none
            else .waiting softChnId (s.intf.drv.hist softChnId).nodes.length
          some { s.setPc t pc with intf := intf }
      | _ => none
  | .wake t why =>
      match (s.thr t).pc with
      | .waiting softChnId node =>
          match (s.intf.g_stCipherOsrChn softChnId).g_bDataDone, why with
          | true, .done => some (s.setPc t (.atDown2 softChnId node))
          | false, .timeout => some (s.setPc t (.returned hiFailure (some (softChnId, node))))
          -- the wait returns -ERESTARTSYS, which is not 0
          | false, .signal => some (s.setPc t (.atDown2 softChnId node))
          | _, _ => none
      | _ => none
  | .down2 t broken =>
      match (s.thr t).pc with
      | .atDown2 softChnId node =>
          if broken then some (s.setPc t (.returned erestartsys (some (softChnId, node))))
          else if s.sem = 0 then none
          else
            some { s.setPc t (.atUp true hiSuccess (some (softChnId, node))) with
              sem := s.sem - 1 }
      | _ => none
  | .up t =>
      match (s.thr t).pc with
      | .atUp _ Ret own => some { s.setPc t (.returned Ret own) with sem := s.sem + 1 }
      | _ => none
  | .event e => some { s with intf := intfEvent s.intf e }
  | .release file => some { s with intf := drvCipherRelease file s.intf }

/-- No thread in the ioctl, the semaphore free. -/
def sysStart (n : Nat) (ctrl : Chn → HiU32) (key : Chn → Vector HiU32 8) : Sys n :=
  { sem := 1, intf := drvCipherModInit ctrl key, thr := fun _ => ⟨0, .other, .out⟩ }

/-! ## What a step does -/

/-- **The steps that are enabled**, each with the place its thread is at and
the state it leads to. -/
inductive Moves (s : Sys n) : Act n → Sys n → Prop
  | call {t : Fin n} {file : File} {cmd : IoctlCmd}
      (hpc : (s.thr t).pc = .out ∨ ∃ Ret own, (s.thr t).pc = .returned Ret own) :
      Moves s (.call t file cmd)
        { s with thr := Function.update s.thr t ⟨file, cmd, .atDown⟩ }
  | downBroken {t : Fin n} (hpc : (s.thr t).pc = .atDown) :
      Moves s (.down t true) (s.setPc t (.body false))
  | downTaken {t : Fin n} (hpc : (s.thr t).pc = .atDown) (h0 : s.sem ≠ 0) :
      Moves s (.down t false) { s.setPc t (.body true) with sem := s.sem - 1 }
  | leave {t : Fin n} {held : Bool} {Ret : HiS32} {out : Option HiU32} {i : IntfState}
      (hpc : (s.thr t).pc = .body held)
      (hbody : ioctlBody (s.thr t).file (s.thr t).cmd s.intf = .leave Ret out i) :
      Moves s (.body t) { s.setPc t (.atUp held Ret none) with intf := i }
  | toSubmit {t : Fin n} {held : Bool} {c : Chn} {pCITask : CipherTask} {i : IntfState}
      (hpc : (s.thr t).pc = .body held)
      (hbody : ioctlBody (s.thr t).file (s.thr t).cmd s.intf = .submit c pCITask i) :
      Moves s (.body t) { s.setPc t (.submitting c pCITask) with intf := i, sem := s.sem + 1 }
  | submitted {t : Fin n} {c : Chn} {pCITask : CipherTask}
      (hpc : (s.thr t).pc = .submitting c pCITask)
      (hret : (ioctlCreatTask c pCITask s.intf).1 = hiSuccess) :
      Moves s (.submit t) { s.setPc t (.waiting c (s.intf.drv.hist c).nodes.length) with
        intf := (ioctlCreatTask c pCITask s.intf).2 }
  | refused {t : Fin n} {c : Chn} {pCITask : CipherTask}
      (hpc : (s.thr t).pc = .submitting c pCITask)
      (hret : (ioctlCreatTask c pCITask s.intf).1 ≠ hiSuccess) :
      Moves s (.submit t)
        { s.setPc t (.returned (ioctlCreatTask c pCITask s.intf).1 none) with
          intf := (ioctlCreatTask c pCITask s.intf).2 }
  | woken {t : Fin n} {c : Chn} {k : Nat} (hpc : (s.thr t).pc = .waiting c k)
      (hdone : (s.intf.g_stCipherOsrChn c).g_bDataDone = true) :
      Moves s (.wake t .done) (s.setPc t (.atDown2 c k))
  | timedOut {t : Fin n} {c : Chn} {k : Nat} (hpc : (s.thr t).pc = .waiting c k)
      (hdone : (s.intf.g_stCipherOsrChn c).g_bDataDone = false) :
      Moves s (.wake t .timeout) (s.setPc t (.returned hiFailure (some (c, k))))
  | signalled {t : Fin n} {c : Chn} {k : Nat} (hpc : (s.thr t).pc = .waiting c k)
      (hdone : (s.intf.g_stCipherOsrChn c).g_bDataDone = false) :
      Moves s (.wake t .signal) (s.setPc t (.atDown2 c k))
  | down2Broken {t : Fin n} {c : Chn} {k : Nat} (hpc : (s.thr t).pc = .atDown2 c k) :
      Moves s (.down2 t true) (s.setPc t (.returned erestartsys (some (c, k))))
  | down2Taken {t : Fin n} {c : Chn} {k : Nat} (hpc : (s.thr t).pc = .atDown2 c k)
      (h0 : s.sem ≠ 0) :
      Moves s (.down2 t false)
        { s.setPc t (.atUp true hiSuccess (some (c, k))) with sem := s.sem - 1 }
  | up {t : Fin n} {held : Bool} {Ret : HiS32} {own : Option (Chn × Nat)}
      (hpc : (s.thr t).pc = .atUp held Ret own) :
      Moves s (.up t) { s.setPc t (.returned Ret own) with sem := s.sem + 1 }
  | event (e : IntfEvent) : Moves s (.event e) { s with intf := intfEvent s.intf e }
  | release (file : File) :
      Moves s (.release file) { s with intf := drvCipherRelease file s.intf }

/-- A step that is taken is one of these. -/
theorem moves_of_sysStep {s s' : Sys n} {a : Act n} (h : sysStep s a = some s') :
    Moves s a s' := by
  cases a with
  | call t file cmd =>
      simp only [sysStep] at h
      split at h <;> cases h
      case h_1 hpc => exact .call (.inl hpc)
      case h_2 Ret own hpc => exact .call (.inr ⟨Ret, own, hpc⟩)
  | down t broken =>
      simp only [sysStep] at h
      split at h
      case h_2 => cases h
      rename_i hpc
      cases broken with
      | true =>
          cases h
          exact .downBroken hpc
      | false =>
          by_cases h0 : s.sem = 0
          · simp [h0] at h
          · rw [if_neg (by decide), if_neg h0] at h
            cases h
            exact .downTaken hpc h0
  | body t =>
      simp only [sysStep] at h
      split at h
      case h_2 => cases h
      rename_i hpc
      split at h <;> cases h
      case h_1 hbody => exact .leave hpc hbody
      case h_2 hbody => exact .toSubmit hpc hbody
  | submit t =>
      simp only [sysStep] at h
      split at h
      case h_2 => cases h
      rename_i c pCITask hpc
      cases h
      by_cases hret : (ioctlCreatTask c pCITask s.intf).1 = hiSuccess
      · rw [if_neg (not_not_intro hret)]
        exact .submitted hpc hret
      · rw [if_pos hret]
        exact .refused hpc hret
  | wake t why =>
      simp only [sysStep] at h
      split at h
      case h_2 => cases h
      rename_i hpc
      split at h <;> cases h
      case h_1 hdone => exact .woken hpc hdone
      case h_2 hdone => exact .timedOut hpc hdone
      case h_3 hdone => exact .signalled hpc hdone
  | down2 t broken =>
      simp only [sysStep] at h
      split at h
      case h_2 => cases h
      rename_i hpc
      cases broken with
      | true =>
          cases h
          exact .down2Broken hpc
      | false =>
          by_cases h0 : s.sem = 0
          · simp [h0] at h
          · rw [if_neg (by decide), if_neg h0] at h
            cases h
            exact .down2Taken hpc h0
  | up t =>
      simp only [sysStep] at h
      split at h
      case h_2 => cases h
      rename_i hpc
      cases h
      exact .up hpc
  | event e =>
      cases h
      exact .event e
  | release file =>
      cases h
      exact .release file

/-! ## Mutual exclusion -/

/-- Between a `down` and the next `up`. -/
def Pc.inSection : Pc → Bool
  | .body _ | .atUp _ _ _ => true
  | _ => false

/-- With the semaphore. -/
def Pc.holds : Pc → Bool
  | .body held | .atUp held _ _ => held
  | _ => false

/-- In the part of an Encrypt or Decrypt that runs without the semaphore. -/
def Pc.inWindow : Pc → Bool
  | .submitting _ _ | .waiting _ _ | .atDown2 _ _ => true
  | _ => false

/-- About to submit on the channel. -/
def Pc.submittingOn (c : Chn) : Pc → Bool
  | .submitting d _ => decide (d = c)
  | _ => false

/-- Between the `down` at the start and the `up` at the end of the ioctl. -/
def Pc.inside (pc : Pc) : Bool := pc.inSection || pc.inWindow

/-- The semaphore's count is 0 or 1, whoever is about to release it holds it,
at most one thread is in a section, and of two threads inside the ioctl one
has released the semaphore for its wait. -/
structure Exclusive (s : Sys n) : Prop where
  sem_le : s.sem ≤ 1
  holds : ∀ t, (s.thr t).pc.inSection = true → (s.thr t).pc.holds = true
  unique : ∀ t u, (s.thr t).pc.inSection = true → (s.thr u).pc.inSection = true → t = u
  inside : ∀ t u, t ≠ u → (s.thr t).pc.inside = true → (s.thr u).pc.inside = true →
    (s.thr t).pc.inWindow = true ∨ (s.thr u).pc.inWindow = true

/-- The `down` at the start of an ioctl is not broken by a signal. -/
def StartDownTakes : Act n → Prop
  | .down _ broken => broken = false
  | _ => True

instance StartDownTakes.decidable : ∀ a : Act n, Decidable (StartDownTakes a)
  | .down _ broken => inferInstanceAs (Decidable (broken = false))
  | .call _ _ _ | .body _ | .submit _ | .wake _ _ | .down2 _ _ | .up _ | .event _
  | .release _ => .isTrue trivial

/-- The count, and that a free semaphore means nobody is in a section. -/
structure SemInv (s : Sys n) : Prop where
  sem_le : s.sem ≤ 1
  holds : ∀ t, (s.thr t).pc.inSection = true → (s.thr t).pc.holds = true
  free : s.sem = 1 → ∀ t, (s.thr t).pc.inSection = false
  unique : ∀ t u, (s.thr t).pc.inSection = true → (s.thr u).pc.inSection = true → t = u

theorem SemInv.exclusive {s : Sys n} (h : SemInv s) : Exclusive s := by
  refine ⟨h.sem_le, h.holds, h.unique, ?_⟩
  intro t u htu ht hu
  simp only [Pc.inside, Bool.or_eq_true] at ht hu
  rcases ht with ht | ht
  · rcases hu with hu | hu
    · exact absurd (h.unique t u ht hu) htu
    · exact .inr hu
  · exact .inl ht

namespace SemInv

variable {s s' : Sys n} {t : Fin n}

theorem setPc_self (s : Sys n) (t : Fin n) (pc : Pc) : ((s.setPc t pc).thr t).pc = pc := by
  simp [Sys.setPc]

theorem setPc_ne (s : Sys n) {t u : Fin n} (pc : Pc) (h : u ≠ t) :
    (s.setPc t pc).thr u = s.thr u := by
  simp [Sys.setPc, Function.update_of_ne h]

/-- The threads other than `t` are as they were. -/
def OthersSame (t : Fin n) (s s' : Sys n) : Prop := ∀ u, u ≠ t → s'.thr u = s.thr u

/-- A thread outside every section stays outside: the count is untouched. -/
theorem outside (h : SemInv s) (hs : s'.sem = s.sem) (hother : OthersSame t s s')
    (hout : (s'.thr t).pc.inSection = false) : SemInv s' := by
  have hsec : ∀ u, (s'.thr u).pc.inSection = true →
      u ≠ t ∧ (s.thr u).pc.inSection = true := by
    intro u hu
    have hut : u ≠ t := by
      rintro rfl
      rw [hout] at hu
      cases hu
    exact ⟨hut, by rwa [hother u hut] at hu⟩
  refine ⟨hs ▸ h.sem_le, ?_, ?_, ?_⟩
  · intro u hu
    obtain ⟨hut, hu'⟩ := hsec u hu
    rw [hother u hut]
    exact h.holds u hu'
  · intro h1 u
    by_cases hut : u = t
    · rw [hut, hout]
    · rw [hother u hut]
      exact h.free (hs ▸ h1) u
  · intro u w hu hw
    exact h.unique u w (hsec u hu).2 (hsec w hw).2

/-- A thread takes the free semaphore and enters a section. -/
theorem enter (h : SemInv s) (hpos : s.sem ≠ 0) (hs : s'.sem = s.sem - 1)
    (hother : OthersSame t s s') (hholds : (s'.thr t).pc.holds = true) : SemInv s' := by
  have h1 : s.sem = 1 := by
    have := h.sem_le
    omega
  have honly : ∀ u, (s'.thr u).pc.inSection = true → u = t := by
    intro u hu
    by_contra hut
    rw [hother u hut, h.free h1 u] at hu
    cases hu
  refine ⟨by omega, ?_, fun h1' => by omega, ?_⟩
  · intro u hu
    rw [honly u hu]
    exact hholds
  · intro u w hu hw
    rw [honly u hu, honly w hw]

/-- A thread in a section gives the semaphore back and leaves the section. -/
theorem leave (h : SemInv s) (hin : (s.thr t).pc.inSection = true) (hs : s'.sem = s.sem + 1)
    (hother : OthersSame t s s') (hout : (s'.thr t).pc.inSection = false) : SemInv s' := by
  have h0 : s.sem = 0 := by
    have := h.sem_le
    rcases Nat.eq_zero_or_pos s.sem with h0 | hpos
    · exact h0
    · have hfree := h.free (by omega) t
      rw [hfree] at hin
      cases hin
  have hnone : ∀ u, (s'.thr u).pc.inSection = false := by
    intro u
    by_cases hut : u = t
    · rw [hut, hout]
    · rw [hother u hut]
      by_contra hu
      exact hut (h.unique u t (by simpa using hu) hin)
  refine ⟨by omega, ?_, fun _ => hnone, ?_⟩
  · intro u hu
    rw [hnone u] at hu
    cases hu
  · intro u w hu
    rw [hnone u] at hu
    cases hu

/-- A thread in a section that holds the semaphore stays in one and keeps
it. -/
theorem stay (h : SemInv s) (hin : (s.thr t).pc.inSection = true) (hs : s'.sem = s.sem)
    (hother : OthersSame t s s') (hholds : (s'.thr t).pc.holds = true) : SemInv s' := by
  have hsec : ∀ u, (s'.thr u).pc.inSection = true → (s.thr u).pc.inSection = true := by
    intro u hu
    by_cases hut : u = t
    · rw [hut]
      exact hin
    · rwa [hother u hut] at hu
  refine ⟨hs ▸ h.sem_le, ?_, ?_, ?_⟩
  · intro u hu
    by_cases hut : u = t
    · rw [hut]
      exact hholds
    · rw [hother u hut] at hu ⊢
      exact h.holds u hu
  · intro h1
    have hfree := h.free (hs ▸ h1) t
    rw [hfree] at hin
    cases hin
  · intro u w hu hw
    exact h.unique u w (hsec u hu) (hsec w hw)

/-- **One step**: unless a start `down` is broken, the exclusion is kept. -/
theorem step (h : SemInv s) (a : Act n) (ha : StartDownTakes a)
    (hstep : sysStep s a = some s') : SemInv s' := by
  cases moves_of_sysStep hstep with
  | @call t =>
      refine h.outside (t := t) rfl (fun u hu => ?_) (by simp [Pc.inSection])
      exact Function.update_of_ne hu _ _
  | downBroken => cases (show true = false from ha)
  | @downTaken t hpc h0 =>
      exact h.enter (t := t) h0 rfl (fun u hu => setPc_ne s _ hu) (by simp [setPc_self, Pc.holds])
  | @leave t held Ret out i hpc =>
      have hin : (s.thr t).pc.inSection = true := by rw [hpc]; rfl
      have hheld : held = true := by
        have := h.holds t hin
        rwa [hpc] at this
      refine h.stay (t := t) hin rfl (fun u hu => setPc_ne s _ hu) ?_
      simp [setPc_self, Pc.holds, hheld]
  | @toSubmit t held c pCITask i hpc =>
      have hin : (s.thr t).pc.inSection = true := by rw [hpc]; rfl
      exact h.leave (t := t) hin rfl (fun u hu => setPc_ne s _ hu)
        (by simp [setPc_self, Pc.inSection])
  | @submitted t | @refused t | @woken t | @timedOut t | @signalled t | @down2Broken t =>
      exact h.outside (t := t) rfl (fun u hu => setPc_ne s _ hu)
        (by simp [setPc_self, Pc.inSection])
  | @down2Taken t c k hpc h0 =>
      exact h.enter (t := t) h0 rfl (fun u hu => setPc_ne s _ hu) (by simp [setPc_self, Pc.holds])
  | @up t held Ret own hpc =>
      have hin : (s.thr t).pc.inSection = true := by rw [hpc]; rfl
      exact h.leave (t := t) hin rfl (fun u hu => setPc_ne s _ hu)
        (by simp [setPc_self, Pc.inSection])
  | event | release => exact ⟨h.sem_le, h.holds, h.free, h.unique⟩

end SemInv

theorem sysStart_semInv (n : Nat) (ctrl : Chn → HiU32) (key : Chn → Vector HiU32 8) :
    SemInv (sysStart n ctrl key) :=
  ⟨Nat.le_refl 1, fun _ h => Bool.noConfusion h, fun _ _ => rfl,
    fun _ _ h => Bool.noConfusion h⟩

/-- **Mutual exclusion**: in every interleaving in which no start `down` is
broken by a signal, the semaphore's count stays at 0 or 1, only threads that
took the semaphore release it, and between a `down` and the next `up` there
is at most one thread. -/
theorem exclusive_of_start_downs_take (n : Nat) (ctrl : Chn → HiU32)
    (key : Chn → Vector HiU32 8) (acts : List (Act n)) (s : Sys n)
    (hacts : ∀ a ∈ acts, StartDownTakes a)
    (hrun : gexec sysStep (sysStart n ctrl key) acts = some s) : Exclusive s := by
  have hinv : SemInv s :=
    gexec_inv (fun _ a _ h ha hstep => h.step a ha hstep) (sysStart_semInv n ctrl key)
      (GAlong.of_forall hacts) hrun
  exact hinv.exclusive

/-- Two threads, nothing in the registers. -/
def zeroSys : Sys 2 := sysStart 2 (fun _ => 0) fun _ => Vector.replicate 8 0

/-- A thread creates a handle while another waits for the semaphore. -/
theorem exclusive_two_threads :
    ∃ s, gexec sysStep zeroSys
        [.call 0 1 (.createHandle false), .call 1 2 .other, .down 0 false, .body 0]
        = some s ∧ Exclusive s := by
  have hsome : (gexec sysStep zeroSys
      [.call 0 1 (.createHandle false), .call 1 2 .other, .down 0 false,
        .body 0]).isSome = true := by decide
  obtain ⟨s, hs⟩ := Option.isSome_iff_exists.mp hsome
  exact ⟨s, hs, exclusive_of_start_downs_take _ _ _ _ s (by decide) hs⟩

/-- A broken start `down` leaves the count at 2 once the thread is through; and
without any signal two threads are inside the ioctl while one waits for its
data. -/
theorem broken_down_raises_count_and_window_overlaps :
    (gexec sysStep zeroSys [.call 0 1 .other, .down 0 true, .body 0, .up 0]).map Sys.sem
      = some 2
    ∧ (gexec sysStep zeroSys
        [.call 0 1 (.createHandle false), .down 0 false, .body 0, .up 0,
          .call 0 1 (.encrypt (some ⟨0, 0, 0, cipherHandle 1⟩)), .down 0 false, .body 0,
          .submit 0, .call 1 2 .other, .down 1 false]).map
        (fun s => ((s.thr 0).pc.inside, (s.thr 1).pc.inside)) = some (true, true) := by
  decide

end ExtDrv.Cipher
