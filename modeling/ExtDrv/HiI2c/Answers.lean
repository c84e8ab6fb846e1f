import ExtDrv.HiI2c.I2c

/-!
# The transfer routines over any answers

The two routines once more, over what they do to the controller (`Port`): the
controller with a memory on its bus is one such port. The other one answers
the reads of `I2C_SR_REG` and `I2C_RXR_REG` in any way at all, and keeps a
record of the waits. What each wait returns is lost in the routines: they
do the same, and give the same, for every two ports whose receive registers
agree (`Sim`).
-/

namespace ExtDrv.HiI2c

/-! ## The routines over a port -/

/-- What the routines do to the controller. -/
structure Port (σ : Type) where
  writeCtrl : BitVec 32 → σ → σ
  writeTxr : BitVec 32 → σ → σ
  writeIcr : BitVec 32 → σ → σ
  writeCom : BitVec 32 → σ → σ
  waitWriteEnd : σ → Int × σ
  waitRead : σ → Int × σ
  readRxr : σ → BitVec 32 × σ

/-- The parameters of a transfer. -/
structure Transfer where
  I2cDevAddr : BitVec 8
  I2cRegAddr : BitVec 32
  I2cRegAddrByteNum : ℕ
  Data : BitVec 32
  DataLen : ℕ
  deriving DecidableEq

section Routines

variable {σ : Type} (P : Port σ) (p : Transfer)

/-- A byte is sent with a command, and the wait after it passed over. -/
def Port.send (c v : BitVec 32) (s : σ) : σ :=
  (P.waitWriteEnd (P.writeCom c (P.writeTxr v s))).2

/-- The device address for a write, and the register address. -/
def Port.sendAddress (s : σ) : σ :=
  let s := P.writeIcr 0x03 s
  let s := P.writeCtrl 0x187 s
  let s := P.send (I2C_WRITE ||| I2C_START) (p.I2cDevAddr.setWidth 32 &&& WRITE_OPERATION) s
  (List.range p.I2cRegAddrByteNum).foldl
    (fun s i => P.send I2C_WRITE (p.I2cRegAddr >>> ((p.I2cRegAddrByteNum - i - 1) * 8)) s) s

/-- `I2C_DRV_Write`. -/
def Port.drvWrite (s : σ) : BitVec 32 × σ :=
  let s := P.sendAddress p s
  -- send data
  let s := (List.range p.DataLen).foldl
    (fun s i => P.writeIcr I2C_CLEAR_ALL
      (P.send I2C_WRITE (p.Data >>> ((p.DataLen - i - 1) * 8)) s)) s
  -- send stop flag
  let s := (P.waitWriteEnd (P.writeCom I2C_STOP s)).2
  (0, P.writeIcr 0x01 s)

/-- One turn of the read loop: at the last byte no ACK is returned. -/
def Port.readTurn (r : BitVec 32 × σ) (i : ℕ) : BitVec 32 × σ :=
  let s := P.writeCom (if i = p.DataLen - 1 then I2C_READ ||| ~~~I2C_SEND_ACK else I2C_READ) r.2
  let s := (P.waitRead s).2
  let dataTmp := P.readRxr s
  (r.1 ||| dataTmp.1 <<< ((p.DataLen - i - 1) * 8), (P.waitWriteEnd dataTmp.2).2)

/-- `I2C_DRV_Read`. -/
def Port.drvRead (s : σ) : BitVec 32 × σ :=
  let s := P.sendAddress p s
  let s := P.send (I2C_WRITE ||| I2C_START) (p.I2cDevAddr.setWidth 32 ||| READ_OPERATION) s
  -- read data
  let r := (List.range p.DataLen).foldl (P.readTurn p) (0, s)
  -- send stop flag
  (r.1, (P.waitWriteEnd (P.writeCom I2C_STOP r.2)).2)

end Routines

/-- The controller with a memory on its bus. -/
def memoryPort (D : ByteMemory.Device) (lat : Latency) : Port I2c where
  writeCtrl := HiI2c.writeCtrl
  writeTxr := HiI2c.writeTxr
  writeIcr := HiI2c.writeIcr
  writeCom := HiI2c.writeCom D lat
  waitWriteEnd := i2cDrvWaitWriteEnd
  waitRead := i2cDrvWaitRead
  readRxr h := (h.RXR, h)

theorem i2cDrvWrite_eq (D : ByteMemory.Device) (lat : Latency) (p : Transfer) (h : I2c) :
    i2cDrvWrite D lat p.I2cDevAddr p.I2cRegAddr p.I2cRegAddrByteNum p.Data p.DataLen h
      = (memoryPort D lat).drvWrite p h := rfl

theorem i2cDrvRead_eq (D : ByteMemory.Device) (lat : Latency) (p : Transfer) (h : I2c) :
    i2cDrvRead D lat p.I2cDevAddr p.I2cRegAddr p.I2cRegAddrByteNum p.DataLen h
      = (memoryPort D lat).drvRead p h := rfl

/-! ## Ports that agree -/

/-- `R` is kept by everything done to the two ports, and their receive
registers agree. Nothing is asked of what the waits return. -/
structure Sim {σ τ : Type} (P : Port σ) (Q : Port τ) (R : σ → τ → Prop) : Prop where
  writeCtrl {s : σ} {t : τ} (v : BitVec 32) : R s t → R (P.writeCtrl v s) (Q.writeCtrl v t)
  writeTxr {s : σ} {t : τ} (v : BitVec 32) : R s t → R (P.writeTxr v s) (Q.writeTxr v t)
  writeIcr {s : σ} {t : τ} (v : BitVec 32) : R s t → R (P.writeIcr v s) (Q.writeIcr v t)
  writeCom {s : σ} {t : τ} (v : BitVec 32) : R s t → R (P.writeCom v s) (Q.writeCom v t)
  waitWriteEnd {s : σ} {t : τ} : R s t → R (P.waitWriteEnd s).2 (Q.waitWriteEnd t).2
  waitRead {s : σ} {t : τ} : R s t → R (P.waitRead s).2 (Q.waitRead t).2
  readRxr {s : σ} {t : τ} : R s t →
    (P.readRxr s).1 = (Q.readRxr t).1 ∧ R (P.readRxr s).2 (Q.readRxr t).2

section Sim

variable {σ τ : Type} {P : Port σ} {Q : Port τ} {R : σ → τ → Prop} {s : σ} {t : τ}

theorem Sim.send (h : Sim P Q R) (c v : BitVec 32) (hst : R s t) :
    R (P.send c v s) (Q.send c v t) :=
  h.waitWriteEnd (h.writeCom c (h.writeTxr v hst))

theorem Sim.sendAddress (h : Sim P Q R) (p : Transfer) (hst : R s t) :
    R (P.sendAddress p s) (Q.sendAddress p t) := by
  apply List.foldl_rel
  · exact h.send _ _ (h.writeCtrl _ (h.writeIcr _ hst))
  · intro i _ s t hst
    exact h.send _ _ hst

theorem Sim.readTurn (h : Sim P Q R) (p : Transfer) (i : ℕ) {r : BitVec 32 × σ}
    {q : BitVec 32 × τ} (hrq : r.1 = q.1 ∧ R r.2 q.2) :
    (P.readTurn p r i).1 = (Q.readTurn p q i).1 ∧ R (P.readTurn p r i).2 (Q.readTurn p q i).2 := by
  obtain ⟨hdata, hst⟩ := hrq
  obtain ⟨hrxr, hst'⟩ := h.readRxr (h.waitRead (h.writeCom
    (if i = p.DataLen - 1 then I2C_READ ||| ~~~I2C_SEND_ACK else I2C_READ) hst))
  refine ⟨?_, h.waitWriteEnd hst'⟩
  simp only [Port.readTurn]
  rw [hdata, hrxr]

/-- **The data read depend on the receive registers alone.** -/
theorem Sim.drvRead (h : Sim P Q R) (p : Transfer) (hst : R s t) :
    (P.drvRead p s).1 = (Q.drvRead p t).1 ∧ R (P.drvRead p s).2 (Q.drvRead p t).2 := by
  have hread := h.send (I2C_WRITE ||| I2C_START)
    (p.I2cDevAddr.setWidth 32 ||| READ_OPERATION) (h.sendAddress p hst)
  have hloop := List.foldl_rel (l := List.range p.DataLen)
    (r := fun (r : BitVec 32 × σ) (q : BitVec 32 × τ) => r.1 = q.1 ∧ R r.2 q.2)
    (f := P.readTurn p) (g := Q.readTurn p) (a := (0, _)) (b := (0, _)) ⟨rfl, hread⟩
    (fun i _ _ _ hrq => h.readTurn p i hrq)
  exact ⟨hloop.1, h.waitWriteEnd (h.writeCom I2C_STOP hloop.2)⟩

end Sim

/-! ## Any answers -/

def I2C_RECEIVE_INTR : BitVec 32 := 1 <<< 3

/-- Up when the byte sent was not acknowledged. -/
def I2C_ACK_INTR : BitVec 32 := 1 <<< 2

def I2C_OVER_INTR : BitVec 32 := 1 <<< 0

/-- What the reads of `I2C_SR_REG` and of `I2C_RXR_REG` give, one after another. -/
structure Answers where
  sr : ℕ → BitVec 32
  rxr : ℕ → BitVec 32

/-- A wait: the command waited for, the status read last, and whether the wait
was given up. -/
structure Wait where
  command : BitVec 32
  status : BitVec 32
  timedOut : Bool
  deriving DecidableEq

/-- The wait timed out, or a byte was sent and not acknowledged. -/
def Wait.Failed (w : Wait) : Prop :=
  w.timedOut = true ∨ (w.command &&& I2C_WRITE ≠ 0 ∧ w.status &&& I2C_ACK_INTR ≠ 0)

instance (w : Wait) : Decidable w.Failed := inferInstanceAs (Decidable (_ ∨ _))

/-- How many answers have been taken, the last command, and the waits. -/
structure Heard where
  srReads : ℕ
  rxReads : ℕ
  command : BitVec 32
  waits : List Wait

/-- The polling loop from the `k`-th read on: what it returns, the status read
last and the number of reads. -/
def pollStatus (sr : ℕ → BitVec 32) (flag : BitVec 32) : ℕ → ℕ → Int × BitVec 32 × ℕ
  | 0, k => (-1, sr k, k + 1)
  | left + 1, k =>
      if sr k &&& flag = flag then (0, sr k, k + 1) else pollStatus sr flag left (k + 1)

/-- A wait for `flag`, put on record. -/
def waitFor (A : Answers) (flag : BitVec 32) (s : Heard) : Int × Heard :=
  let r := pollStatus A.sr flag (I2C_WAIT_TIME_OUT + 1) s.srReads
  (r.1, { s with
    srReads := r.2.2
    waits := s.waits ++ [⟨s.command, r.2.1, decide (r.1 ≠ 0)⟩] })

/-- The controller that answers so. -/
def answeringPort (A : Answers) : Port Heard where
  writeCtrl _ s := s
  writeTxr _ s := s
  writeIcr _ s := s
  writeCom c s := { s with command := c }
  waitWriteEnd := waitFor A I2C_OVER_INTR
  waitRead := waitFor A I2C_RECEIVE_INTR
  readRxr s := (A.rxr s.rxReads, { s with rxReads := s.rxReads + 1 })

/-- Nothing has been heard yet. -/
def silence : Heard := ⟨0, 0, 0, []⟩

def writeResult (A : Answers) (p : Transfer) : BitVec 32 × Heard :=
  (answeringPort A).drvWrite p silence

def readResult (A : Answers) (p : Transfer) : BitVec 32 × Heard :=
  (answeringPort A).drvRead p silence

/-- Some wait of the write failed. -/
def WriteFailed (A : Answers) (p : Transfer) : Prop := ∃ w ∈ (writeResult A p).2.waits, w.Failed

/-- Some wait of the read failed. -/
def ReadFailed (A : Answers) (p : Transfer) : Prop := ∃ w ∈ (readResult A p).2.waits, w.Failed

instance (A : Answers) (p : Transfer) : Decidable (WriteFailed A p) :=
  inferInstanceAs (Decidable (∃ w ∈ _, _))

/-- A write that failed returns a failure. -/
def WriteReports (A : Answers) (p : Transfer) : Prop :=
  WriteFailed A p → (writeResult A p).1 ≠ 0

/-- A read that failed returns nothing that a read without an error returns: a
caller has only that value to go by. -/
def ReadReports (A : Answers) (p : Transfer) : Prop :=
  ReadFailed A p →
    ∀ A' : Answers, ¬ ReadFailed A' p → (readResult A p).1 ≠ (readResult A' p).1

/-! ## Answers without an error -/

/-- Every flag waited for is up at once, every byte is acknowledged, and the
bytes received are `rxr`. -/
def smooth (rxr : ℕ → BitVec 32) : Answers := ⟨fun _ => I2C_OVER_INTR ||| I2C_RECEIVE_INTR, rxr⟩

theorem waitFor_smooth {rxr : ℕ → BitVec 32} {flag : BitVec 32}
    (hflag : (I2C_OVER_INTR ||| I2C_RECEIVE_INTR) &&& flag = flag) (s : Heard) :
    waitFor (smooth rxr) flag s = (0, { s with
      srReads := s.srReads + 1
      waits := s.waits ++ [⟨s.command, I2C_OVER_INTR ||| I2C_RECEIVE_INTR, false⟩] }) := by
  have hpoll : pollStatus (smooth rxr).sr flag (I2C_WAIT_TIME_OUT + 1) s.srReads
      = (0, I2C_OVER_INTR ||| I2C_RECEIVE_INTR, s.srReads + 1) := if_pos hflag
  rw [waitFor, hpoll]
  rfl

/-- The same bytes received, and no failure on the one side. -/
def SameBytes (s t : Heard) : Prop := s.rxReads = t.rxReads ∧ ∀ w ∈ t.waits, ¬ w.Failed

theorem SameBytes.waitFor {A : Answers} {rxr : ℕ → BitVec 32} {flag : BitVec 32}
    (hflag : (I2C_OVER_INTR ||| I2C_RECEIVE_INTR) &&& flag = flag) {s t : Heard}
    (h : SameBytes s t) :
    SameBytes (waitFor A flag s).2 (HiI2c.waitFor (smooth rxr) flag t).2 := by
  rw [waitFor_smooth hflag]
  refine ⟨h.1, fun w hw => ?_⟩
  rcases List.mem_append.mp hw with hold | hnew
  · exact h.2 w hold
  · rw [List.mem_singleton] at hnew
    subst hnew
    rintro (htime | ⟨-, hack⟩)
    · exact absurd htime Bool.false_ne_true
    · have hacked : (I2C_OVER_INTR ||| I2C_RECEIVE_INTR) &&& I2C_ACK_INTR = 0 := by decide
      exact hack hacked

/-- Whatever the status, the routines go on as if there were no error. -/
theorem sim_smooth (A : Answers) :
    Sim (answeringPort A) (answeringPort (smooth A.rxr)) SameBytes where
  writeCtrl _ h := h
  writeTxr _ h := h
  writeIcr _ h := h
  writeCom _ h := h
  waitWriteEnd h := h.waitFor (by decide)
  waitRead h := h.waitFor (by decide)
  readRxr h := ⟨congrArg A.rxr h.1, congrArg (· + 1) h.1, h.2⟩

/-! ## What is reported -/

/-- **No error is reported**: a write meets the claim of its return value
exactly when no wait of it failed, and so does a read. -/
theorem reports_iff (A : Answers) (p : Transfer) :
    (WriteReports A p ↔ ¬ WriteFailed A p) ∧ (ReadReports A p ↔ ¬ ReadFailed A p) := by
  constructor
  · constructor
    · intro h hfail
      exact h hfail rfl
    · intro hok hfail
      exact absurd hfail hok
  · constructor
    · intro h hfail
      have hsame : SameBytes silence silence := ⟨rfl, fun w hw => by cases hw⟩
      obtain ⟨hdata, -, hgood⟩ := (sim_smooth A).drvRead p hsame
      -- the same bytes without an error give the same value
      have hok : ¬ ReadFailed (smooth A.rxr) p := fun ⟨w, hw, hwfail⟩ => hgood w hw hwfail
      exact h hfail (smooth A.rxr) hok hdata
    · intro hok hfail
      exact absurd hfail hok

/-- A device that acknowledges nothing. -/
def absent : Answers :=
  ⟨fun _ => I2C_OVER_INTR ||| I2C_RECEIVE_INTR ||| I2C_ACK_INTR, fun _ => 0xff⟩

/-- A write of one byte to a device that is not there returns success. -/
theorem reports_broken : ¬ ∀ (A : Answers) (p : Transfer), WriteReports A p ∧ ReadReports A p := by
  intro h
  exact (h absent ⟨0x40, 0, 1, 0x55, 1⟩).1 (by decide) rfl

end ExtDrv.HiI2c
