import ExtDrv.Irda.Hiir
import ExtDrv.Lib.Run
import Mathlib.Tactic.SplitIfs

/-!
# The event ring over whole runs

The driver as a system: interrupts, the repeat timer and the calls of any
number of threads, in any order. Two records are kept beside the state: the
events queued since the ring was last emptied by an open or a `SET_BUF`, and
those a read has taken out since.

The producer has no full test. As long as it finds a free slot the ring is a
queue; the event that closes the last gap makes the whole ring look empty.
-/

namespace ExtDrv.Irda

open Run RingBuf

/-! ## The system -/

/-- The driver, the reads in progress by thread, and the two records. -/
structure Sys where
  st : Hiir
  readers : Nat → Option ReadCall
  queued : List IrkeyInfo
  returned : List IrkeyInfo

inductive Event where
  | irq (i : IrInt)
  | timeout
  | openDev
  | release
  | ioctl (cmd : IrIoc) (arg : BitVec 32) (user : Option (BitVec 32 × BitVec 32))
  | read (t : Nat) (nonblock : Bool) (count : Nat)
  | readTurn (t : Nat) (signal : Bool)

/-- A file of the device is open. -/
def Hiir.opened (s : Hiir) : Bool := s.hiir_s_available == 0

/-- The receiver raises interrupts. -/
def Hiir.enabled (s : Hiir) : Bool := s.regs.IR_ENABLE == 1

/-- The read of thread `t` takes a turn. -/
def Sys.readTurn (s : Sys) (t : Nat) (signal : Bool) (r : ReadCall) : Sys :=
  let (turn, copied, d) := hiirReadStep signal r s.st.hiir_dev
  let next := match turn with
    | .goOn r => some r
    | .returns _ => none
  { s with
    st := s.st.setDev d
    readers := Function.update s.readers t next
    returned := s.returned ++ copied.toList }

/-- One event. Only a receiver that is enabled interrupts, only a pending timer
expires, and only an open file is read, controlled or closed. -/
def step (s : Sys) : Event → Sys
  | .irq i =>
      if s.st.enabled then
        { s with
          st := hiirInterrupt i s.st
          queued := s.queued ++ (irqEvent i s.st.hiir_dev).toList }
      else s
  | .timeout => if s.st.timer then { s with st := repkeyTimeoutHandler s.st } else s
  | .openDev =>
      match hiirOpen s.st with
      | (0, st) => { s with st := st, queued := [], returned := [] }
      | (_, st) => { s with st := st }
  | .release => if s.st.opened then { s with st := hiirRelease s.st } else s
  | .ioctl cmd arg user =>
      if s.st.opened then
        let s := { s with st := (hiirIoctl cmd arg user s.st).2 }
        if resetsBuf cmd arg then { s with queued := [], returned := [] } else s
      else s
  | .read t nonblock count =>
      if s.st.opened && (s.readers t).isNone then
        { s with readers := Function.update s.readers t (some ⟨nonblock, count, .retry, []⟩) }
      else s
  | .readTurn t signal =>
      match s.readers t with
      | some r => if s.st.opened then s.readTurn t signal r else s
      | none => s

/-- `hiir_dev` as the module is loaded, all zeros, with the receiver disabled
by `hiir_init`. -/
def hiirInit : Hiir where
  hiir_dev :=
    { dev_parm := ⟨0, 0, 0, 0, 0, 0, 0, 0, 0, 0, 0, 0, 0⟩
      head := 0, tail := 0, buf := fun _ => ⟨0, 0, 0⟩, buf_len := 0
      enable_repkey := 0, repkey_checkflag := 0, repkey_delaytime := 0, enable_keyup := 0 }
  regs := ⟨0, 0, 0, 0, 0, 0, 0, 0, 0, 0, 0⟩
  timer := false
  hiir_s_available := 1

def Sys.boot : Sys := ⟨hiirInit, fun _ => none, [], []⟩

/-! ## The indices -/

/-- The ring as an open leaves it and every operation keeps it. -/
structure RingOk (d : HiirDev) : Prop where
  head_lt : d.head < d.buf_len
  tail_lt : d.tail < d.buf_len
  two_le : 2 ≤ d.buf_len
  len_le : d.buf_len ≤ HI_IR_MAX_BUF + 1

/-- The ring is in order from the first open on, which comes before any
interrupt. -/
def Ready (s : Hiir) : Prop := s.opened = true ∨ s.enabled = true → RingOk s.hiir_dev

theorem RingOk.of_ring {d e : HiirDev} (h : RingOk d) (he : e.ring = d.ring) : RingOk e := by
  simp only [HiirDev.ring, Prod.mk.injEq] at he
  obtain ⟨h1, h2, h3, -⟩ := he
  exact ⟨h1 ▸ h3 ▸ h.head_lt, h2 ▸ h3 ▸ h.tail_lt, h3 ▸ h.two_le, h3 ▸ h.len_le⟩

theorem RingOk.queue {d : HiirDev} (h : RingOk d) (ev : IrkeyInfo) : RingOk (d.queue ev) :=
  ⟨succ_mod_lt h.head_lt, h.tail_lt, h.two_le, h.len_le⟩

theorem RingOk.advance {d : HiirDev} (h : RingOk d) :
    RingOk { d with tail := (d.tail + 1) % d.buf_len } :=
  ⟨h.head_lt, succ_mod_lt h.tail_lt, h.two_le, h.len_le⟩

theorem hiirInterrupt_ringOk {s : Hiir} (h : RingOk s.hiir_dev) (i : IrInt) :
    RingOk (hiirInterrupt i s).hiir_dev := by
  have hr := hiirInterrupt_ring i s
  cases he : irqEvent i s.hiir_dev with
  | none => exact h.of_ring (by simpa only [he] using hr)
  | some ev => exact (h.queue ev).of_ring (by simpa only [he] using hr)

theorem hiirIoctl_ringOk {s : Hiir} (h : RingOk s.hiir_dev) (cmd : IrIoc) (arg : BitVec 32)
    (user : Option (BitVec 32 × BitVec 32)) : RingOk (hiirIoctl cmd arg user s).2.hiir_dev := by
  have hr := hiirIoctl_ring cmd arg user s
  by_cases hb : resetsBuf cmd arg
  · -- the new length is between 2 and `HI_IR_MAX_BUF + 1`
    rw [if_pos hb] at hr
    simp only [HiirDev.ring, Prod.mk.injEq] at hr
    obtain ⟨h1, h2, h3, -⟩ := hr
    simp only [resetsBuf, decide_eq_true_eq] at hb
    exact ⟨by omega, by omega, by omega, by omega⟩
  · rw [if_neg hb] at hr
    exact h.of_ring hr

theorem hiirReadStep_ringOk {d : HiirDev} (h : RingOk d) (signal : Bool) (r : ReadCall) :
    RingOk (hiirReadStep signal r d).2.2 := by
  unfold hiirReadStep
  split
  · split_ifs <;> exact h
  · split_ifs <;> exact h
  · split_ifs
    · exact h.advance
    · exact h

/-- Opening lays the ring out afresh. -/
theorem hiirOpen_ringOk {s st : Hiir} (h : hiirOpen s = (0, st)) : RingOk st.hiir_dev := by
  have hr := hiirOpen_ring h
  simp only [HiirDev.ring, Prod.mk.injEq, DEFAULT_BUF_LEN] at hr
  obtain ⟨h1, h2, h3, -⟩ := hr
  exact ⟨by omega, by omega, by omega, by rw [h3]; decide⟩

theorem hiirOpen_refused {s : Hiir} (h : (hiirOpen s).1 ≠ 0) : (hiirOpen s).2 = s := by
  unfold hiirOpen at h ⊢
  split at h
  · rename_i hb
    rw [if_pos hb]
  · exact absurd rfl h

/-- Only an open, an ioctl or a release changes whether the receiver is enabled
or the device open. -/
theorem hiirInterrupt_flags (i : IrInt) (s : Hiir) :
    (hiirInterrupt i s).opened = s.opened ∧ (hiirInterrupt i s).enabled = s.enabled := by
  unfold hiirInterrupt
  dsimp only
  split_ifs <;> exact ⟨rfl, rfl⟩

theorem step_ready {s : Sys} (h : Ready s.st) (e : Event) : Ready (step s e).st := by
  cases e with
  | irq i =>
    simp only [step]
    split
    · intro hon
      rw [(hiirInterrupt_flags i s.st).1, (hiirInterrupt_flags i s.st).2] at hon
      exact hiirInterrupt_ringOk (h hon) i
    · exact h
  | timeout =>
    simp only [step]
    split
    · exact fun hon => (h hon).of_ring rfl
    · exact h
  | openDev =>
    simp only [step]
    split
    · rename_i st hst
      exact fun _ => hiirOpen_ringOk hst
    · rename_i r st hne hst
      have hsame : st = s.st := by
        have := hiirOpen_refused (s := s.st) (by rw [hst]; exact hne)
        rwa [hst] at this
      exact hsame ▸ h
  | release =>
    simp only [step]
    split
    · rename_i hopen
      exact fun _ => (h (.inl hopen)).of_ring rfl
    · exact h
  | ioctl cmd arg user =>
    simp only [step]
    split
    · rename_i hopen
      have hok := hiirIoctl_ringOk (h (.inl hopen)) cmd arg user
      split <;> exact fun _ => hok
    · exact h
  | read t nonblock count =>
    simp only [step]
    split <;> exact h
  | readTurn t signal =>
    simp only [step]
    split
    · split
      · rename_i r _ hopen
        exact fun _ => hiirReadStep_ringOk (h (.inl hopen)) signal r
      · exact h
    · exact h

theorem boot_ready : Ready Sys.boot.st := by
  intro h
  simp [Sys.boot, hiirInit, Hiir.opened, Hiir.enabled] at h

/-! ## The unread events -/

/-- The events between the tail and the head. -/
def HiirDev.unread (d : HiirDev) : List IrkeyInfo := contents d.buf d.buf_len d.head d.tail

def Sys.unread (s : Sys) : List IrkeyInfo := s.st.hiir_dev.unread

theorem unread_of_ring {d e : HiirDev} (h : e.ring = d.ring) : e.unread = d.unread := by
  simp only [HiirDev.ring, Prod.mk.injEq] at h
  obtain ⟨h1, h2, h3, h4⟩ := h
  rw [HiirDev.unread, HiirDev.unread, h1, h2, h3, h4]

/-- With room for it, the event joins the unread ones. -/
theorem unread_queue {d : HiirDev} (h : RingOk d) (hroom : d.unread.length + 1 < d.buf_len)
    (ev : IrkeyInfo) : (d.queue ev).unread = d.unread ++ [ev] := by
  rw [HiirDev.unread, length_contents] at hroom
  exact contents_push h.head_lt h.tail_lt hroom ev

/-- Without it, no event is left to read. -/
theorem unread_overrun {d : HiirDev} (h : RingOk d) (hfull : ¬ d.unread.length + 1 < d.buf_len)
    (ev : IrkeyInfo) : (d.queue ev).unread = [] := by
  rw [HiirDev.unread, length_contents] at hfull
  have hlt : pending d.buf_len d.head d.tail < d.buf_len := pending_lt h.head_lt
  have hlast : pending d.buf_len d.head d.tail + 1 = d.buf_len := by omega
  apply List.eq_nil_of_length_eq_zero
  rw [HiirDev.unread, length_contents]
  exact pending_overrun h.head_lt h.tail_lt hlast

/-- A turn of a read takes the oldest unread event, or none. -/
theorem hiirReadStep_unread {d : HiirDev} (h : RingOk d) (signal : Bool) (r : ReadCall) :
    (hiirReadStep signal r d).2.1.toList ++ (hiirReadStep signal r d).2.2.unread = d.unread := by
  unfold hiirReadStep
  split
  · split_ifs <;> rfl
  · split_ifs <;> rfl
  · split_ifs with hcopy
    · exact (contents_pop h.head_lt h.tail_lt hcopy.1).symm
    · rfl

/-! ## No silent loss -/

/-- The events that may take unread events away. -/
def Event.mayDrain : Event → Bool
  | .openDev => true
  | .ioctl cmd arg _ => resetsBuf cmd arg
  | .readTurn _ _ => true
  | _ => false

/-- What was read and what is still to be read are, in order, what was queued. -/
def Sys.InOrder (s : Sys) : Prop := s.returned ++ s.unread = s.queued

/-- **No silent loss** in the event `e`. -/
structure NoSilentLoss (s : Sys) (e : Event) : Prop where
  in_order : (step s e).InOrder
  drained : (step s e).unread.length < s.unread.length → e.mayDrain = true

/-- An interrupt with an event to queue finds a slot to spare. -/
def RoomForEvent (s : Sys) : Event → Prop
  | .irq i =>
      s.st.enabled = true → irqEvent i s.st.hiir_dev ≠ none →
        s.unread.length + 1 < s.st.hiir_dev.buf_len
  | _ => True

instance RoomForEvent.decidable (s : Sys) : ∀ e, Decidable (RoomForEvent s e)
  | .irq i => inferInstanceAs (Decidable (s.st.enabled = true →
      irqEvent i s.st.hiir_dev ≠ none → s.unread.length + 1 < s.st.hiir_dev.buf_len))
  | .timeout | .openDev | .release | .ioctl _ _ _ | .read _ _ _ | .readTurn _ _ => .isTrue trivial

/-- An event that leaves the ring and both records alone loses nothing. -/
theorem noSilentLoss_of_same {s : Sys} {e : Event} (hin : s.InOrder)
    (hring : (step s e).st.hiir_dev.ring = s.st.hiir_dev.ring)
    (hq : (step s e).queued = s.queued) (hret : (step s e).returned = s.returned) :
    NoSilentLoss s e := by
  have hun : (step s e).unread = s.unread := unread_of_ring hring
  constructor
  · rw [Sys.InOrder, hret, hun, hq]
    exact hin
  · intro hlt
    rw [hun] at hlt
    exact absurd hlt (Nat.lt_irrefl _)

/-- An event that empties the ring and both records loses nothing, being one of
those that may. -/
theorem noSilentLoss_of_reset {s : Sys} {e : Event} {n : Nat} (hn : 0 < n)
    (hring : (step s e).st.hiir_dev.ring = (0, 0, n, s.st.hiir_dev.buf))
    (hq : (step s e).queued = []) (hret : (step s e).returned = [])
    (hmay : e.mayDrain = true) : NoSilentLoss s e := by
  refine ⟨?_, fun _ => hmay⟩
  simp only [HiirDev.ring, Prod.mk.injEq] at hring
  obtain ⟨h1, h2, h3, -⟩ := hring
  rw [Sys.InOrder, hret, hq, Sys.unread, HiirDev.unread, h1, h2, h3, contents_self hn]
  rfl

/-- An interrupt loses nothing exactly when it has room for its event. -/
theorem irq_noSilentLoss_iff {s : Sys} (hready : Ready s.st) (hin : s.InOrder) (i : IrInt) :
    NoSilentLoss s (.irq i) ↔ RoomForEvent s (.irq i) := by
  by_cases hon : s.st.enabled = true
  case neg =>
    have hstep : step s (.irq i) = s := by simp [step, hon]
    exact ⟨fun _ h => absurd h hon, fun _ => noSilentLoss_of_same hin (by rw [hstep])
      (by rw [hstep]) (by rw [hstep])⟩
  have hok : RingOk s.st.hiir_dev := hready (.inr hon)
  have hring := hiirInterrupt_ring i s.st
  have hstep : step s (.irq i)
      = { s with
          st := hiirInterrupt i s.st
          queued := s.queued ++ (irqEvent i s.st.hiir_dev).toList } := by simp [step, hon]
  cases hev : irqEvent i s.st.hiir_dev with
  | none =>
    have hsame : NoSilentLoss s (.irq i) :=
      noSilentLoss_of_same hin (by rw [hstep]; simpa only [hev] using hring)
        (by rw [hstep]; simp [hev]) (by rw [hstep])
    exact ⟨fun _ _ h => absurd hev h, fun _ => hsame⟩
  | some ev =>
    have hun : (step s (.irq i)).unread = (s.st.hiir_dev.queue ev).unread := by
      rw [hstep]
      exact unread_of_ring (by simpa only [hev] using hring)
    constructor
    · intro hno _ _
      -- were the ring full, its events would all be gone
      by_contra hfull
      have hlt : (step s (.irq i)).unread.length < s.unread.length := by
        rw [hun, unread_overrun hok hfull]
        have htwo := hok.two_le
        simp only [Sys.unread] at hfull ⊢
        rw [List.length_nil]
        omega
      exact absurd (hno.drained hlt) (by simp [Event.mayDrain])
    · intro hroom
      -- with room the event joins the others behind the tail
      have hpush : (step s (.irq i)).unread = s.unread ++ [ev] :=
        hun.trans (unread_queue hok (hroom hon (by simp [hev])) ev)
      constructor
      · have hret : (step s (.irq i)).returned = s.returned := by rw [hstep]
        have hq : (step s (.irq i)).queued = s.queued ++ [ev] := by rw [hstep]; simp [hev]
        rw [Sys.InOrder, hret, hpush, hq, ← List.append_assoc, hin]
      · intro hlt
        rw [hpush, List.length_append] at hlt
        omega

/-- An open empties the ring or is refused. -/
theorem openDev_noSilentLoss {s : Sys} (hin : s.InOrder) : NoSilentLoss s .openDev := by
  cases ho : hiirOpen s.st with
  | mk r st =>
    by_cases hr : r = 0
    · subst hr
      have hstep : step s .openDev = { s with st := st, queued := [], returned := [] } := by
        simp [step, ho]
      apply noSilentLoss_of_reset (n := DEFAULT_BUF_LEN) (by decide) _ _ _ rfl <;> rw [hstep]
      exact hiirOpen_ring ho
    · have hsame : st = s.st := by
        have := hiirOpen_refused (s := s.st) (by rw [ho]; exact hr)
        rwa [ho] at this
      have hstep : step s .openDev = { s with st := st } := by
        simp only [step, ho]
      apply noSilentLoss_of_same hin <;> simp [hstep, hsame]

/-- An ioctl empties the ring when it gives it a new length. -/
theorem ioctl_noSilentLoss {s : Sys} (hin : s.InOrder) (cmd : IrIoc) (arg : BitVec 32)
    (user : Option (BitVec 32 × BitVec 32)) : NoSilentLoss s (.ioctl cmd arg user) := by
  have hring := hiirIoctl_ring cmd arg user s.st
  by_cases hopen : s.st.opened = true
  case neg => apply noSilentLoss_of_same hin <;> simp [step, hopen]
  -- both records start afresh where the ring does
  cases hb : resetsBuf cmd arg with
  | true =>
    rw [hb, if_pos rfl] at hring
    have hmay : (Event.ioctl cmd arg user).mayDrain = true := hb
    refine noSilentLoss_of_reset (Nat.succ_pos arg.toNat) ?_ ?_ ?_ hmay
    · simpa [step, hopen, hb] using hring
    · simp [step, hopen, hb]
    · simp [step, hopen, hb]
  | false =>
    rw [hb, if_neg Bool.false_ne_true] at hring
    apply noSilentLoss_of_same hin
    · simpa [step, hopen, hb] using hring
    · simp [step, hopen, hb]
    · simp [step, hopen, hb]

/-- A turn of a read hands over what it takes from the ring. -/
theorem readTurn_noSilentLoss {s : Sys} (hready : Ready s.st) (hin : s.InOrder) (t : Nat)
    (signal : Bool) : NoSilentLoss s (.readTurn t signal) := by
  cases hr : s.readers t with
  | none => apply noSilentLoss_of_same hin <;> simp [step, hr]
  | some r =>
    by_cases hopen : s.st.opened = true
    case neg => apply noSilentLoss_of_same hin <;> simp [step, hr, hopen]
    have hstep : step s (.readTurn t signal) = s.readTurn t signal r := by simp [step, hr, hopen]
    refine ⟨?_, fun _ => rfl⟩
    have hun := hiirReadStep_unread (hready (.inl hopen)) signal r
    rw [hstep]
    change (s.returned ++ (hiirReadStep signal r s.st.hiir_dev).2.1.toList)
      ++ (hiirReadStep signal r s.st.hiir_dev).2.2.unread = s.queued
    rw [List.append_assoc, hun]
    exact hin

/-- **One event** loses nothing exactly when an interrupt among them has room. -/
theorem noSilentLoss_iff {s : Sys} (hready : Ready s.st) (hin : s.InOrder) (e : Event) :
    NoSilentLoss s e ↔ RoomForEvent s e := by
  cases e with
  | irq i => exact irq_noSilentLoss_iff hready hin i
  | timeout =>
    have h : NoSilentLoss s .timeout := by
      by_cases ht : s.st.timer = true
      · apply noSilentLoss_of_same hin <;> simp [step, ht, repkeyTimeoutHandler]
      · apply noSilentLoss_of_same hin <;> simp [step, ht]
    exact iff_of_true h trivial
  | openDev => exact iff_of_true (openDev_noSilentLoss hin) trivial
  | release =>
    have h : NoSilentLoss s .release := by
      by_cases ho : s.st.opened = true
      · apply noSilentLoss_of_same hin <;> simp [step, ho, hiirRelease]
      · apply noSilentLoss_of_same hin <;> simp [step, ho]
    exact iff_of_true h trivial
  | ioctl cmd arg user => exact iff_of_true (ioctl_noSilentLoss hin cmd arg user) trivial
  | read t nonblock count =>
    have h : NoSilentLoss s (.read t nonblock count) := by
      by_cases ho : (s.st.opened && (s.readers t).isNone) = true
      · apply noSilentLoss_of_same hin <;> simp only [step, if_pos ho]
      · apply noSilentLoss_of_same hin <;> simp only [step, if_neg ho]
    exact iff_of_true h trivial
  | readTurn t signal => exact iff_of_true (readTurn_noSilentLoss hready hin t signal) trivial

/-- **The IR ring**: over any run of interrupts, timer expiries and calls, no
event is lost silently if and only if every interrupt that has an event to
queue finds a slot to spare beside the one it fills. -/
theorem no_silent_loss_iff (es : List Event) :
    Along step NoSilentLoss Sys.boot es ↔ Along step RoomForEvent Sys.boot es := by
  apply along_iff_along (I := fun s => Ready s.st ∧ s.InOrder)
  · exact fun s e h => noSilentLoss_iff h.1 h.2 e
  · intro s e h hroom
    exact ⟨step_ready h.1 e, ((noSilentLoss_iff h.1 h.2 e).mpr hroom).in_order⟩
  · exact ⟨boot_ready, rfl⟩

/-- A key press with the given code. -/
def press (code : BitVec 32) : Event := .irq ⟨0x10000, 0, code⟩

/-- An open and eight presses of different keys, none of them read. -/
def eightPresses : List Event :=
  [.openDev, press 1, press 2, press 3, press 4, press 5, press 6, press 7, press 8]

/-- **The whole buffer at once**: seven events are waiting, the eighth press
leaves none, and the last event of the run is not one that may drain. -/
theorem eighth_press_loses_all :
    ¬ (∀ es, Along step NoSilentLoss Sys.boot es)
      ∧ (exec step Sys.boot (eightPresses.take 8)).unread.length = 7
      ∧ (exec step Sys.boot eightPresses).unread = []
      ∧ (exec step Sys.boot eightPresses).queued.length = 8
      ∧ (exec step Sys.boot eightPresses).returned = [] := by
  refine ⟨fun h => ?_, by decide, by decide, by decide, by decide⟩
  have hroom := (no_silent_loss_iff eightPresses).mp (h eightPresses)
  exact absurd hroom (by decide)

end ExtDrv.Irda
