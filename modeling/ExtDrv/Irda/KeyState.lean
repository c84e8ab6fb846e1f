import ExtDrv.Irda.Ring

/-!
# Key presses and releases

The handler decides what to queue by looking at `BUF_LAST`, the slot before
the head. Once an event has been queued that slot holds the last one; before
that it holds whatever an earlier use of the ring left there, and a release or
a press that meets it is judged by an event of another time.
-/

namespace ExtDrv.Irda

open Run RingBuf

/-! ## The law of the stream -/

/-- Two events of one key code. -/
def SameKey (x y : IrkeyInfo) : Prop :=
  x.irkey_datah = y.irkey_datah ∧ x.irkey_datal = y.irkey_datal

/-- In `q` the key of `e` is down: its press is there, with no release of it
after. -/
def KeyIsDown (q : List IrkeyInfo) (e : IrkeyInfo) : Prop :=
  ∃ a d b, q = a ++ d :: b ∧ d.irkey_state_code = HIIR_KEY_DOWN ∧ SameKey d e
    ∧ ∀ x ∈ b, x.irkey_state_code = HIIR_KEY_UP → ¬ SameKey x e

/-- Every `KEY_UP` of the stream releases a key that is down. -/
def KeyUpsPaired (q : List IrkeyInfo) : Prop :=
  ∀ before e after, q = before ++ e :: after → e.irkey_state_code = HIIR_KEY_UP →
    KeyIsDown before e

theorem keyUpsPaired_nil : KeyUpsPaired [] := by
  intro before e after h
  simp at h

/-- One more event keeps the law when it is no release of a key that is up. -/
theorem keyUpsPaired_append {q : List IrkeyInfo} {e : IrkeyInfo} :
    KeyUpsPaired (q ++ [e])
      ↔ KeyUpsPaired q ∧ (e.irkey_state_code = HIIR_KEY_UP → KeyIsDown q e) := by
  constructor
  · intro h
    constructor
    · intro before x after hq hup
      exact h before x (after ++ [e]) (by rw [hq]; simp) hup
    · exact h q e [] rfl
  · rintro ⟨hq, he⟩ before x after heq hup
    -- the release is the event added, or stands before it
    rcases List.eq_nil_or_concat after with rfl | ⟨rest, y, rfl⟩
    · obtain ⟨rfl, hx⟩ := List.append_inj' heq rfl
      cases hx
      exact he hup
    · apply hq before x rest _ hup
      have hcat : q ++ [e] = (before ++ x :: rest) ++ [y] := by rw [heq]; simp
      exact (List.append_inj' hcat rfl).1

/-- A key is down right after its press. -/
theorem keyIsDown_append {q : List IrkeyInfo} {d e : IrkeyInfo}
    (hd : d.irkey_state_code = HIIR_KEY_DOWN) (hk : SameKey d e) : KeyIsDown (q ++ [d]) e :=
  ⟨q, d, [], rfl, hd, hk, fun _ h => absurd h List.not_mem_nil⟩

/-- The interrupt reports a press that the repeat check does not look at. -/
def IrInt.plainPress (i : IrInt) (d : HiirDev) : Prop :=
  i.framerr = false ∧ i.overflow = false ∧ i.release = false ∧ i.rcv = true
    ∧ d.enable_repkey = 0#32

/-- **The key-state law** in the event `e`: the stream stays paired, and with
repeat keys disabled a press that queues nothing is a press of the key the
stream's last event put down. -/
structure KeyLaw (s : Sys) (e : Event) : Prop where
  paired : KeyUpsPaired (step s e).queued
  suppressed : ∀ i, e = .irq i → s.st.enabled = true → i.plainPress s.st.hiir_dev →
    (step s e).queued = s.queued → s.queued.getLast? = some i.keyDown

/-- The interrupt reports a release. -/
def IrInt.keyRelease (i : IrInt) : Prop :=
  i.framerr = false ∧ i.overflow = false ∧ i.release = true

instance (i : IrInt) (d : HiirDev) : Decidable (i.plainPress d) := by
  unfold IrInt.plainPress
  infer_instance

instance (i : IrInt) : Decidable i.keyRelease := by
  unfold IrInt.keyRelease
  infer_instance

/-- While nothing has been queued, no release finds a stale slot that is not up
and no press finds a stale slot with its key down. -/
def NoStaleMatch (s : Sys) : Event → Prop
  | .irq i =>
      s.st.enabled = true → s.queued = [] →
        ¬ (i.keyRelease ∧ s.st.hiir_dev.keyUpDue = true)
          ∧ ¬ (i.plainPress s.st.hiir_dev ∧ s.st.hiir_dev.isHeld i = true)
  | _ => True

/-! ## The slot before the head -/

/-- What the stream and the slot before the head have to do with each other. -/
structure Tracked (s : Sys) : Prop where
  ready : Ready s.st
  paired : KeyUpsPaired s.queued
  last : ∀ e, s.queued.getLast? = some e → s.st.hiir_dev.bufLast = e
  coded : ∀ e ∈ s.queued, e.irkey_state_code = HIIR_KEY_DOWN ∨ e.irkey_state_code = HIIR_KEY_UP

theorem bufLast_of_ring {d e : HiirDev} (h : e.ring = d.ring) : e.bufLast = d.bufLast := by
  simp only [HiirDev.ring, Prod.mk.injEq] at h
  obtain ⟨h1, -, h3, h4⟩ := h
  rw [HiirDev.bufLast, HiirDev.bufLast, h1, h3, h4]

/-- After an event is queued it is the one before the head. -/
theorem bufLast_queue {d : HiirDev} (h : RingOk d) (ev : IrkeyInfo) :
    (d.queue ev).bufLast = ev := by
  have hhead : (d.queue ev).head = if d.head + 1 = d.buf_len then 0 else d.head + 1 :=
    succ_mod h.head_lt
  have hslot : (if (d.queue ev).head = 0 then (d.queue ev).buf_len - 1
      else (d.queue ev).head - 1) = d.head := by
    rw [hhead]
    -- at the last slot the head wraps, and `BUF_LAST` looks back over the end
    by_cases hlast : d.head + 1 = d.buf_len
    · rw [if_pos hlast, if_pos rfl]
      show d.buf_len - 1 = d.head
      omega
    · rw [if_neg hlast, if_neg (Nat.succ_ne_zero _)]
      rfl
  show Function.update d.buf d.head ev _ = ev
  rw [hslot, Function.update_self]

/-- The events other than interrupts queue nothing: they leave the stream and
the slot before the head alone, or start the stream afresh. -/
theorem step_queued {s : Sys} {e : Event} (he : ∀ i, e ≠ .irq i) :
    (step s e).queued = []
      ∨ ((step s e).queued = s.queued
        ∧ (step s e).st.hiir_dev.bufLast = s.st.hiir_dev.bufLast) := by
  cases e with
  | irq i => exact absurd rfl (he i)
  | timeout =>
    right
    simp only [step]
    split <;> exact ⟨rfl, rfl⟩
  | openDev =>
    simp only [step]
    split
    · exact .inl rfl
    · rename_i r st hne hst
      have hsame := hiirOpen_refused (s := s.st) (by rw [hst]; exact hne)
      rw [hst] at hsame
      exact .inr ⟨rfl, congrArg (fun st : Hiir => st.hiir_dev.bufLast) hsame⟩
  | release =>
    right
    simp only [step]
    split <;> exact ⟨rfl, rfl⟩
  | ioctl cmd arg user =>
    have hring := hiirIoctl_ring cmd arg user s.st
    by_cases hopen : s.st.opened = true
    case neg => right; simp [step, hopen]
    cases hb : resetsBuf cmd arg with
    | true => left; simp [step, hopen, hb]
    | false =>
      rw [hb, if_neg Bool.false_ne_true] at hring
      right
      simpa [step, hopen, hb] using bufLast_of_ring hring
  | read t nonblock count =>
    right
    simp only [step]
    split <;> exact ⟨rfl, rfl⟩
  | readTurn t signal =>
    right
    simp only [step]
    split
    · split
      · refine ⟨rfl, ?_⟩
        rename_i r _ _
        -- a read moves the tail only
        change (hiirReadStep signal r s.st.hiir_dev).2.2.bufLast = s.st.hiir_dev.bufLast
        unfold hiirReadStep
        split <;> split_ifs <;> rfl
      · exact ⟨rfl, rfl⟩
    · exact ⟨rfl, rfl⟩

/-! ## What an interrupt queues -/

theorem isHeld_eq (d : HiirDev) (i : IrInt) : d.isHeld i = true ↔ d.bufLast = i.keyDown := by
  rw [HiirDev.isHeld, HiirDev.sameCode, IrInt.keyDown]
  cases d.bufLast
  simp [and_assoc]

/-- The three kinds of interrupt: a release, a press the repeat check does not
look at, and the rest. -/
theorem irqEvent_cases (i : IrInt) (d : HiirDev) :
    (i.keyRelease ∧ irqEvent i d
        = if d.keyUpDue then some { d.bufLast with irkey_state_code := HIIR_KEY_UP } else none)
      ∨ (i.plainPress d ∧ irqEvent i d = if d.isHeld i then none else some i.keyDown)
      ∨ (¬ i.keyRelease ∧ ¬ i.plainPress d
        ∧ (irqEvent i d = none ∨ irqEvent i d = some i.keyDown)) := by
  unfold irqEvent IrInt.keyRelease IrInt.plainPress
  cases hf : i.framerr
  case true => simp
  cases ho : i.overflow
  case true => simp
  cases hr : i.release
  case true => simp
  cases hc : i.rcv
  case false => simp
  by_cases hrep : d.enable_repkey = 0#32
  · simp [hrep]
  · cases d.isRepeat i <;> simp [hrep]

theorem step_irq_queued {s : Sys} (hon : s.st.enabled = true) (i : IrInt) :
    (step s (.irq i)).queued = s.queued ++ (irqEvent i s.st.hiir_dev).toList := by
  simp [step, hon]

/-- The last event of a stream that is not empty is in the slot before the
head. -/
theorem Tracked.queued_eq {s : Sys} (h : Tracked s) (hne : s.queued ≠ []) :
    ∃ q, s.queued = q ++ [s.st.hiir_dev.bufLast] := by
  rcases List.eq_nil_or_concat s.queued with hnil | ⟨q, y, hq⟩
  · exact absurd hnil hne
  · have hlast : s.st.hiir_dev.bufLast = y := h.last y (by rw [hq]; simp)
    exact ⟨q, by rw [hq, hlast, List.concat_eq_append]⟩

/-- A release that queues its event keeps the stream paired exactly when the
stream has begun. -/
theorem release_paired_iff {s : Sys} (h : Tracked s)
    (hdue : s.st.hiir_dev.keyUpDue = true) :
    KeyUpsPaired (s.queued ++ [{ s.st.hiir_dev.bufLast with irkey_state_code := HIIR_KEY_UP }])
      ↔ s.queued ≠ [] := by
  rw [keyUpsPaired_append]
  constructor
  · rintro ⟨-, hdown⟩ hnil
    obtain ⟨a, d, b, hq, -⟩ := hdown rfl
    rw [hnil] at hq
    simp at hq
  · intro hne
    refine ⟨h.paired, fun _ => ?_⟩
    obtain ⟨q, hq⟩ := h.queued_eq hne
    -- the slot is no release, so it is the press of the key
    have hdown : s.st.hiir_dev.bufLast.irkey_state_code = HIIR_KEY_DOWN := by
      rcases h.coded s.st.hiir_dev.bufLast (by rw [hq]; simp) with hd | hu
      · exact hd
      · simp [HiirDev.keyUpDue, hu] at hdue
    rw [hq]
    exact keyIsDown_append hdown ⟨rfl, rfl⟩

/-- A press that is taken for one already down is so exactly when the stream
has begun. -/
theorem held_last_iff {s : Sys} (h : Tracked s) {i : IrInt}
    (hheld : s.st.hiir_dev.isHeld i = true) :
    s.queued.getLast? = some i.keyDown ↔ s.queued ≠ [] := by
  constructor
  · intro hlast hnil
    rw [hnil] at hlast
    simp at hlast
  · intro hne
    obtain ⟨q, hq⟩ := h.queued_eq hne
    rw [hq, (isHeld_eq _ _).mp hheld]
    simp

theorem keyDown_ne_up (i : IrInt) : i.keyDown.irkey_state_code ≠ HIIR_KEY_UP := by
  show HIIR_KEY_DOWN ≠ HIIR_KEY_UP
  decide

/-- A press joins a paired stream. -/
theorem press_paired {q : List IrkeyInfo} (h : KeyUpsPaired q) (i : IrInt) :
    KeyUpsPaired (q ++ [i.keyDown]) :=
  keyUpsPaired_append.mpr ⟨h, fun hup => absurd hup (keyDown_ne_up i)⟩

section Interrupt

variable {s : Sys} {i : IrInt}

/-- A release is judged by the slot before the head, which must not be a stale
one that is not up. -/
theorem release_keyLaw_iff (h : Tracked s) (hon : s.st.enabled = true) (hrel : i.keyRelease)
    (hev : irqEvent i s.st.hiir_dev = if s.st.hiir_dev.keyUpDue then
      some { s.st.hiir_dev.bufLast with irkey_state_code := HIIR_KEY_UP } else none) :
    KeyLaw s (.irq i) ↔ NoStaleMatch s (.irq i) := by
  have hq := step_irq_queued hon i
  have hnp : ¬ i.plainPress s.st.hiir_dev := fun hp => by
    rw [IrInt.plainPress, hrel.2.2] at hp
    exact absurd hp.2.2.1 (by decide)
  have hsup : ∀ j, Event.irq i = .irq j → s.st.enabled = true → j.plainPress s.st.hiir_dev →
      (step s (.irq i)).queued = s.queued → s.queued.getLast? = some j.keyDown := by
    rintro j ⟨⟩ _ hp
    exact absurd hp hnp
  cases hdue : s.st.hiir_dev.keyUpDue with
  | true =>
    rw [hev, hdue, if_pos rfl, Option.toList_some] at hq
    have hpaired := release_paired_iff h hdue
    rw [← hq] at hpaired
    constructor
    · intro hlaw _ hnil
      exact absurd hnil (hpaired.mp hlaw.paired)
    · intro hno
      refine ⟨hpaired.mpr fun hnil => ?_, hsup⟩
      exact (hno hon hnil).1 ⟨hrel, hdue⟩
  | false =>
    rw [hev, hdue, if_neg Bool.false_ne_true, Option.toList_none, List.append_nil] at hq
    refine iff_of_true ⟨by rw [hq]; exact h.paired, hsup⟩ fun _ _ => ⟨?_, fun hc => hnp hc.1⟩
    rw [hdue]
    exact fun hc => absurd hc.2 Bool.false_ne_true

/-- A press the repeat check does not look at is dropped for the slot before the
head, which must not be a stale one with the key down. -/
theorem press_keyLaw_iff (h : Tracked s) (hon : s.st.enabled = true)
    (hpress : i.plainPress s.st.hiir_dev)
    (hev : irqEvent i s.st.hiir_dev = if s.st.hiir_dev.isHeld i then none else some i.keyDown) :
    KeyLaw s (.irq i) ↔ NoStaleMatch s (.irq i) := by
  have hq := step_irq_queued hon i
  have hnr : ¬ i.keyRelease := fun hr => by
    rw [IrInt.keyRelease, hpress.2.2.1] at hr
    exact absurd hr.2.2 (by decide)
  cases hheld : s.st.hiir_dev.isHeld i with
  | true =>
    rw [hev, hheld, if_pos rfl, Option.toList_none, List.append_nil] at hq
    have hlast := held_last_iff h hheld
    constructor
    · intro hlaw _ hnil
      exact absurd hnil (hlast.mp (hlaw.suppressed i rfl hon hpress hq))
    · intro hno
      refine ⟨by rw [hq]; exact h.paired, ?_⟩
      rintro j ⟨⟩ _ _ _
      exact hlast.mpr fun hnil => (hno hon hnil).2 ⟨hpress, hheld⟩
  | false =>
    rw [hev, hheld, if_neg Bool.false_ne_true, Option.toList_some] at hq
    refine iff_of_true ⟨by rw [hq]; exact press_paired h.paired i, ?_⟩
      fun _ _ => ⟨fun hc => hnr hc.1, ?_⟩
    · rintro j ⟨⟩ _ _ hsame
      rw [hq] at hsame
      simp at hsame
    · rw [hheld]
      exact fun hc => absurd hc.2 Bool.false_ne_true

/-- The other interrupts queue a press or nothing. -/
theorem other_keyLaw (h : Tracked s) (hon : s.st.enabled = true)
    (hnp : ¬ i.plainPress s.st.hiir_dev)
    (hev : irqEvent i s.st.hiir_dev = none ∨ irqEvent i s.st.hiir_dev = some i.keyDown) :
    KeyLaw s (.irq i) := by
  constructor
  · rw [step_irq_queued hon i]
    rcases hev with hev | hev
    · rw [hev, Option.toList_none, List.append_nil]
      exact h.paired
    · rw [hev, Option.toList_some]
      exact press_paired h.paired i
  · rintro j ⟨⟩ _ hp
    exact absurd hp hnp

/-- **One interrupt** obeys the law exactly when it meets no stale slot. -/
theorem irq_keyLaw_iff (h : Tracked s) (i : IrInt) :
    KeyLaw s (.irq i) ↔ NoStaleMatch s (.irq i) := by
  by_cases hon : s.st.enabled = true
  case neg =>
    -- a receiver that is not enabled raises no interrupt
    have hstep : (step s (.irq i)).queued = s.queued := by simp [step, hon]
    exact iff_of_true ⟨by rw [hstep]; exact h.paired, fun _ _ hc => absurd hc hon⟩
      fun hc => absurd hc hon
  rcases irqEvent_cases i s.st.hiir_dev with ⟨hrel, hev⟩ | ⟨hpress, hev⟩ | ⟨hnr, hnp, hev⟩
  · exact release_keyLaw_iff h hon hrel hev
  · exact press_keyLaw_iff h hon hpress hev
  · exact iff_of_true (other_keyLaw h hon hnp hev)
      fun _ _ => ⟨fun hc => hnr hc.1, fun hc => hnp hc.1⟩

end Interrupt

/-- An event other than an interrupt obeys the law. -/
theorem keyLaw_of_quiet {s : Sys} (h : Tracked s) {e : Event} (he : ∀ i, e ≠ .irq i) :
    KeyLaw s e := by
  refine ⟨?_, fun i hi => absurd hi (he i)⟩
  rcases step_queued he with hq | ⟨hq, -⟩
  · rw [hq]
    exact keyUpsPaired_nil
  · rw [hq]
    exact h.paired

theorem keyLaw_iff {s : Sys} (h : Tracked s) (e : Event) : KeyLaw s e ↔ NoStaleMatch s e := by
  cases e with
  | irq i => exact irq_keyLaw_iff h i
  | timeout | openDev | release | ioctl | read | readTurn =>
    exact iff_of_true (keyLaw_of_quiet h fun _ hc => nomatch hc) trivial

/-! ## Whole runs -/

/-- The event an interrupt queues has one of the two codes. -/
theorem irqEvent_coded {i : IrInt} {d : HiirDev} {ev : IrkeyInfo} (h : irqEvent i d = some ev) :
    ev.irkey_state_code = HIIR_KEY_DOWN ∨ ev.irkey_state_code = HIIR_KEY_UP := by
  rcases irqEvent_cases i d with ⟨-, hev⟩ | ⟨-, hev⟩ | ⟨-, -, hev | hev⟩
  · rw [hev] at h
    split at h
    · cases h
      exact .inr rfl
    · cases h
  · rw [hev] at h
    split at h
    · cases h
    · cases h
      exact .inl rfl
  · rw [hev] at h
    cases h
  · rw [hev] at h
    cases h
    exact .inl rfl

/-- An interrupt that has an event to queue leaves it before the head. -/
theorem irq_bufLast {s : Sys} (h : Ready s.st) (hon : s.st.enabled = true) {i : IrInt} :
    (step s (.irq i)).st.hiir_dev.bufLast
      = (irqEvent i s.st.hiir_dev).getD s.st.hiir_dev.bufLast := by
  have hstep : (step s (.irq i)).st = hiirInterrupt i s.st := by simp [step, hon]
  have hring := hiirInterrupt_ring i s.st
  rw [hstep]
  cases hev : irqEvent i s.st.hiir_dev with
  | none => exact bufLast_of_ring (by simpa only [hev] using hring)
  | some ev =>
    have hslot : (hiirInterrupt i s.st).hiir_dev.bufLast = (s.st.hiir_dev.queue ev).bufLast :=
      bufLast_of_ring (by simpa only [hev] using hring)
    rw [hslot, bufLast_queue (h (.inr hon))]
    rfl

/-- The slot before the head keeps up with the stream. -/
theorem Tracked.step {s : Sys} (h : Tracked s) {e : Event} (hlaw : KeyLaw s e) :
    Tracked (step s e) := by
  have hready := step_ready h.ready e
  by_cases hirq : ∃ i, e = .irq i
  · obtain ⟨i, rfl⟩ := hirq
    by_cases hon : s.st.enabled = true
    case neg =>
      have hsame : Irda.step s (.irq i) = s := by simp [Irda.step, hon]
      rw [hsame]
      exact h
    have hq := step_irq_queued hon i
    have hslot := irq_bufLast h.ready hon (i := i)
    cases hev : irqEvent i s.st.hiir_dev with
    | none =>
      rw [hev, Option.toList_none, List.append_nil] at hq
      rw [hev, Option.getD_none] at hslot
      exact ⟨hready, hlaw.paired, by rw [hq, hslot]; exact h.last, by rw [hq]; exact h.coded⟩
    | some ev =>
      rw [hev, Option.toList_some] at hq
      rw [hev, Option.getD_some] at hslot
      refine ⟨hready, hlaw.paired, ?_, ?_⟩
      · intro x hx
        rw [hq, List.getLast?_append, List.getLast?_singleton, Option.some_or] at hx
        rw [hslot]
        exact Option.some.inj hx
      · intro x hx
        rw [hq] at hx
        rcases List.mem_append.mp hx with hold | hnew
        · exact h.coded x hold
        · rw [List.mem_singleton.mp hnew]
          exact irqEvent_coded hev
  · have he : ∀ i, e ≠ .irq i := fun i hi => hirq ⟨i, hi⟩
    rcases step_queued he with hq | ⟨hq, hslot⟩
    · refine ⟨hready, hlaw.paired, ?_, ?_⟩
      · intro x hx
        rw [hq] at hx
        simp at hx
      · intro x hx
        rw [hq] at hx
        simp at hx
    · exact ⟨hready, hlaw.paired, by rw [hq, hslot]; exact h.last, by rw [hq]; exact h.coded⟩

theorem boot_tracked : Tracked Sys.boot where
  ready := boot_ready
  paired := keyUpsPaired_nil
  last := fun e h => by simp [Sys.boot] at h
  coded := fun e h => by simp [Sys.boot] at h

/-- **Key presses and releases**: over any run, every `KEY_UP` releases a key
that is down and no press is suppressed for want of a reason, if and only if
no interrupt meets a stale slot that makes it queue a release or drop a press
before anything was queued. -/
theorem key_state_iff (es : List Event) :
    Along step KeyLaw Sys.boot es ↔ Along step NoStaleMatch Sys.boot es := by
  apply along_iff_along (I := Tracked)
  · exact fun s e h => keyLaw_iff h e
  · exact fun s e h hno => h.step ((keyLaw_iff h e).mpr hno)
  · exact boot_tracked

instance NoStaleMatch.decidable (s : Sys) : ∀ e, Decidable (NoStaleMatch s e)
  | .irq i => inferInstanceAs (Decidable (s.st.enabled = true → s.queued = [] →
      ¬ (i.keyRelease ∧ s.st.hiir_dev.keyUpDue = true)
        ∧ ¬ (i.plainPress s.st.hiir_dev ∧ s.st.hiir_dev.isHeld i = true)))
  | .timeout | .openDev | .release | .ioctl _ _ _ | .read _ _ _ | .readTurn _ _ => .isTrue trivial

/-- A release of the key that was down last. -/
def letGo : Event := .irq ⟨0x80000, 0, 0⟩

/-- Two keys are pressed, the ring is cut down to one event, the second key is
let go. -/
def resizeWhileDown : List Event :=
  [.openDev, press 1, press 2, .ioctl .SET_BUF 1 none, letGo]

/-- **A release out of nowhere**: after the resize the stream is one `KEY_UP`,
with no press before it. -/
theorem key_up_without_down :
    ¬ (∀ es, Along step KeyLaw Sys.boot es)
      ∧ (exec step Sys.boot resizeWhileDown).queued = [⟨0, 2, HIIR_KEY_UP⟩] := by
  refine ⟨fun h => ?_, by decide⟩
  have hno := (key_state_iff resizeWhileDown).mp (h resizeWhileDown)
  exact absurd hno (by decide)

end ExtDrv.Irda
