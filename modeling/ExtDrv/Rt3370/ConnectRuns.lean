import ExtDrv.Rt3370.ConnectQueue

/-!
# What the control machine waits for

A wait is carried by a request or a confirmation in the queue, or by a machine that waits itself and
whose timer will tell it when to stop. Nothing else gets the control machine out of its wait.
-/

namespace ExtDrv.Rt3370.Connect

open Memory Run Sanity

/-! ## Waits -/

/-- A wait comes to an end: something in the queue is about it, or its machine waits, with a timer
that runs or has run out. -/
def Carries (s : Adapter) (k : Kind) : Prop :=
  Asked k s.Queue ∨ Waiting s k ∧ (s.armed k = true ∨ .timeout k ∈ s.Queue)

def Carried (s : Adapter) : Prop := ∀ k, s.cntl.waits = some k → Carries s k

theorem carried_of_waits_none {s : Adapter} (h : s.cntl.waits = none) : Carried s := by
  intro k hk
  rw [h] at hk
  cases hk

theorem carried_iff_of_waits {s : Adapter} {k : Kind} (h : s.cntl.waits = some k) :
    Carried s ↔ Carries s k := by
  constructor
  · intro hs
    exact hs k h
  · intro hs k' hk'
    rw [h] at hk'
    cases hk'
    exact hs

/-! ## What becomes of a wait -/

section Wait

variable {s s' t : Adapter} {k k' : Kind} {env : Env} {e : Elem}

/-- What is left of a wait when `e` is off the queue. -/
def Due (s : Adapter) (e : Elem) (k : Kind) : Prop :=
  Carries s k ∨ e.Settles k ∨ e = .timeout k ∧ Waiting s k

theorem due_of_carries {es : List Elem} (hq : s.Queue = e :: es) (h : Carries s k) :
    Due { s with Queue := es } e k := by
  have hwaiting : Waiting { s with Queue := es } k ↔ Waiting s k := by cases k <;> rfl
  rw [Carries, hq] at h
  rcases h with hasked | ⟨hwait, harmed | hout⟩
  · rcases asked_cons.mp hasked with he | hes
    · exact Or.inr (Or.inl he)
    · exact Or.inl (Or.inl hes)
  · exact Or.inl (Or.inr ⟨hwaiting.mpr hwait, Or.inl harmed⟩)
  · rcases List.mem_cons.mp hout with rfl | hes
    · exact Or.inr (Or.inr ⟨rfl, hwaiting.mpr hwait⟩)
    · exact Or.inl (Or.inr ⟨hwaiting.mpr hwait, Or.inr hes⟩)

theorem carries_iff_of_idle (h : ¬ Waiting s k) : Carries s k ↔ Asked k s.Queue := by
  simp [Carries, h]

/-- Where a wait is carried, it is asked for unless the machine alone carries it. -/
theorem asked_iff_of_carries (h : Carries s k) :
    Asked k s.Queue ↔ ¬ (Waiting s k ∧ ¬ Asked k s.Queue) := by
  constructor
  · intro hasked hnot
    exact hnot.2 hasked
  · intro hnot
    rcases h with hasked | ⟨hwait, _⟩
    · exact hasked
    · by_contra hno
      exact hnot ⟨hwait, hno⟩

/-- What the control machine waits for, and nothing else, has to be looked at. -/
theorem carried_iff_of_cntl {P : Kind → Prop} (hcntl : s'.cntl = s.cntl)
    (h : ∀ k, s.cntl.waits = some k → (Carries s' k ↔ ¬ P k)) :
    Carried s' ↔ ¬ ∃ k, s.cntl.waits = some k ∧ P k := by
  constructor
  · rintro hs ⟨k, hk, hp⟩
    exact (h k hk).mp (hs k (by rw [hcntl]; exact hk)) hp
  · intro hno k hk
    rw [hcntl] at hk
    exact (h k hk).mpr fun hp => hno ⟨k, hk, hp⟩

theorem not_waiting_of_idle (hk : k ≠ .auth) (h : s.assoc = .idle) : ¬ Waiting s k := by
  cases k with
  | auth => exact absurd rfl hk
  | assoc | reassoc | disassoc => simp [Waiting, h]

/-- The association machine is in one wait at a time. -/
theorem not_waiting_of_other (hk : k ≠ .auth) (hk' : k' ≠ .auth) (hne : k' ≠ k)
    (h : Waiting s k') : ¬ Waiting s k := by
  intro hwait
  cases k <;> cases k' <;> simp_all [Waiting]

/-! ### The other machine -/

/-- Two kinds are of different machines, or both of the association machine. -/
theorem other_or_assoc (hne : k' ≠ k) :
    (k = .auth ↔ k' ≠ .auth) ∨ k ≠ .auth ∧ k' ≠ .auth := by
  by_cases hk : k = .auth
  · subst hk
    exact Or.inl (iff_of_true rfl hne)
  · by_cases hk' : k' = .auth
    · exact Or.inl (iff_of_false hk (not_not_intro hk'))
    · exact Or.inr ⟨hk, hk'⟩

theorem Alike.waiting (h : Alike k' s t) (hk : k = .auth ↔ k' ≠ .auth) :
    Waiting t k ↔ Waiting s k := by
  cases k with
  | auth => simp [Waiting, h.auth (hk.mp rfl)]
  | assoc | reassoc | disassoc =>
      have hauth : k' = .auth := by simpa using hk
      simp [Waiting, h.assoc hauth]

/-- A machine keeps the waits for the other. -/
theorem Alike.carries (h : Alike k' s t) (hk : k = .auth ↔ k' ≠ .auth)
    (hold : ∀ e ∈ s.Queue, e ∈ t.Queue) (hs : Carries s k) : Carries t k := by
  have hne : k ≠ k' := by
    rintro rfl
    exact iff_not_self hk
  rcases hs with hasked | ⟨hwait, hrun | hout⟩
  · exact Or.inl (hasked.mono hold)
  · exact Or.inr ⟨(h.waiting hk).mpr hwait, Or.inl ((h.armed k hne).trans hrun)⟩
  · exact Or.inr ⟨(h.waiting hk).mpr hwait, Or.inr (hold _ hout)⟩

theorem Confirmed.old (h : Confirmed env s e k t) : ∀ e' ∈ s.Queue, e' ∈ t.Queue :=
  fun _ => h.queue.old

theorem Confirmed.asked_iff (h : Confirmed env s e k' t) (hne : k' ≠ k) :
    Asked k t.Queue ↔ Asked k s.Queue := by
  constructor
  · rintro ⟨e', hmem, hset⟩
    rcases h.queue.mem hmem with hin | ⟨⟨Status, rfl⟩, _⟩
    · exact ⟨e', hin, hset⟩
    · exact absurd hset hne
  · exact Asked.mono h.old

/-! ### What is cut off -/

/-- A message that takes the association machine out of a wait for `k`, and confirms something else
or nothing. -/
def Cuts (s : Adapter) (k : Kind) : Elem → Prop
  | .req r => r.kind ≠ .auth ∧ r.kind ≠ k
  | .peer (.disassocReq m) => fromOwnAp s m = true ∧ s.cntl ≠ .waitDisassoc
  | _ => False

/-- The message `e`, which is off the queue, cuts off the wait for `k`. -/
def CutOff (s : Adapter) (e : Elem) (k : Kind) : Prop :=
  k ≠ .auth ∧ Waiting s k ∧ ¬ Asked k s.Queue ∧ Cuts s k e

/-- What has a machine act cuts off waits of another kind, and of the same machine only. -/
theorem Elem.Tells.of_cuts (h : e.Tells s k') (hcut : Cuts s k e) : k' ≠ .auth ∧ k' ≠ k := by
  cases e with
  | req r =>
      obtain rfl : r.kind = k' := h
      exact hcut
  | peer f =>
      cases f with
      | disassocReq m => exact absurd h.2.2 hcut.2
      | _ => exact hcut.elim
  | _ => exact hcut.elim

theorem Elem.Tells.cuts (h : e.Tells s k') (hk : k ≠ .auth) (hk' : k' ≠ .auth) (hne : k' ≠ k)
    (hwait : Waiting s k) (hw : s.cntl.waits = some k) : Cuts s k e := by
  cases e with
  | req r =>
      obtain rfl : r.kind = k' := h
      exact ⟨hk', hne⟩
  | timeout k'' => exact absurd hwait (not_waiting_of_other hk hk' hne h.2)
  | peer f =>
      cases f with
      | authEven m => exact absurd h.1 hk'
      | assocRsp m len | reassocRsp m len =>
          exact absurd hwait (not_waiting_of_other hk hk' hne h.2)
      | disassocReq m =>
          obtain ⟨rfl, _, hc⟩ := h
          rw [hc] at hw
          exact absurd (Option.some.inj hw) hne
      | deauth m | chSwAnn => exact h.elim
  | _ => exact h.elim

theorem Elem.Tells.carries (h : e.Tells s k') (hne : k' ≠ k) (hdue : Due s e k) : Carries s k := by
  rcases hdue with hcarries | hsettles | ⟨rfl, _⟩
  · exact hcarries
  · cases e with
    | req r => exact absurd (h.symm.trans hsettles) hne
    | conf k'' Status => exact h.elim
    | _ => exact hsettles.elim
  · exact absurd h.1.symm hne

/-- **A turn of the authentication or the association machine** loses a wait exactly when its
message cuts it off. -/
theorem Played.carries_iff (hp : Played env s e t) (hroom : s.Queue.length ≠ maxLenOfMlmeQueue)
    (hw : s.cntl.waits = some k) (h : Due s e k) : Carries t k ↔ ¬ CutOff s e k := by
  cases hp with
  | drops hset hout hown =>
      have hs : Carries s k := by
        rcases h with hcarries | hsettles | ⟨heq, hwait⟩
        · exact hcarries
        · exact absurd hsettles (hset k)
        · exact absurd hwait (hout k heq)
      apply iff_of_true hs
      rintro ⟨_, _, _, hcut⟩
      cases e with
      | req r => exact hset r.kind rfl
      | peer f =>
          cases f with
          | disassocReq m => exact hown m rfl hcut.1
          | _ => exact hcut
      | _ => exact hcut
  | confirms hconf htells =>
      rename_i k'
      by_cases hsame : k' = k
      · subst hsame
        apply iff_of_true (Or.inl (hconf.asked hroom))
        rintro ⟨_, _, _, hcut⟩
        exact (htells.of_cuts hcut).2 rfl
      have hs : Carries s k := htells.carries hsame h
      rcases other_or_assoc hsame with hother | ⟨hk, hk'⟩
      · apply iff_of_true (hconf.alike.carries hother hconf.old hs)
        rintro ⟨hk, _, _, hcut⟩
        exact hk (hother.mpr (htells.of_cuts hcut).1)
      -- the association machine is idle from then on
      rw [carries_iff_of_idle (not_waiting_of_idle hk (hconf.idle hk')), hconf.asked_iff hsame,
        asked_iff_of_carries hs]
      constructor
      · rintro hno ⟨_, hwait, hnone, _⟩
        exact hno ⟨hwait, hnone⟩
      · rintro hno ⟨hwait, hnone⟩
        exact hno ⟨hk, hwait, hnone, htells.cuts hk hk' hsame hwait hw⟩
  | begins halike hq hbegins hwait harmed =>
      rename_i k'
      by_cases hsame : k' = k
      · subst hsame
        apply iff_of_true (Or.inr ⟨hwait, Or.inl harmed⟩)
        rintro ⟨_, _, _, hcut⟩
        exact (hbegins.1.of_cuts hcut).2 rfl
      have hs : Carries s k := hbegins.1.carries hsame h
      have hold (e' : Elem) (he' : e' ∈ s.Queue) : e' ∈ t.Queue := by
        rw [hq]
        exact he'
      rcases other_or_assoc hsame with hother | ⟨hk, hk'⟩
      · apply iff_of_true (halike.carries hother hold hs)
        rintro ⟨hk, _, _, hcut⟩
        exact hk (hother.mpr (hbegins.1.of_cuts hcut).1)
      have hidle : ¬ Waiting s k := not_waiting_of_idle hk (hbegins.2 hk').1
      apply iff_of_true (Or.inl (((carries_iff_of_idle hidle).mp hs).mono hold))
      rintro ⟨_, hbusy, _⟩
      exact hidle hbusy
  | cuts m he hown hcntl =>
      subst he
      have hs : Carries s k := by
        rcases h with hcarries | hsettles | ⟨heq, _⟩
        · exact hcarries
        · exact hsettles.elim
        · cases heq
      have hdown : (linkDown s).Queue = s.Queue := same_linkDown.queue
      by_cases hk : k = .auth
      · subst hk
        apply iff_of_true (alike_linkDown.carries (by simp) (fun _ he => hdown ▸ he) hs)
        rintro ⟨hne, _⟩
        exact hne rfl
      · rw [carries_iff_of_idle (not_waiting_of_idle hk rfl)]
        show Asked k (linkDown s).Queue ↔ _
        rw [hdown, asked_iff_of_carries hs]
        simp [CutOff, Cuts, hk, hown, hcntl]

/-! ### The control machine -/

theorem ask_carried {r : Req} {c : Cntl} (hroom : s.Queue.length ≠ maxLenOfMlmeQueue)
    (hc : c.waits = some r.kind) : Carried (s.ask r c) := by
  intro k hk
  obtain rfl : r.kind = k := Option.some.inj (hc.symm.trans hk)
  exact Or.inl (asked_of_room hroom rfl)

theorem Same.waiting (h : Same s t) : Waiting t k ↔ Waiting s k := by
  cases k <;> simp [Waiting, h.auth, h.assoc]

theorem Same.carried (h : Same s t) (hs : Carried s) : Carried t := by
  intro k hk
  rw [h.cntl] at hk
  rw [Carries, h.waiting, h.queue, h.armed]
  exact hs k hk

/-- The control machine stays in a wait that is due, or asks for what it waits for. -/
theorem Moved.carried (hm : Moved env s e t) (hroom : s.Queue.length ≠ maxLenOfMlmeQueue)
    (he : e.ForCntl) (h : ∀ k, s.cntl.waits = some k → Due s e k) : Carried t := by
  cases hm with
  | stays hsame hconf =>
      apply hsame.carried
      intro k hk
      rcases h k hk with hcarries | hsettles | ⟨rfl, _⟩
      · exact hcarries
      · cases e with
        | conf k' Status =>
            obtain rfl : k' = k := hsettles
            exact absurd hk (hconf _ _ rfl)
        | req r => exact he.elim
        | _ => cases hsettles
      · exact he.elim
  | asks x hc _ => exact ask_carried (s := { s with MlmeAux := x }) hroom hc
  | rests hrests => exact carried_of_waits_none hrests.cntl

theorem mlmeAutoReconnectLastSSID_carried (byBssid validSsid : Bool) (h : Carried s) :
    Carried (mlmeAutoReconnectLastSSID s byBssid validSsid) := by
  unfold mlmeAutoReconnectLastSSID
  split_ifs with _ hidle
  · exact carried_of_waits_none rfl
  · apply carried_of_waits_none
    rw [mlmeEnqueue_cntl, hidle.1]
    rfl
  · exact h

/-! ### A turn of the handler -/

theorem Elem.ForCntl.not_cuts (he : e.ForCntl) : ¬ Cuts s k e := by
  cases e with
  | req r => exact he.elim
  | peer f =>
      cases f with
      | disassocReq m => exact he.elim
      | _ => exact id
  | _ => exact id

/-- The message `e` empties the queue, and no machine with a timer that runs carries the wait. -/
def Emptied (env : Env) (s : Adapter) (e : Elem) (k : Kind) : Prop :=
  e.Empties env ∧ ¬ (Waiting s k ∧ s.armed k = true)

theorem Elem.Empties.not_cuts (he : e.Empties env) : ¬ Cuts s k e := by
  unfold Elem.Empties at he
  split at he
  · exact id
  · exact he.elim

/-- When the queue is emptied, a machine with a timer is left. -/
theorem Same.emptied_carries_iff (h : Same s t) :
    Carries (mlmeQueueInit t) k ↔ Waiting s k ∧ s.armed k = true := by
  have hwait : Waiting (mlmeQueueInit t) k ↔ Waiting s k := by
    rw [← h.waiting]
    cases k <;> rfl
  have hqueue : (mlmeQueueInit t).Queue = [] := rfl
  have harmed : (mlmeQueueInit t).armed = s.armed := h.armed
  simp [Carries, Asked, hwait, hqueue, harmed]

/-- **A turn of the handler** loses a wait exactly when its message cuts it off, or empties the
queue. -/
theorem handleElem_carried_iff (hlen : s.Queue.length < maxLenOfMlmeQueue)
    (h : ∀ k, s.cntl.waits = some k → Due s e k) :
    Carried (handleElem env s e) ↔
      ¬ ∃ k, s.cntl.waits = some k ∧ (CutOff s e k ∨ Emptied env s e k) := by
  have hroom : s.Queue.length ≠ maxLenOfMlmeQueue := Nat.ne_of_lt hlen
  have hkeeps {t : Adapter} (ht : Carried t) (he : ∀ k, ¬ Cuts s k e) (hno : ¬ e.Empties env) :
      Carried t ↔ ¬ ∃ k, s.cntl.waits = some k ∧ (CutOff s e k ∨ Emptied env s e k) := by
    apply iff_of_true ht
    rintro ⟨k, _, ⟨_, _, _, hcut⟩ | ⟨hempties, _⟩⟩
    · exact he k hcut
    · exact hno hempties
  by_cases hempties : e.Empties env
  · have hcntl : (mlmeQueueInit (linkDown s)).cntl = s.cntl := same_linkDown.cntl
    rw [handleElem_empties hempties]
    apply carried_iff_of_cntl hcntl
    intro k hk
    rw [same_linkDown.emptied_carries_iff]
    simp [CutOff, Emptied, hempties, hempties.not_cuts]
  rcases handleElem_turns env e hlen.le with rfl | hyes | ⟨he, hmoved⟩ | hplayed
  · exact hkeeps (carried_of_waits_none rfl) (fun _ => id) id
  · exact absurd hyes hempties
  · exact hkeeps (hmoved.carried hroom he h) (fun _ => he.not_cuts) hempties
  · apply carried_iff_of_cntl hplayed.cntl
    intro k hk
    rw [hplayed.carries_iff hroom hk (h k hk)]
    simp [Emptied, hempties]

/-! ### What else happens -/

def Full (s : Adapter) : Prop := s.Queue.length = maxLenOfMlmeQueue

theorem carried_of_kept (h : Carried s) (hcntl : s'.cntl = s.cntl)
    (hwaiting : ∀ k, Waiting s k → Waiting s' k) (harmed : s'.armed = s.armed)
    (hold : ∀ e ∈ s.Queue, e ∈ s'.Queue) : Carried s' := by
  intro k hk
  rw [hcntl] at hk
  rcases h k hk with hasked | ⟨hwait, hrun | hout⟩
  · exact Or.inl (hasked.mono hold)
  · exact Or.inr ⟨hwaiting k hwait, Or.inl (by rw [harmed]; exact hrun)⟩
  · exact Or.inr ⟨hwaiting k hwait, Or.inr (hold _ hout)⟩

theorem mlmeEnqueue_waiting : Waiting (mlmeEnqueue s e) k ↔ Waiting s k := by
  cases k <;> simp [Waiting]

theorem mlmeEnqueue_carried (h : Carried s) : Carried (mlmeEnqueue s e) :=
  carried_of_kept h mlmeEnqueue_cntl (fun _ => mlmeEnqueue_waiting.mpr) mlmeEnqueue_armed
    fun _ => mlmeEnqueue_old

theorem mlmeEnqueueForRecv_carried (h : Carried s) (f : Frame) :
    Carried (mlmeEnqueueForRecv s f) := by
  unfold mlmeEnqueueForRecv
  split
  · exact h
  · refine carried_of_kept h ?_ ?_ ?_ ?_
    · rfl
    · intro k
      cases k <;> exact id
    · rfl
    · intro e he
      exact List.mem_append_left _ he

/-- A timer that is over tells its machine so, unless the queue is full. -/
theorem timeout_carries_iff (h : Carries s k) :
    Carries (timeout s k) k
      ↔ ¬ (Full s ∧ ¬ Asked k s.Queue ∧ Elem.timeout k ∉ s.Queue) := by
  have hwait : Waiting (timeout s k) k ↔ Waiting s k := by
    rw [timeout, mlmeEnqueue_waiting]
    cases k <;> rfl
  have harmed : (timeout s k).armed k = false := by
    rw [timeout, mlmeEnqueue_armed]
    exact Function.update_self ..
  by_cases hfull : Full s
  · have hqueue : (timeout s k).Queue = s.Queue := by
      rw [timeout, mlmeEnqueue_full (s := rtmpCancelTimer s k) hfull]
      rfl
    have hs : Asked k s.Queue ∨ Waiting s k := h.imp id And.left
    rw [Carries, hqueue, hwait, harmed]
    constructor
    · rintro (hasked | ⟨_, hrun | hout⟩) ⟨_, hno, hnot⟩
      · exact hno hasked
      · cases hrun
      · exact hnot hout
    · intro hnot
      by_cases hasked : Asked k s.Queue
      · exact Or.inl hasked
      · refine Or.inr ⟨hs.resolve_left hasked, Or.inr ?_⟩
        by_contra hout
        exact hnot ⟨hfull, hasked, hout⟩
  · have hafter : Carries (timeout s k) k := by
      rcases h with hasked | ⟨hw, _⟩
      · exact Or.inl (hasked.mono fun _ he => mlmeEnqueue_old (s := rtmpCancelTimer s k) he)
      · exact Or.inr ⟨hwait.mpr hw, Or.inr (mem_mlmeEnqueue (s := rtmpCancelTimer s k) hfull)⟩
    simp [hafter, hfull]

theorem timeout_carries_other {k' : Kind} (hne : k ≠ k') (h : Carries s k) :
    Carries (timeout s k') k := by
  have hwait : Waiting (timeout s k') k ↔ Waiting s k := by
    rw [timeout, mlmeEnqueue_waiting]
    cases k <;> rfl
  have harmed : (timeout s k').armed k = s.armed k := by
    rw [timeout, mlmeEnqueue_armed]
    exact Function.update_of_ne hne ..
  have hold (e : Elem) (he : e ∈ s.Queue) : e ∈ (timeout s k').Queue :=
    mlmeEnqueue_old (s := rtmpCancelTimer s k') he
  rcases h with hasked | ⟨hw, hrun | hout⟩
  · exact Or.inl (hasked.mono hold)
  · exact Or.inr ⟨hwait.mpr hw, Or.inl (harmed.trans hrun)⟩
  · exact Or.inr ⟨hwait.mpr hw, Or.inr (hold _ hout)⟩

/-- A control machine that is set to wait goes by its request, or by what is there already. -/
theorem ask_carried_iff {r : Req} {c : Cntl} (hc : c.waits = some r.kind) :
    Carried (s.ask r c) ↔ ¬ (Full s ∧ ¬ Carries s r.kind) := by
  by_cases hfull : Full s
  · have hask : s.ask r c = { s with cntl := c } := by
      rw [Adapter.ask, mlmeEnqueue_full hfull]
    have hsame : Carries { s with cntl := c } r.kind ↔ Carries s r.kind := by
      have hwaiting : Waiting { s with cntl := c } r.kind ↔ Waiting s r.kind := by
        cases r.kind <;> rfl
      rw [Carries, hwaiting]
      rfl
    rw [hask, carried_iff_of_waits (s := { s with cntl := c }) hc, hsame]
    simp [hfull]
  · simp [ask_carried hfull hc, hfull]

theorem mlmeDisassocReqAction_alike : Alike .disassoc s (mlmeDisassocReqAction env s) := by
  have hset : Alike .disassoc s (rtmpSetTimer s .disassoc) := alike_refl.timer true
  unfold mlmeDisassocReqAction
  split
  · exact hset.setAssoc nofun _
  · exact alike_refl.endWith

theorem mlmeDisassocReqAction_assoc :
    (mlmeDisassocReqAction env s).assoc = .disassocWaitRsp ∨
      (mlmeDisassocReqAction env s).assoc = .idle := by
  unfold mlmeDisassocReqAction
  split
  · exact Or.inl rfl
  · right
    simp [endWith, toIdle]

theorem mlmeDisassocReqAction_old (he : e ∈ s.Queue) : e ∈ (mlmeDisassocReqAction env s).Queue := by
  unfold mlmeDisassocReqAction
  split
  · exact he
  · exact mlmeEnqueue_old he

theorem mlmeDisassocReqAction_asked (hne : k ≠ .disassoc) :
    Asked k (mlmeDisassocReqAction env s).Queue ↔ Asked k s.Queue := by
  unfold mlmeDisassocReqAction
  split
  · exact Iff.rfl
  · exact asked_mlmeEnqueue (s := { s with assoc := .idle }) fun heq => hne heq.symm

theorem mlmeDisassocReqAction_not_waiting (hk : k ≠ .auth) (hne : k ≠ .disassoc) :
    ¬ Waiting (mlmeDisassocReqAction env s) k := by
  have hassoc : Kind.disassoc ≠ .auth := nofun
  have hends : (mlmeDisassocReqAction env s).assoc = .disassocWaitRsp ∨
      (mlmeDisassocReqAction env s).assoc = .idle := mlmeDisassocReqAction_assoc
  rcases hends with hwait | hidle
  · exact not_waiting_of_other hk hassoc hne.symm hwait
  · exact not_waiting_of_idle hk hidle

theorem mlmeDisassocReqAction_carries_iff :
    Carries (mlmeDisassocReqAction env s) .disassoc
      ↔ ¬ (env.mlmeMemory = false ∧ Full s ∧ ¬ Asked .disassoc s.Queue) := by
  unfold mlmeDisassocReqAction
  split
  · rename_i hmem
    have harmed : (rtmpSetTimer s .disassoc).armed .disassoc = true := rtmpSetTimer_armed
    simp [Carries, Waiting, harmed, hmem]
  · rename_i hmem
    by_cases hfull : Full s
    · have hend : endWith .disassoc mlmeFailNoResource s = { s with assoc := .idle } :=
        mlmeEnqueue_full (s := { s with assoc := .idle }) hfull
      rw [hend, carries_iff_of_idle (by simp [Waiting])]
      simp [hmem, hfull]
    · have hasked : Asked .disassoc (endWith .disassoc mlmeFailNoResource s).Queue :=
        asked_of_room (s := { s with assoc := .idle }) hfull rfl
      simp [Carries, hasked, hfull]

/-- The user's deauthentication sets the machines to idle, and confirms nothing that the control
machine waits for. -/
theorem iwMlmeDeauth_carries_iff (h : Carries s k) :
    Carries (iwMlmeDeauth env s) k
      ↔ ¬ ((k = .auth ∨ s.infraOn = true) ∧ ¬ Asked k s.Queue) := by
  have hasked : Asked k (mlmeDeauthReqAction env s).Queue ↔ Asked k s.Queue :=
    asked_mlmeEnqueue (s := toIdle s .auth) (e := .deauthConf _) id
  have hqueue : (iwMlmeDeauth env s).Queue = (mlmeDeauthReqAction env s).Queue := by
    unfold iwMlmeDeauth
    dsimp only
    split_ifs
    · exact same_linkDown.queue
    · rfl
  have hauth : (iwMlmeDeauth env s).auth = .reqIdle := by
    unfold iwMlmeDeauth linkDown mlmeDeauthReqAction toIdle
    dsimp only
    split_ifs <;> simp
  have hinfra : (mlmeDeauthReqAction env s).infraOn = s.infraOn := by
    simp [mlmeDeauthReqAction, toIdle]
  by_cases hidle : k = .auth ∨ s.infraOn = true
  · have hwait : ¬ Waiting (iwMlmeDeauth env s) k := by
      rcases hidle with rfl | hon
      · simp [Waiting, hauth]
      · have hassoc : (iwMlmeDeauth env s).assoc = .idle := by
          rw [iwMlmeDeauth]
          exact congrArg Adapter.assoc (if_pos (hinfra.trans hon))
        cases k <;> simp [Waiting, hauth, hassoc]
    rw [carries_iff_of_idle hwait, hqueue, hasked]
    simp [hidle]
  · have hsame : iwMlmeDeauth env s = mlmeDeauthReqAction env s := by
      rw [iwMlmeDeauth]
      exact if_neg fun hon => hidle (Or.inr (hinfra.symm.trans hon))
    have hkeep : Carries (mlmeDeauthReqAction env s) k := by
      rcases h with hold | ⟨hw, hrun⟩
      · exact Or.inl (hasked.mpr hold)
      · refine Or.inr ⟨?_, ?_⟩
        · rw [mlmeDeauthReqAction, mlmeEnqueue_waiting]
          cases k with
          | auth => exact absurd (Or.inl rfl) hidle
          | assoc | reassoc | disassoc => exact hw
        · rw [mlmeDeauthReqAction, mlmeEnqueue_armed]
          exact hrun.imp id mlmeEnqueue_old
    simp [hsame, hkeep, hidle]

end Wait

/-! ## Runs -/

section Runs

variable {s : Adapter} {env : Env} {op : Op}

/-- A step that leaves the control machine in a wait with nothing to end it: a message cuts the wait
off, the announcement of another channel empties the queue that carries it, a timer runs out into a
full queue, or the wait begins or its machine is set to idle without a message that tells. -/
def Orphans (s : Adapter) : Op → Prop
  | .handle env => ∃ e es k, s.Queue = e :: es ∧ s.cntl.waits = some k ∧
      (CutOff { s with Queue := es } e k ∨ Emptied env { s with Queue := es } e k)
  | .fires k => s.cntl.waits = some k ∧ s.armed k = true ∧ Full s ∧ ¬ Asked k s.Queue ∧
      Elem.timeout k ∉ s.Queue
  | .linkDownExec env =>
      (env.portNotSecured && s.infraOn) = true ∧ Full s ∧ ¬ Carries s .disassoc
  | .wpaDisassocApAndBlockAssoc => Full s ∧ ¬ Carries s .disassoc
  | .iwMlmeDeauth _ => ∃ k, s.cntl.waits = some k ∧ (k = .auth ∨ s.infraOn = true) ∧
      ¬ Asked k s.Queue
  | .iwMlmeDisassoc env => env.mlmeMemory = false ∧ Full s ∧ ¬ Asked .disassoc s.Queue
  | .radioOff env => (s.infraOn || s.adhocOn) = true ∧ ∃ k, s.cntl.waits = some k ∧ k ≠ .auth ∧
      ¬ Asked k s.Queue ∧ (k = .disassoc → env.mlmeMemory = false ∧ Full s)
  | _ => False

theorem handle_carried_iff (hlen : s.Queue.length ≤ maxLenOfMlmeQueue) (h : Carried s) :
    Carried (mlmeHandler env s) ↔ ¬ Orphans s (.handle env) := by
  unfold mlmeHandler
  split
  · rename_i hq
    simp [h, Orphans, hq]
  · rename_i e es hq
    have hroom : ({ s with Queue := es } : Adapter).Queue.length < maxLenOfMlmeQueue := by
      rw [hq] at hlen
      exact hlen
    rw [handleElem_carried_iff hroom fun k hk => due_of_carries hq (h k hk)]
    simp [Orphans, hq]

theorem fires_carried_iff (h : Carried s) (k : Kind) :
    Carried (step s (.fires k)) ↔ ¬ Orphans s (.fires k) := by
  show Carried (if s.armed k then timeout s k else s) ↔ _
  split
  · rename_i harmed
    have hcntl : (timeout s k).cntl = s.cntl := mlmeEnqueue_cntl
    have hone : Carried (timeout s k) ↔ ¬ ∃ k', s.cntl.waits = some k' ∧
        (k' = k ∧ Full s ∧ ¬ Asked k s.Queue ∧ Elem.timeout k ∉ s.Queue) := by
      apply carried_iff_of_cntl hcntl
      intro k' hk'
      by_cases hkind : k' = k
      · subst hkind
        rw [timeout_carries_iff (h k' hk')]
        simp
      · simp [timeout_carries_other hkind (h k' hk'), hkind]
    rw [hone]
    simp [Orphans, harmed]
  · rename_i harmed
    simp [h, Orphans, harmed]

theorem radioOff_carried_iff (h : Carried s) :
    Carried (radioOff env s) ↔ ¬ Orphans s (.radioOff env) := by
  have halike : Alike .disassoc s (mlmeDisassocReqAction env s) := mlmeDisassocReqAction_alike
  unfold radioOff
  split
  · rename_i hon
    have hone : Carried (mlmeDisassocReqAction env s) ↔ ¬ ∃ k, s.cntl.waits = some k ∧
        (k ≠ .auth ∧ ¬ Asked k s.Queue ∧ (k = .disassoc → env.mlmeMemory = false ∧ Full s)) := by
      apply carried_iff_of_cntl halike.cntl
      intro k hk
      by_cases hauth : k = .auth
      · subst hauth
        have hkept : Carries (mlmeDisassocReqAction env s) .auth :=
          halike.carries (by simp) (fun _ => mlmeDisassocReqAction_old) (h _ hk)
        simp [hkept]
      by_cases hdisassoc : k = .disassoc
      · subst hdisassoc
        rw [mlmeDisassocReqAction_carries_iff]
        tauto
      · rw [carries_iff_of_idle (mlmeDisassocReqAction_not_waiting hauth hdisassoc),
          mlmeDisassocReqAction_asked hdisassoc]
        simp [hauth, hdisassoc]
    rw [hone]
    simp [Orphans, hon]
  · rename_i hoff
    simp [h, Orphans, hoff]

/-- **A step** keeps the wait of the control machine carried exactly when it is none of those that
orphan it. -/
theorem step_carried_iff (hlen : s.Queue.length ≤ maxLenOfMlmeQueue) (h : Carried s) (op : Op) :
    Carried (step s op) ↔ ¬ Orphans s op := by
  have hkeeps {t : Adapter} {op : Op} (ht : Carried t) (hop : Orphans s op ↔ False) :
      Carried t ↔ ¬ Orphans s op := by
    simp [ht, hop]
  cases op with
  | handle env => exact handle_carried_iff hlen h
  | fires k => exact fires_carried_iff h k
  | receive f => exact hkeeps (mlmeEnqueueForRecv_carried h f) Iff.rfl
  | oid o => exact hkeeps (mlmeEnqueue_carried h) Iff.rfl
  | autoReconnect byBssid validSsid =>
      exact hkeeps (mlmeAutoReconnectLastSSID_carried _ _ h) Iff.rfl
  | reset => exact hkeeps (mlmeEnqueue_carried h) Iff.rfl
  | syncConf y Status => exact hkeeps (mlmeEnqueue_carried h) Iff.rfl
  | scan waits =>
      refine hkeeps ?_ Iff.rfl
      cases waits with
      | true => exact carried_of_waits_none rfl
      | false => exact mlmeEnqueue_carried h
  | linkDown => exact hkeeps (same_linkDown.carried h) Iff.rfl
  | linkDownExec env =>
      show Carried (if _ then _ else _) ↔ _
      split
      · rename_i hon
        rw [ask_carried_iff rfl]
        simp [Orphans, hon, Req.kind]
      · rename_i hoff
        simp [h, Orphans, hoff]
  | wpaDisassocApAndBlockAssoc =>
      have hask : Carried (step s .wpaDisassocApAndBlockAssoc)
          ↔ Carried (s.ask (.disassoc s.Bssid) .waitDisassoc) := Iff.rfl
      rw [hask, ask_carried_iff rfl]
      rfl
  | blockAssoc b =>
      refine hkeeps ?_ Iff.rfl
      exact carried_of_kept h rfl (fun k => by cases k <;> exact id) rfl fun _ he => he
  | iwMlmeDeauth env =>
      have hcntl : (iwMlmeDeauth env s).cntl = s.cntl := by
        unfold iwMlmeDeauth linkDown mlmeDeauthReqAction toIdle
        dsimp only
        split_ifs <;> simp
      exact carried_iff_of_cntl hcntl fun k hk => iwMlmeDeauth_carries_iff (h k hk)
  | iwMlmeDisassoc env =>
      have hwaits : (iwMlmeDisassoc env s).cntl.waits = some .disassoc := by
        rw [iwMlmeDisassoc, mlmeDisassocReqAction_alike.cntl]
        rfl
      exact (carried_iff_of_waits hwaits).trans mlmeDisassocReqAction_carries_iff
  | radioOff env => exact radioOff_carried_iff h

/-- A station that roams: it is with one access point still and has asked the next for an
association. -/
def roaming : Adapter :=
  { mlmeInit .infra .openSystem (List.replicate 6 3) with
    cntl := .waitAssoc
    assoc := .waitRsp
    armed := Function.update (fun _ => false) .assoc true
    Bssid := List.replicate 6 1
    infraOn := true }

/-- No allocation fails, and nothing is found. -/
def Env.plain : Env where
  chlgText := true
  cyperChlgText := true
  mlmeMemory := true
  encrypts := true
  stack :=
    { Addr2 := [], CapabilityInfo := [], Status := 0, Aid := 0, SupRate := ⟨0, fun _ => 0⟩,
      ExtRate := ⟨0, fun _ => 0⟩, HtCapability := ⟨0, fun _ => 0⟩, AddHtInfo := ⟨0, fun _ => 0⟩,
      NewExtChannelOffset := 0,
      EdcaParm := ⟨false, false, false, false, false, false, 0, fun _ => ⟨false, 0, 0, 0, 0⟩⟩,
      ExtCapInfo := 0, CkipFlag := 0 }
  radioOff := false
  radar := false
  portNotSecured := false
  BssNr := 0
  withFirstBss := false
  redo := false
  scans := false
  found := false
  firstScan := false
  scanning := false
  switches := false
  target := ([], .infra)

/-- **The machines never wait in vain** along exactly the runs without a step that orphans a wait. -/
theorem carried_iff {ops : List Op} (hlen : s.Queue.length ≤ maxLenOfMlmeQueue) (h : Carried s) :
    Always step Carried s ops ↔ Along step (fun s op => ¬ Orphans s op) s ops :=
  always_iff_along_of_inv (J := fun s => s.Queue.length ≤ maxLenOfMlmeQueue)
    (fun _ op hshort _ _ => step_short hshort op)
    (fun _ op hshort hs => step_carried_iff hshort hs op) hlen h

/-- The access point that a roaming station leaves parts with it before the next has answered: the
control machine waits for the answer from then on, and the association machine does not. -/
theorem carried_iff_roaming :
    ¬ Always step Carried roaming [.receive (.disassocReq fun _ => 1), .handle .plain] := by
  have hcarried : Carried roaming := by
    intro k hk
    cases hk
    exact Or.inr ⟨rfl, Or.inl rfl⟩
  rw [carried_iff (by decide) hcarried]
  rintro ⟨_, hkept, _⟩
  apply hkept
  refine ⟨.peer (.disassocReq fun _ => 1), [], .assoc, rfl, rfl,
    Or.inl ⟨nofun, rfl, ?_, by decide, nofun⟩⟩
  rintro ⟨e, he, _⟩
  cases he

end Runs

end ExtDrv.Rt3370.Connect
