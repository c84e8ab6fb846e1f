import ExtDrv.Lib.Memory
import ExtDrv.Lib.RingBuf
import ExtDrv.Lib.Run
import Mathlib.Data.Fintype.EquivFin
import Mathlib.Data.List.Nodup

/-!
# The MLME queue

Forty elements in a ring. A producer tests whether the ring is full in one critical
section and fills an element in the next; `MlmeHandler` takes the oldest element off
under the lock and uses it in place after that. The steps below are what happens
between two releases of the lock, in any order. That the handlers of a channel switch call
`MlmeQueueInit` again at run time is left out.
-/

namespace ExtDrv.Rt3370.MlmeQueue

open Memory RingBuf

/-- `MAX_LEN_OF_MLME_QUEUE`. -/
abbrev maxLenOfMlmeQueue : Nat := 40

def mgmtDmaBufferSize : Nat := 1600

def reservedWcid : Nat := 0xff

/-! ## Elements -/

/-- `MLME_QUEUE_ELEM`. -/
structure MlmeQueueElem where
  Msg : Mem
  Machine : Nat
  MsgType : Nat
  MsgLen : Nat
  TimeStampHigh : Nat
  TimeStampLow : Nat
  Rssi0 : Nat
  Rssi1 : Nat
  Rssi2 : Nat
  Signal : Nat
  Channel : Nat
  Wcid : Nat
  Occupied : Bool
  OpMode : Nat
  Priv : Nat

/-- What `MlmeEnqueueForRecv` gets beside the frame. `Channel` is the one latched when the element
is filled. -/
structure RxInfo where
  Wcid : Nat
  TimeStampHigh : Nat
  TimeStampLow : Nat
  Rssi0 : Nat
  Rssi1 : Nat
  Rssi2 : Nat
  Signal : Nat
  OpMode : Nat
  Channel : Nat

inductive Caller
  /-- `MlmeEnqueue` -/
  | send (Priv : Nat)
  /-- `MlmeEnqueueForRecv` -/
  | recv (rx : RxInfo)

/-- A message to be queued. `Machine` and `MsgType` of a received frame are what `MsgTypeSubst`
made of it; no `Msg` is the null pointer. -/
structure Request where
  Machine : Nat
  MsgType : Nat
  MsgLen : Nat
  Msg : Option Mem
  caller : Caller

/-- `NdisMoveMemory` into the element, unless there is no message. -/
def Request.copy (r : Request) (buf : Mem) : Mem :=
  match r.Msg with
  | none => buf
  | some m => store buf 0 (segment m 0 r.MsgLen)

/-- How the element is filled. `MlmeEnqueue` leaves what only a received frame has. -/
def Request.fill (r : Request) (e : MlmeQueueElem) : MlmeQueueElem :=
  match r.caller with
  | .send priv =>
      { e with
        Wcid := reservedWcid, Occupied := true, Machine := r.Machine, MsgType := r.MsgType,
        MsgLen := r.MsgLen, Priv := priv, Msg := r.copy e.Msg }
  | .recv rx =>
      { Msg := r.copy e.Msg, Machine := r.Machine, MsgType := r.MsgType, MsgLen := r.MsgLen,
        TimeStampHigh := rx.TimeStampHigh, TimeStampLow := rx.TimeStampLow, Rssi0 := rx.Rssi0,
        Rssi1 := rx.Rssi1, Rssi2 := rx.Rssi2, Signal := rx.Signal, Channel := rx.Channel,
        Wcid := rx.Wcid, Occupied := true, OpMode := rx.OpMode, Priv := 0 }

/-- The element is the message: all the fields the caller gave, and its bytes. -/
structure Carries (e : MlmeQueueElem) (r : Request) : Prop where
  machine : e.Machine = r.Machine
  msgType : e.MsgType = r.MsgType
  msgLen : e.MsgLen = r.MsgLen
  msg : ∀ m, r.Msg = some m → segment e.Msg 0 r.MsgLen = segment m 0 r.MsgLen
  sent : ∀ priv, r.caller = .send priv → e.Wcid = reservedWcid ∧ e.Priv = priv
  received : ∀ rx, r.caller = .recv rx → e.Priv = 0 ∧
    (⟨e.Wcid, e.TimeStampHigh, e.TimeStampLow, e.Rssi0, e.Rssi1, e.Rssi2, e.Signal, e.OpMode,
      e.Channel⟩ : RxInfo) = rx

theorem Request.carries_fill (r : Request) (e : MlmeQueueElem) : Carries (r.fill e) r := by
  have hmsg (buf m : Mem) (h : r.Msg = some m) :
      segment (r.copy buf) 0 r.MsgLen = segment m 0 r.MsgLen := by
    have hself := segment_store_self buf 0 (segment m 0 r.MsgLen)
    rw [length_segment] at hself
    rw [Request.copy, h]
    exact hself
  obtain ⟨machine, msgType, msgLen, msg, caller⟩ := r
  cases caller with
  | send priv =>
    refine ⟨rfl, rfl, rfl, hmsg _, fun p hp => ?_, fun rx hrx => Caller.noConfusion hrx⟩
    obtain rfl : priv = p := Caller.send.inj hp
    exact ⟨rfl, rfl⟩
  | recv rx =>
    refine ⟨rfl, rfl, rfl, hmsg _, fun p hp => Caller.noConfusion hp, fun rx' hrx => ?_⟩
    obtain rfl : rx = rx' := Caller.recv.inj hrx
    exact ⟨rfl, rfl⟩

/-- `Occupied` is no part of the message. -/
theorem Carries.occupied {e : MlmeQueueElem} {r : Request} (h : Carries e r) (b : Bool) :
    Carries { e with Occupied := b } r :=
  ⟨h.machine, h.msgType, h.msgLen, h.msg, h.sent, h.received⟩

/-! ## The queue -/

/-- `MLME_QUEUE`. -/
structure Queue where
  Num : Nat
  Head : Fin maxLenOfMlmeQueue
  Tail : Fin maxLenOfMlmeQueue
  Entry : Fin maxLenOfMlmeQueue → MlmeQueueElem

def mlmeQueueEmpty (q : Queue) : Bool := q.Num == 0

/-- A received frame is only taken into a half empty ring, and into a free element. -/
def mlmeQueueFull (q : Queue) : Caller → Bool
  | .recv _ => decide (maxLenOfMlmeQueue / 2 ≤ q.Num) || (q.Entry q.Tail).Occupied
  | .send _ => q.Num == maxLenOfMlmeQueue

/-- The second critical section of the two enqueue functions. -/
def Queue.insert (q : Queue) (r : Request) : Queue where
  Num := q.Num + 1
  Head := q.Head
  Tail := wrapSucc q.Tail
  Entry := Function.update q.Entry q.Tail (r.fill (q.Entry q.Tail))

/-- `MlmeDequeue`; the element is the one at the old head. -/
def mlmeDequeue (q : Queue) : Queue :=
  { q with Num := q.Num - 1, Head := wrapSucc q.Head }

def Queue.setOccupied (q : Queue) (i : Fin maxLenOfMlmeQueue) (b : Bool) : Queue :=
  { q with Entry := Function.update q.Entry i { q.Entry i with Occupied := b } }

def Queue.setMsgLen (q : Queue) (i : Fin maxLenOfMlmeQueue) (len : Nat) : Queue :=
  { q with Entry := Function.update q.Entry i { q.Entry i with MsgLen := len } }

section

variable {q : Queue} {i j : Fin maxLenOfMlmeQueue} {r : Request}

theorem Queue.insert_tail : (q.insert r).Entry q.Tail = r.fill (q.Entry q.Tail) :=
  Function.update_self ..

theorem Queue.insert_of_ne (h : i ≠ q.Tail) : (q.insert r).Entry i = q.Entry i :=
  Function.update_of_ne h ..

theorem Queue.setMsgLen_of_ne {len : Nat} (h : j ≠ i) :
    (q.setMsgLen i len).Entry j = q.Entry j :=
  Function.update_of_ne h ..

theorem Queue.carries_setOccupied {b : Bool} (h : Carries (q.Entry j) r) :
    Carries ((q.setOccupied i b).Entry j) r := by
  show Carries (Function.update q.Entry i { q.Entry i with Occupied := b } j) r
  by_cases hij : j = i
  · subst hij
    rw [Function.update_self]
    exact h.occupied b
  · rw [Function.update_of_ne hij]
    exact h

end

/-! ## Producers and the handler -/

/-- Where the loop of `MlmeHandler` is. -/
inductive Handler
  /-- before the test of the `while` -/
  | loop
  /-- the queue was not empty -/
  | nonEmpty
  /-- the element is being used -/
  | handling (i : Fin maxLenOfMlmeQueue)
  /-- `Occupied` is cleared, `MsgLen` not yet -/
  | freed (i : Fin maxLenOfMlmeQueue)

structure State where
  queue : Queue
  /-- The message of a producer that has found the queue not full. -/
  producers : Nat → Option Request
  handler : Handler
  /-- The messages taken in so far, in the order of their insertion. -/
  accepted : List Request
  /-- The elements the handler is done with, as it used them. -/
  processed : List MlmeQueueElem

inductive Action
  /-- A producer tests size and queue. -/
  | check (p : Nat) (r : Request)
  /-- It fills an element. -/
  | insert (p : Nat)
  /-- `MsgTypeSubst` does not know the frame. -/
  | giveUp (p : Nat)
  | test
  /-- A reset or a halt ends the loop. -/
  | leave
  | dequeue
  | free
  | clear

/-- A producer that is stopped by the halt flag does not get to `check`. -/
def step (s : State) : Action → State
  | .check p r =>
      if s.producers p = none ∧ r.MsgLen ≤ mgmtDmaBufferSize
          ∧ mlmeQueueFull s.queue r.caller = false then
        { s with producers := Function.update s.producers p (some r) }
      else s
  | .insert p =>
      match s.producers p with
      | none => s
      | some r =>
          { s with
            queue := s.queue.insert r, producers := Function.update s.producers p none,
            accepted := s.accepted ++ [r] }
  | .giveUp p => { s with producers := Function.update s.producers p none }
  | .test =>
      match s.handler with
      | .loop => if mlmeQueueEmpty s.queue then s else { s with handler := .nonEmpty }
      | _ => s
  | .leave =>
      match s.handler with
      | .nonEmpty => { s with handler := .loop }
      | _ => s
  | .dequeue =>
      match s.handler with
      | .nonEmpty => { s with queue := mlmeDequeue s.queue, handler := .handling s.queue.Head }
      | _ => s
  | .free =>
      match s.handler with
      | .handling i => { s with queue := s.queue.setOccupied i false, handler := .freed i }
      | _ => s
  | .clear =>
      match s.handler with
      | .freed i =>
          { s with
            queue := s.queue.setMsgLen i 0, handler := .loop,
            processed := s.processed ++ [s.queue.Entry i] }
      | _ => s

/-- The queue `MlmeQueueInit` leaves, whatever the memory held. -/
def mlmeQueueInit (mem : Fin maxLenOfMlmeQueue → MlmeQueueElem) : Queue where
  Num := 0
  Head := 0
  Tail := 0
  Entry i := { mem i with Occupied := false, MsgLen := 0, Msg := fun _ => 0 }

def start (mem : Fin maxLenOfMlmeQueue → MlmeQueueElem) : State :=
  ⟨mlmeQueueInit mem, fun _ => none, .loop, [], []⟩

/-! ## What is asked of it -/

/-- The element the handler has in its hands. -/
def Handler.used : Handler → List (Fin maxLenOfMlmeQueue)
  | .handling i | .freed i => [i]
  | .loop | .nonEmpty => []

/-- The elements that are handled or queued, oldest first. -/
def State.live (s : State) : List (Fin maxLenOfMlmeQueue) :=
  s.handler.used ++ slotsFrom s.queue.Head s.queue.Num

/-- **The queue in order.** -/
structure Sound (s : State) : Prop where
  bounded : s.queue.Num ≤ maxLenOfMlmeQueue
  /-- No element is filled again while it is queued or handled. -/
  apart : s.live.Nodup
  /-- The handler has had the oldest messages, and the elements carry the others. -/
  inOrder : List.Forall₂ Carries (s.processed ++ s.live.map s.queue.Entry) s.accepted

/-- A producer finds room when it fills its element, not only when it has tested. -/
def HasRoom (s : State) : Action → Prop
  | .insert p => s.producers p ≠ none → s.live.length < maxLenOfMlmeQueue
  | _ => True

/-! ## The shape of the ring

Head, tail and count stay in step whatever the producers do. -/

structure Shape (s : State) : Prop where
  tail : s.queue.Tail = slotAt s.queue.Head s.queue.Num
  used : ∀ i ∈ s.handler.used, wrapSucc i = s.queue.Head
  nonEmpty : s.handler = .nonEmpty → 0 < s.queue.Num

theorem shape_start (mem : Fin maxLenOfMlmeQueue → MlmeQueueElem) : Shape (start mem) :=
  ⟨rfl, fun _ hi => (List.not_mem_nil hi).elim, fun h => by cases h⟩

variable {s : State}

/-- The live elements are a stretch of the ring, and the tail is the slot behind it. -/
theorem Shape.live (h : Shape s) :
    ∃ base, s.live = slotsFrom base s.live.length ∧ s.queue.Tail = slotAt base s.live.length := by
  rcases hused : s.handler.used with _ | ⟨i, rest⟩
  · refine ⟨s.queue.Head, ?_, ?_⟩
    · simp [State.live, hused]
    · simpa [State.live, hused] using h.tail
  · have hrest : rest = [] := by
      cases hh : s.handler <;> simp_all [Handler.used]
    have hhead : wrapSucc i = s.queue.Head := h.used i (hused ▸ List.mem_cons_self)
    have hlive : s.live = slotsFrom i (s.queue.Num + 1) := by
      rw [State.live, hused, hrest, slotsFrom_succ_left, hhead]
      rfl
    refine ⟨i, ?_, ?_⟩
    · rw [hlive, length_slotsFrom]
    · rw [hlive, length_slotsFrom, h.tail, ← hhead, slotAt_wrapSucc]

/-- With room in the ring the tail is a free element. -/
theorem Shape.tail_free (h : Shape s) (hroom : s.live.length < maxLenOfMlmeQueue) :
    s.live.Nodup ∧ s.queue.Tail ∉ s.live := by
  obtain ⟨base, hlive, htail⟩ := h.live
  have hnodup : (slotsFrom base (s.live.length + 1)).Nodup := nodup_slotsFrom hroom
  rw [slotsFrom_succ, ← hlive, ← htail] at hnodup
  obtain ⟨hleft, -, hdisj⟩ := List.nodup_append.mp hnodup
  exact ⟨hleft, fun hmem => hdisj _ hmem _ List.mem_cons_self rfl⟩

theorem step_shape (h : Shape s) (a : Action) : Shape (step s a) := by
  cases a with
  | check p r =>
    simp only [step]
    split
    · exact ⟨h.tail, h.used, h.nonEmpty⟩
    · exact h
  | insert p =>
    simp only [step]
    split
    · exact h
    · exact ⟨by rw [Queue.insert, h.tail, wrapSucc_slotAt], h.used, fun _ => Nat.succ_pos _⟩
  | giveUp p => exact ⟨h.tail, h.used, h.nonEmpty⟩
  | test =>
    simp only [step]
    split
    · split
      · exact h
      · rename_i hempty
        refine ⟨h.tail, fun i hi => (List.not_mem_nil hi).elim, fun _ => ?_⟩
        exact Nat.pos_of_ne_zero (by simpa [mlmeQueueEmpty] using hempty)
    · exact h
  | leave =>
    simp only [step]
    split
    · exact ⟨h.tail, fun i hi => (List.not_mem_nil hi).elim, fun hn => by cases hn⟩
    · exact h
  | dequeue =>
    simp only [step]
    split
    · rename_i hhandler
      have hpos := h.nonEmpty hhandler
      refine ⟨?_, ?_, fun hn => by cases hn⟩
      · rw [mlmeDequeue, slotAt_wrapSucc, Nat.sub_add_cancel hpos]
        exact h.tail
      · intro i hi
        rw [List.mem_singleton.mp hi]
        rfl
    · exact h
  | free =>
    simp only [step]
    split
    · rename_i i hhandler
      have hused : s.handler.used = [i] := by rw [hhandler]; rfl
      exact ⟨h.tail, fun j hj => h.used j (hused ▸ hj), fun hn => by cases hn⟩
    · exact h
  | clear =>
    simp only [step]
    split
    · exact ⟨h.tail, fun i hi => (List.not_mem_nil hi).elim, fun hn => by cases hn⟩
    · exact h

/-! ## What a step does to the live elements -/

theorem Sound.congr {s' : State} (h : Sound s) (hnum : s'.queue.Num ≤ s.queue.Num)
    (hlive : s'.live = s.live)
    (hseen : s'.processed ++ s.live.map s'.queue.Entry = s.processed ++ s.live.map s.queue.Entry)
    (haccepted : s'.accepted = s.accepted) : Sound s' where
  bounded := hnum.trans h.bounded
  apart := hlive ▸ h.apart
  inOrder := by
    rw [hlive, hseen, haccepted]
    exact h.inOrder

/-- The elements that carry the messages may change in what is no part of a message. -/
theorem forall₂_carries_map {f g : Fin maxLenOfMlmeQueue → MlmeQueueElem}
    (hfg : ∀ i r, Carries (f i) r → Carries (g i) r) {processed : List MlmeQueueElem}
    {slots : List (Fin maxLenOfMlmeQueue)} {rs : List Request}
    (h : List.Forall₂ Carries (processed ++ slots.map f) rs) :
    List.Forall₂ Carries (processed ++ slots.map g) rs := by
  induction processed generalizing rs with
  | nil =>
    rw [List.nil_append, List.forall₂_map_left_iff] at h ⊢
    exact h.imp hfg
  | cons e es ih =>
    rcases rs with _ | ⟨r, rs⟩
    · cases h
    · obtain ⟨hhead, htail⟩ := List.forall₂_cons.mp h
      exact .cons hhead (ih htail)

/-- **Insertion**: the tail joins the live elements. -/
theorem sound_insert (hshape : Shape s) (h : Sound s) {p : Nat} {r : Request}
    (hp : s.producers p = some r) :
    Sound (step s (.insert p)) ↔ s.live.length < maxLenOfMlmeQueue := by
  have hstep : step s (.insert p) = { s with
      queue := s.queue.insert r, producers := Function.update s.producers p none,
      accepted := s.accepted ++ [r] } := by
    simp only [step, hp]
  have hlive : (step s (.insert p)).live = s.live ++ [s.queue.Tail] := by
    rw [hstep, State.live, Queue.insert, slotsFrom_succ, ← List.append_assoc, hshape.tail]
    rfl
  constructor
  · intro hnext
    have hlen : (s.live ++ [s.queue.Tail]).length ≤ Fintype.card (Fin maxLenOfMlmeQueue) :=
      (hlive ▸ hnext.apart).length_le_card
    rw [Fintype.card_fin, List.length_append, List.length_singleton] at hlen
    exact hlen
  · intro hroom
    obtain ⟨hnodup, hfree⟩ := hshape.tail_free hroom
    have hapart : (s.live ++ [s.queue.Tail]).Nodup :=
      List.nodup_append.mpr ⟨hnodup, List.nodup_singleton _, fun i hi j hj hij =>
        hfree (List.mem_singleton.mp hj ▸ hij ▸ hi)⟩
    refine ⟨?_, hlive ▸ hapart, ?_⟩
    · have hlen : s.queue.Num ≤ s.live.length := by simp [State.live]
      rw [hstep]
      show s.queue.Num + 1 ≤ _
      omega
    · -- the elements that were live are not touched, the new one carries the message
      have hold : s.live.map (s.queue.insert r).Entry = s.live.map s.queue.Entry :=
        List.map_congr_left fun i hi =>
          Queue.insert_of_ne fun heq => hfree (heq ▸ hi)
      rw [hlive, hstep]
      show List.Forall₂ Carries (s.processed ++ (s.live ++ [s.queue.Tail]).map
        (s.queue.insert r).Entry) (s.accepted ++ [r])
      rw [List.map_append, hold, List.map_singleton, Queue.insert_tail,
        ← List.append_assoc]
      exact List.rel_append h.inOrder (.cons (r.carries_fill _) .nil)

theorem sound_free (h : Sound s) : Sound (step s .free) := by
  simp only [step]
  split
  · rename_i i hhandler
    have hlive : State.live { s with queue := s.queue.setOccupied i false, handler := .freed i }
        = s.live := by
      rw [State.live, State.live, hhandler]
      rfl
    refine ⟨h.bounded, hlive ▸ h.apart, ?_⟩
    rw [hlive]
    exact forall₂_carries_map (fun j r hj => Queue.carries_setOccupied hj) h.inOrder
  · exact h

/-- The handler is done with the oldest element; the queued ones are others. -/
theorem sound_clear (h : Sound s) : Sound (step s .clear) := by
  simp only [step]
  split
  · rename_i i hhandler
    have hlive : s.live = i :: slotsFrom s.queue.Head s.queue.Num := by
      rw [State.live, hhandler]
      rfl
    have hapart := h.apart
    have horder := h.inOrder
    rw [hlive] at hapart horder
    obtain ⟨hout, hnodup⟩ := List.nodup_cons.mp hapart
    refine ⟨h.bounded, hnodup, ?_⟩
    have hold : (slotsFrom s.queue.Head s.queue.Num).map (s.queue.setMsgLen i 0).Entry
        = (slotsFrom s.queue.Head s.queue.Num).map s.queue.Entry :=
      List.map_congr_left fun j hj =>
        Queue.setMsgLen_of_ne fun heq => hout (heq ▸ hj)
    show List.Forall₂ Carries (s.processed ++ [s.queue.Entry i]
      ++ (slotsFrom s.queue.Head s.queue.Num).map (s.queue.setMsgLen i 0).Entry) s.accepted
    rw [hold, List.append_assoc]
    exact horder
  · exact h

/-- The head leaves the queue and is handled. -/
theorem sound_dequeue (hshape : Shape s) (h : Sound s) : Sound (step s .dequeue) := by
  simp only [step]
  split
  · rename_i hhandler
    refine h.congr (Nat.sub_le _ _) ?_ rfl rfl
    rw [State.live, State.live, hhandler]
    show s.queue.Head :: slotsFrom (wrapSucc s.queue.Head) (s.queue.Num - 1)
      = slotsFrom s.queue.Head s.queue.Num
    rw [← slotsFrom_succ_left, Nat.sub_add_cancel (hshape.nonEmpty hhandler)]
  · exact h

/-- **One step**: the queue stays in order exactly when an insertion finds room. -/
theorem step_sound (hshape : Shape s) (h : Sound s) (a : Action) :
    Sound (step s a) ↔ HasRoom s a := by
  cases a with
  | check p r =>
    refine iff_of_true ?_ trivial
    simp only [step]
    split
    · exact h.congr (Nat.le_refl _) rfl rfl rfl
    · exact h
  | insert p =>
    cases hp : s.producers p with
    | none =>
      have hstay : step s (.insert p) = s := by simp only [step, hp]
      exact iff_of_true (hstay.symm ▸ h) fun hne => (hne hp).elim
    | some r =>
      have hsome : s.producers p ≠ none := hp ▸ Option.some_ne_none r
      exact (sound_insert hshape h hp).trans ⟨fun hroom _ => hroom, fun hroom => hroom hsome⟩
  | giveUp p => exact iff_of_true (h.congr (Nat.le_refl _) rfl rfl rfl) trivial
  | test =>
    refine iff_of_true ?_ trivial
    simp only [step]
    split
    · rename_i hhandler
      split
      · exact h
      · exact h.congr (Nat.le_refl _) (by rw [State.live, State.live, hhandler]; rfl) rfl rfl
    · exact h
  | leave =>
    refine iff_of_true ?_ trivial
    simp only [step]
    split
    · rename_i hhandler
      exact h.congr (Nat.le_refl _) (by rw [State.live, State.live, hhandler]; rfl) rfl rfl
    · exact h
  | dequeue => exact iff_of_true (sound_dequeue hshape h) trivial
  | free => exact iff_of_true (sound_free h) trivial
  | clear => exact iff_of_true (sound_clear h) trivial

theorem sound_start (mem : Fin maxLenOfMlmeQueue → MlmeQueueElem) : Sound (start mem) :=
  ⟨Nat.zero_le _, List.nodup_nil, .nil⟩

theorem always_sound {as : List Action} (hshape : Shape s) (h : Sound s) :
    Run.Always step Sound s as ↔ Run.Along step HasRoom s as :=
  Run.always_iff_along_of_inv (fun _ a hs _ _ => step_shape hs a)
    (fun _ a hs h => step_sound hs h a) hshape h

/-- **The MLME queue**: over any run of any number of producers and the handler, the queue is in
order throughout exactly when every insertion still finds an element that is neither queued nor
handled. -/
theorem mlmeQueue_iff (mem : Fin maxLenOfMlmeQueue → MlmeQueueElem) (as : List Action) :
    Run.Always step Sound (start mem) as ↔ Run.Along step HasRoom (start mem) as :=
  always_sound (shape_start mem) (sound_start mem)

/-! ## A ring that is nearly full

`MlmeEnqueue` asks only for the count, which no longer has the element being handled. -/

/-- A message without content. -/
def signal : Request := ⟨0, 0, 0, none, .send 0⟩

/-- A call of `MlmeEnqueue` that nothing interrupts. -/
def enqueue : List Action := [.check 0 signal, .insert 0]

def calls (k : Nat) : List Action := (List.replicate k enqueue).flatten

structure Filled (k : Nat) (s : State) : Prop where
  num : s.queue.Num = k
  idle : s.producers 0 = none
  handler : s.handler = .loop

/-- The check of `MlmeEnqueue` passes unless all forty are queued. -/
theorem step_check (hidle : s.producers 0 = none) (hnum : s.queue.Num ≠ maxLenOfMlmeQueue) :
    step s (.check 0 signal)
      = { s with producers := Function.update s.producers 0 (some signal) } := by
  have hfull : mlmeQueueFull s.queue signal.caller = false := beq_eq_false_iff_ne.mpr hnum
  exact if_pos ⟨hidle, Nat.zero_le _, hfull⟩

theorem Filled.next {k : Nat} (h : Filled k s) (hk : k < maxLenOfMlmeQueue) :
    Filled (k + 1) (Run.exec step s enqueue) := by
  have hcheck := step_check h.idle (h.num ▸ Nat.ne_of_lt hk)
  have hexec : Run.exec step s enqueue = step (step s (.check 0 signal)) (.insert 0) := rfl
  rw [hexec, hcheck]
  simp only [step, Function.update_self]
  exact ⟨congrArg (· + 1) h.num, rfl, h.handler⟩

theorem filled_calls (mem : Fin maxLenOfMlmeQueue → MlmeQueueElem) {k : Nat}
    (hk : k ≤ maxLenOfMlmeQueue) : Filled k (Run.exec step (start mem) (calls k)) := by
  induction k with
  | zero => exact ⟨rfl, rfl, rfl⟩
  | succ k ih =>
    have hsplit : calls (k + 1) = calls k ++ enqueue := by
      simp [calls, List.replicate_succ']
    rw [hsplit, Run.exec_append]
    exact (ih (Nat.le_of_succ_le hk)).next hk

/-- Once the handler has taken the first of forty messages, the next one is put over it. -/
theorem Filled.not_hasRoom (h : Filled maxLenOfMlmeQueue s) :
    ¬ Run.Along step HasRoom s ([.test, .dequeue] ++ enqueue) := by
  have hdequeue : Run.exec step s [.test, .dequeue]
      = { s with queue := mlmeDequeue s.queue, handler := .handling s.queue.Head } := by
    simp [step, h.handler, mlmeQueueEmpty, h.num]
  have hcheck : step { s with queue := mlmeDequeue s.queue, handler := .handling s.queue.Head }
      (.check 0 signal) = _ :=
    step_check h.idle (by simp [mlmeDequeue, h.num])
  rw [Run.along_append, hdequeue]
  rintro ⟨-, -, hinsert, -⟩
  rw [hcheck] at hinsert
  have hlen := hinsert (by simp)
  simp [State.live, Handler.used, mlmeDequeue, h.num] at hlen

/-- **A handled element is overwritten**: forty messages are queued, the handler takes one, and
`MlmeEnqueue` takes in another. -/
theorem mlmeQueue_broken :
    ¬ ∀ mem as, Run.Always step Sound (start mem) as := by
  intro hall
  obtain ⟨mem⟩ : Nonempty (Fin maxLenOfMlmeQueue → MlmeQueueElem) :=
    ⟨fun _ => ⟨fun _ => 0, 0, 0, 0, 0, 0, 0, 0, 0, 0, 0, 0, false, 0, 0⟩⟩
  have halong := (always_sound (shape_start mem) (sound_start mem)).mp
    (hall mem (calls maxLenOfMlmeQueue ++ ([.test, .dequeue] ++ enqueue)))
  rw [Run.along_append] at halong
  exact (filled_calls mem (Nat.le_refl _)).not_hasRoom halong.2

end ExtDrv.Rt3370.MlmeQueue
