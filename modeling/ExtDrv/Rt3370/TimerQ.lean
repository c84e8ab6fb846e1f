import ExtDrv.Lib.Chain
import ExtDrv.Lib.Run
import Mathlib.Data.BitVec
import Mathlib.Data.List.FinRange

/-!
# The timer task queue

`common/rtmp_timer.c`: timers that fired are queued for a thread that calls their
handlers. The entries come from a pool and are linked through `pNext`, in the queue or
in the list of free ones. What is done under `TimerQLock` is one step here, and the
thread's steps outside it are steps of their own.

Each insertion has a number, its ticket, that goes with the entry: it is what order and
executions are counted by, and no code reads it.
-/

namespace ExtDrv.Rt3370

open Chain Run

namespace TimerQ

/-! ## The queue -/

/-- `TIMER_QUEUE_SIZE_MAX`. -/
abbrev timerQueueSizeMax : Nat := 128

/-- A pointer to an entry of the pool. -/
abbrev EntryPtr := Option (Fin timerQueueSizeMax)

/-- `RTMP_TIMER_TASK_ENTRY`, and the ticket of the insertion it was used for. -/
structure TimerTaskEntry where
  pRaTimer : Option Nat
  pNext : EntryPtr
  ticket : Nat
  deriving DecidableEq, Repr

abbrev RTMP_TASK_STAT_INITED : BitVec 32 := 1
abbrev RTMP_TASK_STAT_STOPED : BitVec 32 := 4
abbrev RTMP_TASK_CAN_DO_INSERT : BitVec 32 := 1 ||| 2

/-- `RTMP_TIMER_TASK_QUEUE`, with the entries of `pTimerQPoll`. -/
structure TimerTaskQueue where
  status : BitVec 32
  pool : Fin timerQueueSizeMax → TimerTaskEntry
  pQPollFreeList : EntryPtr
  pQHead : EntryPtr
  pQTail : EntryPtr

namespace TimerTaskQueue

/-- The links between the entries. -/
def next (q : TimerTaskQueue) (e : Fin timerQueueSizeMax) : EntryPtr := (q.pool e).pNext

/-- `e->pNext = p`. -/
def setNext (q : TimerTaskQueue) (e : Fin timerQueueSizeMax) (p : EntryPtr) : TimerTaskQueue :=
  { q with pool := Function.update q.pool e { q.pool e with pNext := p } }

/-- The entry goes back to `pQPollFreeList`. -/
def giveBack (q : TimerTaskQueue) (e : Fin timerQueueSizeMax) : TimerTaskQueue :=
  { q.setNext e q.pQPollFreeList with pQPollFreeList := some e }

/-- The first free entry is taken for a timer. -/
def fill (q : TimerTaskQueue) (pQNode : Fin timerQueueSizeMax) (pTimer ticket : Nat) :
    TimerTaskQueue :=
  { q with
    pQPollFreeList := q.next pQNode,
    pool := Function.update q.pool pQNode ⟨some pTimer, none, ticket⟩ }

/-- The entry is linked behind `pQTail`. -/
def append (q : TimerTaskQueue) (pQNode : Fin timerQueueSizeMax) : TimerTaskQueue :=
  let linked := match q.pQTail with
    | some pQTail => q.setNext pQTail (some pQNode)
    | none => q
  { linked with
    pQTail := some pQNode,
    pQHead := if q.pQHead = none then some pQNode else q.pQHead }

/-- The entry is taken out behind `pPrev`. -/
def unlink (q : TimerTaskQueue) (pNode : Fin timerQueueSizeMax) (pPrev : EntryPtr) :
    TimerTaskQueue :=
  let linked := match pPrev with
    | some pPrev => q.setNext pPrev (q.next pNode)
    | none => q
  { linked with
    pQHead := if q.pQHead = some pNode then q.next pNode else q.pQHead,
    pQTail := if q.pQTail = some pNode then pPrev else q.pQTail }

/-- The entry is taken off the head. -/
def unlinkHead (q : TimerTaskQueue) (pEntry : Fin timerQueueSizeMax) : TimerTaskQueue :=
  { q with
    pQHead := q.next pEntry,
    pQTail := if some pEntry = q.pQTail then none else q.pQTail }

end TimerTaskQueue

/-- `RtmpTimerQInit`, when there is memory for the pool. -/
def rtmpTimerQInit : TimerTaskQueue :=
  let zero : TimerTaskEntry := ⟨none, none, 0⟩
  let r := (List.finRange timerQueueSizeMax).foldl
    (fun (r : (Fin timerQueueSizeMax → TimerTaskEntry) × EntryPtr) pQNode =>
      (Function.update r.1 pQNode { r.1 pQNode with pNext := r.2 }, some pQNode))
    (fun _ => zero, none)
  { status := RTMP_TASK_STAT_INITED, pool := r.1, pQPollFreeList := r.2, pQHead := none,
    pQTail := none }

/-- `RtmpTimerQInsert`: the entry it returns, and the queue. -/
def rtmpTimerQInsert (q : TimerTaskQueue) (pTimer ticket : Nat) : EntryPtr × TimerTaskQueue :=
  if q.status &&& RTMP_TASK_CAN_DO_INSERT ≠ 0 then
    match q.pQPollFreeList with
    | none => (none, q)
    | some pQNode => (some pQNode, (q.fill pQNode pTimer ticket).append pQNode)
  else (none, q)

/-- `RtmpTimerQRemove`: the entry it takes out, if there is one, and the queue. -/
def rtmpTimerQRemove (q : TimerTaskQueue) (pTimer : Nat) :
    Option TimerTaskEntry × TimerTaskQueue :=
  if RTMP_TASK_STAT_INITED ≤ q.status then
    match seek q.next (fun e => (q.pool e).pRaTimer = some pTimer) timerQueueSizeMax q.pQHead
      none with
    | (none, _) => (none, q)
    | (some pNode, pPrev) => (some (q.pool pNode), (q.unlink pNode pPrev).giveBack pNode)
  else (none, q)

/-- What `RtmpTimerQHandle` does under the lock: the entry it takes off the queue. -/
def handleTake (q : TimerTaskQueue) : Option TimerTaskEntry × TimerTaskQueue :=
  match q.pQHead with
  | none => (none, q)
  | some pEntry => (some (q.pool pEntry), (q.unlinkHead pEntry).giveBack pEntry)

/-! ## The thread, and those who insert and remove -/

/-- Where the thread is in `RtmpTimerQHandle`. -/
inductive Pc
  /-- at the top of the outer loop -/
  | wait
  /-- in front of the test of `pQHead` -/
  | test
  /-- behind it, in front of the lock -/
  | take
  /-- behind the lock -/
  | run
  /-- behind the inner loop -/
  | after
  | exit
  deriving DecidableEq, Repr

/-- The queue, the thread with its local variables, and what has happened: the timers in the
order of their insertions, the tickets of those that were removed, and the timers whose
handlers were called, with their tickets. -/
structure State where
  q : TimerTaskQueue
  pc : Pc
  status : Int
  pTimer : Option (Nat × Nat)
  inserted : List Nat
  removed : List Nat
  executed : List (Nat × Nat)

/-- A step. What the thread finds outside the queue is part of it: whether the task is killed
and what the wait returned, whether the timer has a handle and the adapter is suspended.
A timer that is to be repeated is armed again after its handler, and then fires, if it
does, by an insertion of its own. -/
inductive Act
  | insert (pTimer : Nat)
  | remove (pTimer : Nat)
  | wait (killed ok : Bool) (status : Int)
  | test
  | take
  | run (handle pmFlgSuspend : Bool)
  | after
  deriving DecidableEq, Repr

/-- A step of the whole, if it can be made. -/
def step (s : State) : Act → Option State
  | .insert pTimer =>
      let r := rtmpTimerQInsert s.q pTimer s.inserted.length
      if r.1 = none then some { s with q := r.2 }
      else some { s with q := r.2, inserted := s.inserted ++ [pTimer] }
  | .remove pTimer =>
      match rtmpTimerQRemove s.q pTimer with
      | (none, q) => some { s with q := q }
      | (some e, q) => some { s with q := q, removed := e.ticket :: s.removed }
  | .wait killed ok status =>
      if s.pc ≠ .wait then none
      else if killed then some { s with pc := .exit }
      else if !ok then some { s with pTimer := none, status := status, pc := .exit }
      else if s.q.status = RTMP_TASK_STAT_STOPED then
        some { s with pTimer := none, status := status, pc := .exit }
      else some { s with pTimer := none, status := status, pc := .test }
  | .test =>
      if s.pc ≠ .test then none
      else some { s with pc := if s.q.pQHead = none then .after else .take }
  | .take =>
      if s.pc ≠ .take then none
      else
        match handleTake s.q with
        | (none, q) => some { s with q := q, pc := .run }
        | (some e, q) =>
            some { s with q := q, pc := .run, pTimer := e.pRaTimer.map fun t => (t, e.ticket) }
  | .run handle pmFlgSuspend =>
      if s.pc ≠ .run then none
      else
        match s.pTimer with
        | some timer =>
            if handle && !pmFlgSuspend then
              some { s with executed := s.executed ++ [timer], pc := .test }
            else some { s with pc := .test }
        | none => some { s with pc := .test }
  | .after =>
      if s.pc ≠ .after then none
      else if s.status ≠ 0 then
        some { s with q := { s.q with status := RTMP_TASK_STAT_STOPED }, pc := .exit }
      else some { s with pc := .wait }

/-- The queue is initialised and the thread has started. -/
def start : State where
  q := rtmpTimerQInit
  pc := .wait
  status := 0
  pTimer := none
  inserted := []
  removed := []
  executed := []

end TimerQ

end ExtDrv.Rt3370
