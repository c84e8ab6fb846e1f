import ExtDrv.Rt3370.TimerQ

/-!
# Which timers are called, and when

The queue is a list of timers with their tickets: an insertion appends one, a removal
takes the first one of a timer out, and the thread takes the first one of all. That
much holds whatever the order of the steps. The thread keeps `pTimer` from one turn of
its inner loop to the next: where a removal empties the queue behind its test of
`pQHead`, it calls the handler of the turn before once more.
-/

namespace ExtDrv.Rt3370.TimerQ

open Chain Run

/-! ## The lists of the queue -/

namespace TimerTaskQueue

/-- The timer of an entry, and its ticket. -/
def item (q : TimerTaskQueue) (e : Fin timerQueueSizeMax) : Option Nat × Nat :=
  ((q.pool e).pRaTimer, (q.pool e).ticket)

theorem next_setNext (q : TimerTaskQueue) (e : Fin timerQueueSizeMax) (p : EntryPtr) :
    (q.setNext e p).next = Function.update q.next e p := by
  funext i
  by_cases h : i = e
  · subst h
    simp [next, setNext]
  · simp [next, setNext, h]

theorem item_setNext (q : TimerTaskQueue) (e : Fin timerQueueSizeMax) (p : EntryPtr) :
    (q.setNext e p).item = q.item := by
  funext i
  by_cases h : i = e
  · subst h
    simp [item, setNext]
  · simp [item, setNext, h]

theorem next_fill (q : TimerTaskQueue) (n : Fin timerQueueSizeMax) (pTimer ticket : Nat) :
    (q.fill n pTimer ticket).next = Function.update q.next n none := by
  funext i
  by_cases h : i = n
  · subst h
    simp [next, fill]
  · simp [next, fill, h]

theorem item_fill (q : TimerTaskQueue) (n : Fin timerQueueSizeMax) (pTimer ticket : Nat) :
    (q.fill n pTimer ticket).item = Function.update q.item n (some pTimer, ticket) := by
  funext i
  by_cases h : i = n
  · subst h
    simp [item, fill]
  · simp [item, fill, h]

/-- The queue is `xs` and the free entries are `fs`, and they are the pool. -/
structure Holds (q : TimerTaskQueue) (xs fs : List (Fin timerQueueSizeMax)) : Prop where
  queue : Linked q.next q.pQHead xs
  tail : q.pQTail = xs.getLast?
  free : Linked q.next q.pQPollFreeList fs
  pool : (xs ++ fs).Perm (List.finRange timerQueueSizeMax)

/-- The items of the queue, from the head on. -/
def Represents (q : TimerTaskQueue) (c : List (Option Nat × Nat)) : Prop :=
  ∃ xs fs, q.Holds xs fs ∧ xs.map q.item = c

variable {q : TimerTaskQueue} {xs fs : List (Fin timerQueueSizeMax)}

theorem Holds.nodup (h : q.Holds xs fs) : (xs ++ fs).Nodup :=
  h.pool.nodup_iff.mpr (List.nodup_finRange _)

theorem Holds.length_le (h : q.Holds xs fs) : xs.length ≤ timerQueueSizeMax := by
  have := h.pool.length_eq
  rw [List.length_append, List.length_finRange] at this
  omega

/-- An entry that is in neither list goes back. -/
theorem giveBack_holds {e : Fin timerQueueSizeMax} (hqueue : Linked q.next q.pQHead xs)
    (htail : q.pQTail = xs.getLast?) (hfree : Linked q.next q.pQPollFreeList fs)
    (hpool : (e :: (xs ++ fs)).Perm (List.finRange timerQueueSizeMax)) :
    (q.giveBack e).Holds xs (e :: fs) := by
  have hnodup : (e :: (xs ++ fs)).Nodup := hpool.nodup_iff.mpr (List.nodup_finRange _)
  rw [List.nodup_cons, List.mem_append, not_or] at hnodup
  constructor
  · show Linked (q.setNext e q.pQPollFreeList).next q.pQHead xs
    rw [next_setNext]
    exact hqueue.update_of_notMem hnodup.1.1 _
  · exact htail
  · show Linked (q.setNext e q.pQPollFreeList).next (some e) (e :: fs)
    rw [next_setNext]
    exact hfree.push hnodup.1.2
  · exact List.perm_middle.trans hpool

theorem item_giveBack (e : Fin timerQueueSizeMax) : (q.giveBack e).item = q.item :=
  q.item_setNext e q.pQPollFreeList

/-! ## The three routines -/

/-- An entry that is in neither list is linked behind the queue. -/
theorem append_holds {q₁ : TimerTaskQueue} {n : Fin timerQueueSizeMax}
    (hnext : q₁.next = Function.update q.next n none) (hqueue : Linked q.next q₁.pQHead xs)
    (htail : q₁.pQTail = xs.getLast?) (hfree : Linked q₁.next q₁.pQPollFreeList fs)
    (hpool : (xs ++ n :: fs).Perm (List.finRange timerQueueSizeMax)) :
    (q₁.append n).Holds (xs ++ [n]) fs := by
  have hnodup : (n :: (xs ++ fs)).Nodup :=
    List.perm_middle.nodup_iff.mp (hpool.nodup_iff.mpr (List.nodup_finRange _))
  rw [List.nodup_cons, List.mem_append, not_or, List.nodup_append] at hnodup
  obtain ⟨⟨hxs, hfs⟩, hndx, -, hdisj⟩ := hnodup
  have hpool' : (xs ++ [n] ++ fs).Perm (List.finRange timerQueueSizeMax) := by
    rw [List.append_assoc]
    exact hpool
  rcases List.eq_nil_or_concat xs with rfl | ⟨l, b, rfl⟩
  · have hhead : q₁.pQHead = none := hqueue
    have htail' : q₁.pQTail = none := htail
    rw [append, htail', hhead]
    refine ⟨⟨rfl, ?_⟩, rfl, hfree, hpool'⟩
    show q₁.next n = none
    rw [hnext, Function.update_self]
  · rw [List.concat_eq_append] at *
    have hhead : q₁.pQHead ≠ none := by
      rw [hqueue.head]
      simp
    have htail' : q₁.pQTail = some b := by
      rw [htail]
      simp
    have hb : b ∉ fs := fun h => hdisj b (by simp) b h rfl
    rw [append, htail', if_neg hhead]
    refine ⟨?_, by simp, ?_, hpool'⟩
    · show Linked (q₁.setNext b (some n)).next q₁.pQHead _
      rw [next_setNext, hnext]
      exact hqueue.snoc hndx hxs
    · show Linked (q₁.setNext b (some n)).next q₁.pQPollFreeList fs
      rw [next_setNext]
      exact hfree.update_of_notMem hb _

theorem item_append (n : Fin timerQueueSizeMax) : (q.append n).item = q.item := by
  cases htail : q.pQTail with
  | none =>
    rw [append, htail]
    rfl
  | some b =>
    rw [append, htail]
    exact q.item_setNext b (some n)

/-- **`RtmpTimerQInsert`** appends the timer, or does nothing: there is no free entry, or the
queue is stopped. -/
theorem insert_represents {c : List (Option Nat × Nat)} (h : q.Represents c)
    (pTimer ticket : Nat) :
    rtmpTimerQInsert q pTimer ticket = (none, q) ∨
      (rtmpTimerQInsert q pTimer ticket).1 ≠ none ∧
        (rtmpTimerQInsert q pTimer ticket).2.Represents (c ++ [(some pTimer, ticket)]) := by
  obtain ⟨xs, fs, hq, rfl⟩ := h
  rw [rtmpTimerQInsert]
  split_ifs with hstatus
  case neg => exact Or.inl rfl
  cases fs with
  | nil =>
    have hfree : q.pQPollFreeList = none := hq.free
    rw [hfree]
    exact Or.inl rfl
  | cons n fs =>
    obtain ⟨hfree, hrest⟩ := hq.free
    have hnodup : (n :: (xs ++ fs)).Nodup := List.perm_middle.nodup_iff.mp hq.nodup
    rw [List.nodup_cons, List.mem_append, not_or] at hnodup
    have hnext := q.next_fill n pTimer ticket
    have hfree' : Linked (q.fill n pTimer ticket).next (q.next n) fs := by
      rw [hnext]
      exact hrest.update_of_notMem hnodup.1.2 _
    refine Or.inr ?_
    rw [hfree]
    refine ⟨by simp, xs ++ [n], fs, append_holds hnext hq.queue hq.tail hfree' hq.pool, ?_⟩
    rw [item_append, item_fill, List.map_append, List.map_singleton, Function.update_self]
    congr 1
    exact List.map_congr_left fun e he =>
      Function.update_of_ne (ne_of_mem_of_not_mem he hnodup.1.1) _ _

/-- The tail, when the entry `a` in front of `r` is taken out behind `p`. -/
theorem tail_unlink {a : Fin timerQueueSizeMax} {r : List (Fin timerQueueSizeMax)} (ha : a ∉ r)
    (p : EntryPtr) : (if (a :: r).getLast? = some a then p else (a :: r).getLast?)
      = r.getLast?.or p := by
  rcases List.eq_nil_or_concat r with rfl | ⟨r, b, rfl⟩
  · exact if_pos rfl
  · have hne : b ≠ a := fun e => ha (e ▸ by simp)
    simp [List.getLast?_cons, hne]

/-- **The locked part of `RtmpTimerQHandle`** takes the first timer. -/
theorem take_represents {c : List (Option Nat × Nat)} (h : q.Represents c) :
    (c = [] ∧ handleTake q = (none, q)) ∨
      ∃ e c', c = (e.pRaTimer, e.ticket) :: c' ∧ (handleTake q).1 = some e ∧
        (handleTake q).2.Represents c' := by
  obtain ⟨xs, fs, hq, rfl⟩ := h
  cases xs with
  | nil =>
    have hhead : q.pQHead = none := hq.queue
    exact Or.inl ⟨rfl, by rw [handleTake, hhead]⟩
  | cons a xs =>
    obtain ⟨hhead, hrest⟩ := hq.queue
    have hnodup : (a :: (xs ++ fs)).Nodup := hq.nodup
    rw [List.nodup_cons, List.mem_append, not_or] at hnodup
    have htail : (if some a = q.pQTail then none else q.pQTail) = xs.getLast? := by
      have h := tail_unlink hnodup.1.1 none
      rw [← hq.tail, Option.or_none] at h
      simpa only [eq_comm] using h
    refine Or.inr ⟨q.pool a, xs.map q.item, rfl, by rw [handleTake, hhead], ?_⟩
    rw [handleTake, hhead]
    exact ⟨xs, a :: fs, giveBack_holds hrest htail hq.free hq.pool,
      by rw [item_giveBack]; rfl⟩

theorem item_unlink (a : Fin timerQueueSizeMax) (p : EntryPtr) : (q.unlink a p).item = q.item := by
  cases p with
  | none => rfl
  | some b => exact q.item_setNext b (q.next a)

/-- An entry is taken out of the queue and goes back. -/
theorem unlink_holds {l r : List (Fin timerQueueSizeMax)} {a : Fin timerQueueSizeMax}
    (hq : q.Holds (l ++ a :: r) fs) :
    ((q.unlink a l.getLast?).giveBack a).Holds (l ++ r) (a :: fs) := by
  have hnodup := hq.nodup
  rw [List.append_assoc, List.cons_append, List.perm_middle.nodup_iff, List.nodup_cons] at hnodup
  obtain ⟨ha, hnd⟩ := hnodup
  simp only [List.mem_append, not_or] at ha
  have hpool : (a :: (l ++ r ++ fs)).Perm (List.finRange timerQueueSizeMax) := by
    refine List.Perm.trans ?_ hq.pool
    rw [List.append_assoc, List.append_assoc, List.cons_append]
    exact List.perm_middle.symm
  have htail : (if q.pQTail = some a then l.getLast? else q.pQTail) = (l ++ r).getLast? := by
    have hun := tail_unlink ha.2.1 l.getLast?
    obtain ⟨x, hx⟩ := Option.ne_none_iff_exists'.mp (show (a :: r).getLast? ≠ none by simp)
    rw [hx] at hun
    rw [hq.tail, List.getLast?_append, List.getLast?_append, hx, Option.some_or]
    exact hun
  rcases List.eq_nil_or_concat l with rfl | ⟨l, b, rfl⟩
  · obtain ⟨hhead, hrest⟩ := hq.queue
    refine giveBack_holds ?_ htail hq.free hpool
    show Linked q.next (if q.pQHead = some a then q.next a else q.pQHead) r
    rw [if_pos hhead]
    exact hrest
  · rw [List.concat_eq_append] at *
    have hlast : (l ++ [b]).getLast? = some b := by simp
    have hhead : q.pQHead ≠ some a := by
      rw [hq.queue.head]
      cases l with
      | nil => exact fun h => ha.1 (by simpa using (Option.some.inj h).symm)
      | cons c l => exact fun h => ha.1 (by simp [← Option.some.inj h])
    have hqueue : Linked q.next q.pQHead (l ++ b :: a :: r) := by simpa using hq.queue
    have hndq : (l ++ b :: a :: r).Nodup := by
      have := (List.nodup_append.mp hq.nodup).1
      simpa using this
    have hb : b ∉ fs := fun h =>
      (List.nodup_append.mp hnd).2.2 b (by simp) b (List.mem_append_right r h) rfl
    have hnext : (q.unlink a (some b)).next = Function.update q.next b (q.next a) :=
      q.next_setNext b (q.next a)
    rw [hlast] at htail ⊢
    refine giveBack_holds ?_ htail ?_ hpool
    · show Linked (q.unlink a (some b)).next (if q.pQHead = some a then q.next a else q.pQHead) _
      rw [hnext, if_neg hhead, List.append_assoc]
      exact hqueue.unlink hndq
    · rw [hnext]
      exact hq.free.update_of_notMem hb _

/-- **`RtmpTimerQRemove`** takes the first entry of the timer out, if there is one. -/
theorem remove_represents {c : List (Option Nat × Nat)} (h : q.Represents c) (pTimer : Nat) :
    rtmpTimerQRemove q pTimer = (none, q) ∨
      ∃ e c₁ c₂, c = c₁ ++ (some pTimer, e.ticket) :: c₂ ∧
        (rtmpTimerQRemove q pTimer).1 = some e ∧
        (rtmpTimerQRemove q pTimer).2.Represents (c₁ ++ c₂) := by
  obtain ⟨xs, fs, hq, rfl⟩ := h
  rw [rtmpTimerQRemove]
  split_ifs with hstatus
  case neg => exact Or.inl rfl
  cases hfind : xs.find? fun e => (q.pool e).pRaTimer = some pTimer with
  | none =>
    have hnone := seek_none hq.queue (List.find?_eq_none.mp hfind) hq.length_le none
    left
    generalize seek q.next _ _ _ _ = found at hnone ⊢
    obtain ⟨pNode, pPrev⟩ := found
    obtain rfl : pNode = none := hnone
    rfl
  | some a =>
    obtain ⟨ha, l, r, rfl, hl⟩ := List.find?_eq_some_iff_append.mp hfind
    have hlen : l.length < timerQueueSizeMax := by
      have := hq.length_le
      rw [List.length_append, List.length_cons] at this
      omega
    have hbefore : ∀ e ∈ l, ¬ decide ((q.pool e).pRaTimer = some pTimer) = true := fun e he => by
      simpa using hl e he
    have hseek := seek_some hq.queue hbefore ha hlen none
    have hitems : ∀ p, ((q.unlink a p).giveBack a).item = q.item := fun p => by
      rw [item_giveBack, item_unlink]
    have hitem : q.item a = (some pTimer, (q.pool a).ticket) := by
      rw [item, of_decide_eq_true ha]
    refine Or.inr ⟨q.pool a, l.map q.item, r.map q.item, ?_, ?_, ?_⟩
    · rw [List.map_append, List.map_cons, hitem]
    · rw [hseek]
    rw [hseek, Option.or_none]
    exact ⟨l ++ r, a :: fs, unlink_holds hq, by rw [hitems, List.map_append]⟩

/-- The entries that `RtmpTimerQInit` has linked. -/
theorem init_linked (zero : TimerTaskEntry) (l : List (Fin timerQueueSizeMax)) (hl : l.Nodup) :
    let r := l.foldl
      (fun (r : (Fin timerQueueSizeMax → TimerTaskEntry) × EntryPtr) pQNode =>
        (Function.update r.1 pQNode { r.1 pQNode with pNext := r.2 }, some pQNode))
      (fun _ => zero, none)
    Linked (fun e => (r.1 e).pNext) r.2 l.reverse := by
  induction l using List.reverseRecOn with
  | nil => rfl
  | append_singleton l a ih =>
    rw [List.nodup_append] at hl
    have ha : a ∉ l.reverse := fun h => hl.2.2 a (List.mem_reverse.mp h) a (by simp) rfl
    rw [List.foldl_append, List.reverse_append]
    generalize l.foldl _ _ = r at ih
    have hnext : (fun e => ((Function.update r.1 a { r.1 a with pNext := r.2 }) e).pNext)
        = Function.update (fun e => (r.1 e).pNext) a r.2 := by
      funext i
      by_cases h : i = a
      · subst h
        simp
      · simp [h]
    have hpush := (ih hl.1).push ha
    rw [← hnext] at hpush
    exact hpush

/-- **`RtmpTimerQInit`**: every entry is free. -/
theorem init_represents : rtmpTimerQInit.Represents [] := by
  have hfree := init_linked ⟨none, none, 0⟩ (List.finRange timerQueueSizeMax) (List.nodup_finRange _)
  refine ⟨[], (List.finRange timerQueueSizeMax).reverse, ⟨rfl, rfl, hfree, ?_⟩, rfl⟩
  exact List.reverse_perm _

/-- Stopping the queue leaves its lists. -/
theorem Represents.stop {c : List (Option Nat × Nat)} (h : q.Represents c) (status : BitVec 32) :
    TimerTaskQueue.Represents { q with status := status } c := by
  obtain ⟨xs, fs, hq, rfl⟩ := h
  exact ⟨xs, fs, ⟨hq.queue, hq.tail, hq.free, hq.pool⟩, rfl⟩

end TimerTaskQueue

/-! ## The pool -/

/-- The entries in the queue and the free ones are the pool, and the queue has a head
exactly if it has a tail. -/
structure PoolKept (q : TimerTaskQueue) : Prop where
  lists : ∃ xs fs, q.Holds xs fs
  ends : q.pQHead = none ↔ q.pQTail = none

theorem TimerTaskQueue.Represents.poolKept {q : TimerTaskQueue} {c : List (Option Nat × Nat)}
    (h : q.Represents c) : PoolKept q := by
  obtain ⟨xs, fs, hq, -⟩ := h
  refine ⟨⟨xs, fs, hq⟩, ?_⟩
  rw [hq.queue.head, hq.tail]
  cases xs <;> simp

theorem TimerTaskQueue.Represents.pQHead_eq_none {q : TimerTaskQueue}
    {c : List (Option Nat × Nat)} (h : q.Represents c) : q.pQHead = none ↔ c = [] := by
  obtain ⟨xs, fs, hq, rfl⟩ := h
  rw [hq.queue.head]
  cases xs <;> simp

/-! ## What a step does -/

/-- A step, as seen from the list `c` that the queue stands for, and the list `c'` it stands
for behind the step. -/
inductive Effect (s : State) (c : List (Option Nat × Nat)) :
    Act → State → List (Option Nat × Nat) → Prop
  | insert (pTimer : Nat) (q : TimerTaskQueue) :
      Effect s c (.insert pTimer) { s with q := q, inserted := s.inserted ++ [pTimer] }
        (c ++ [(some pTimer, s.inserted.length)])
  | remove (pTimer : Nat) (q : TimerTaskQueue) {c₁ c₂ : List (Option Nat × Nat)} {k : Nat}
      (hc : c = c₁ ++ (some pTimer, k) :: c₂) :
      Effect s c (.remove pTimer) { s with q := q, removed := k :: s.removed } (c₁ ++ c₂)
  | take (q : TimerTaskQueue) {t : Option Nat} {k : Nat} {c' : List (Option Nat × Nat)}
      (hc : c = (t, k) :: c') :
      Effect s c .take { s with q := q, pc := .run, pTimer := t.map fun t => (t, k) } c'
  /-- the queue is empty, and `pTimer` stays -/
  | takeNothing (hc : c = []) : Effect s c .take { s with pc := .run } c
  | call {x : Nat × Nat} (hpc : s.pc = .run) (hx : s.pTimer = some x) :
      Effect s c (.run true false) { s with executed := s.executed ++ [x], pc := .test } c
  /-- the thread goes on, or nothing happens -/
  | quiet {a : Act} {s' : State} (hpc : s'.pc = .run → s.pc = .run ∧ s'.pTimer = s.pTimer)
      (hinserted : s'.inserted = s.inserted) (hremoved : s'.removed = s.removed)
      (hexecuted : s'.executed = s.executed) : Effect s c a s' c

/-- **The queue is a list** for every step. -/
theorem step_effect {s s' : State} {a : Act} {c : List (Option Nat × Nat)}
    (hc : s.q.Represents c) (hstep : step s a = some s') :
    ∃ c', s'.q.Represents c' ∧ Effect s c a s' c' := by
  cases a with
  | insert pTimer =>
    simp only [step] at hstep
    rcases TimerTaskQueue.insert_represents hc pTimer s.inserted.length with hr | ⟨hr, hc'⟩
    · rw [hr, if_pos rfl] at hstep
      cases hstep
      exact ⟨c, hc, .quiet (fun h => ⟨h, rfl⟩) rfl rfl rfl⟩
    · rw [if_neg hr] at hstep
      cases hstep
      exact ⟨_, hc', .insert pTimer _⟩
  | remove pTimer =>
    simp only [step] at hstep
    rcases TimerTaskQueue.remove_represents hc pTimer with hr | ⟨e, c₁, c₂, hsplit, hr, hc'⟩
    · rw [hr] at hstep
      cases hstep
      exact ⟨c, hc, .quiet (fun h => ⟨h, rfl⟩) rfl rfl rfl⟩
    · generalize rtmpTimerQRemove s.q pTimer = r at hstep hr hc'
      obtain ⟨r, q⟩ := r
      obtain rfl : r = some e := hr
      cases hstep
      exact ⟨_, hc', .remove pTimer q hsplit⟩
  | take =>
    simp only [step] at hstep
    rcases TimerTaskQueue.take_represents hc with ⟨hnil, hr⟩ | ⟨e, c', hsplit, hr, hc'⟩
    · rw [hr] at hstep
      split_ifs at hstep
      cases hstep
      exact ⟨c, hc, .takeNothing hnil⟩
    · generalize handleTake s.q = r at hstep hr hc'
      obtain ⟨r, q⟩ := r
      obtain rfl : r = some e := hr
      split_ifs at hstep
      cases hstep
      exact ⟨_, hc', .take q hsplit⟩
  | run handle pmFlgSuspend =>
    simp only [step] at hstep
    by_cases hpc : s.pc = .run
    case neg => rw [if_pos hpc] at hstep; cases hstep
    rw [if_neg (not_not_intro hpc)] at hstep
    split at hstep
    case h_1 x hx =>
      cases handle <;> cases pmFlgSuspend
      case true.false =>
        cases hstep
        exact ⟨c, hc, .call hpc hx⟩
      all_goals
        cases hstep
        exact ⟨c, hc, .quiet (fun h => absurd h (by simp)) rfl rfl rfl⟩
    case h_2 hx =>
      cases hstep
      exact ⟨c, hc, .quiet (fun h => absurd h (by simp)) rfl rfl rfl⟩
  | after =>
    simp only [step] at hstep
    split_ifs at hstep <;> cases hstep
    · exact ⟨c, hc.stop _, .quiet (fun h => absurd h (by simp)) rfl rfl rfl⟩
    · exact ⟨c, hc, .quiet (fun h => absurd h (by simp)) rfl rfl rfl⟩
  | wait killed ok status =>
    simp only [step] at hstep
    split_ifs at hstep <;> cases hstep <;>
      exact ⟨c, hc, .quiet (fun h => absurd h (by simp)) rfl rfl rfl⟩
  | test =>
    simp only [step] at hstep
    split_ifs at hstep <;> cases hstep <;>
      exact ⟨c, hc, .quiet (fun h => absurd h (by simp)) rfl rfl rfl⟩

/-! ## Order -/

/-- Handlers were called for insertions, in their order and at most once for each, and for
none that was removed from the queue. -/
structure InOrder (s : State) : Prop where
  inserted : ∀ x ∈ s.executed, s.inserted[x.2]? = some x.1
  order : (s.executed.map Prod.snd).Pairwise (· < ·)
  removed : ∀ x ∈ s.executed, x.2 ∉ s.removed

/-- When the thread gets the lock, there is an entry to take, or it has taken none since it
woke up. -/
def NothingLeft (s : State) (a : Act) : Prop := a = .take → s.q.pQHead = none → s.pTimer = none

instance (s : State) (a : Act) : Decidable (NothingLeft s a) :=
  inferInstanceAs (Decidable (a = .take → s.q.pQHead = none → s.pTimer = none))

/-- A ticket that is called next, or may be: it stands for its timer, was not removed, and is
behind all that were called. -/
structure Callable (s : State) (t k : Nat) : Prop where
  inserted : s.inserted[k]? = some t
  kept : k ∉ s.removed
  behind : ∀ x ∈ s.executed, x.2 < k

/-- The tickets in the order of the queue: those that were called, the one the thread
has, those in the queue. -/
structure Ordered (s : State) (c : List (Option Nat × Nat)) : Prop where
  inOrder : InOrder s
  rising : (c.map Prod.snd).Pairwise (· < ·)
  queued : ∀ x ∈ c, ∃ t, x.1 = some t ∧ Callable s t x.2
  removed : ∀ k ∈ s.removed, k < s.inserted.length
  current : s.pc = .run → ∀ x, s.pTimer = some x →
    Callable s x.1 x.2 ∧ ∀ y ∈ c, x.2 < y.2

theorem Callable.lt {s : State} {t k : Nat} (h : Callable s t k) : k < s.inserted.length :=
  (List.getElem?_eq_some_iff.mp h.inserted).1

theorem Callable.congr {s s' : State} {t k : Nat} (h : Callable s t k)
    (hinserted : s'.inserted = s.inserted) (hremoved : s'.removed = s.removed)
    (hexecuted : s'.executed = s.executed) : Callable s' t k :=
  ⟨by rw [hinserted]; exact h.inserted, by rw [hremoved]; exact h.kept,
    by rw [hexecuted]; exact h.behind⟩

theorem InOrder.congr {s s' : State} (h : InOrder s) (hinserted : s'.inserted = s.inserted)
    (hremoved : s'.removed = s.removed) (hexecuted : s'.executed = s.executed) : InOrder s' := by
  obtain ⟨h1, h2, h3⟩ := h
  constructor
  · rw [hexecuted, hinserted]
    exact h1
  · rw [hexecuted]
    exact h2
  · rw [hexecuted, hremoved]
    exact h3

/-- A step that changes nothing that happened, and leaves the list or takes its head. -/
theorem Ordered.congr {s s' : State} {c c' : List (Option Nat × Nat)} (h : Ordered s c)
    (hsuffix : c' <:+ c) (hinserted : s'.inserted = s.inserted) (hremoved : s'.removed = s.removed)
    (hexecuted : s'.executed = s.executed)
    (hcurrent : s'.pc = .run → ∀ x, s'.pTimer = some x →
      Callable s x.1 x.2 ∧ ∀ y ∈ c', x.2 < y.2) : Ordered s' c' where
  inOrder := h.inOrder.congr hinserted hremoved hexecuted
  rising := h.rising.sublist (hsuffix.sublist.map Prod.snd)
  queued x hx := by
    obtain ⟨t, ht, hk⟩ := h.queued x (hsuffix.subset hx)
    exact ⟨t, ht, hk.congr hinserted hremoved hexecuted⟩
  removed := by
    rw [hremoved, hinserted]
    exact h.removed
  current hpc x hx :=
    ⟨(hcurrent hpc x hx).1.congr hinserted hremoved hexecuted, (hcurrent hpc x hx).2⟩

theorem start_ordered : Ordered start [] where
  inOrder := ⟨by simp [start], by simp [start], by simp [start]⟩
  rising := by simp
  queued := by simp
  removed := by simp [start]
  current h := absurd h (by simp [start])

section Steps

variable {s : State} {c c' c₁ c₂ : List (Option Nat × Nat)} {k : Nat} {q : TimerTaskQueue}

/-- The last ticket is put at the end. -/
theorem Ordered.insert (h : Ordered s c) (pTimer : Nat) (q : TimerTaskQueue) :
    Ordered { s with q := q, inserted := s.inserted ++ [pTimer] }
      (c ++ [(some pTimer, s.inserted.length)]) := by
  have hcall : ∀ {t k}, Callable s t k →
      Callable { s with q := q, inserted := s.inserted ++ [pTimer] } t k := fun hk =>
    ⟨(List.getElem?_append_left hk.lt).trans hk.inserted, hk.kept, hk.behind⟩
  have hlt : ∀ x ∈ c, x.2 < s.inserted.length := fun x hx => by
    obtain ⟨t, -, ht⟩ := h.queued x hx
    exact ht.lt
  constructor
  case inOrder =>
    refine ⟨fun x hx => ?_, h.inOrder.order, h.inOrder.removed⟩
    have hins := h.inOrder.inserted x hx
    exact (List.getElem?_append_left (List.getElem?_eq_some_iff.mp hins).1).trans hins
  case rising =>
    rw [List.map_append, List.pairwise_append]
    refine ⟨h.rising, by simp, fun k hk k' hk' => ?_⟩
    obtain ⟨x, hx, rfl⟩ := List.mem_map.mp hk
    obtain rfl : k' = s.inserted.length := by simpa using hk'
    exact hlt x hx
  case queued =>
    intro x hx
    rcases List.mem_append.mp hx with hx | hx
    · obtain ⟨t, ht, hk⟩ := h.queued x hx
      exact ⟨t, ht, hcall hk⟩
    · rw [List.mem_singleton.mp hx]
      refine ⟨pTimer, rfl, by simp, fun hk => Nat.lt_irrefl _ (h.removed _ hk), fun y hy => ?_⟩
      exact (List.getElem?_eq_some_iff.mp (h.inOrder.inserted y hy)).1
  case removed =>
    intro k hk
    rw [List.length_append]
    exact Nat.lt_add_right _ (h.removed k hk)
  case current =>
    intro hpc x hx
    obtain ⟨hk, hbehind⟩ := h.current hpc x hx
    refine ⟨hcall hk, fun y hy => ?_⟩
    rcases List.mem_append.mp hy with hy | hy
    · exact hbehind y hy
    · rw [List.mem_singleton.mp hy]
      exact hk.lt

/-- The tickets rise, so a removed one is nowhere else in the queue. -/
theorem Ordered.remove {pTimer : Nat} (h : Ordered s (c₁ ++ (some pTimer, k) :: c₂)) :
    Ordered { s with q := q, removed := k :: s.removed } (c₁ ++ c₂) := by
  have hmem : (some pTimer, k) ∈ c₁ ++ (some pTimer, k) :: c₂ :=
    List.mem_append_right c₁ List.mem_cons_self
  obtain ⟨t, -, hk⟩ := h.queued _ hmem
  have hsub : ∀ y ∈ c₁ ++ c₂, y ∈ c₁ ++ (some pTimer, k) :: c₂ := fun y hy => by
    rw [List.mem_append] at hy ⊢
    exact hy.imp_right (List.mem_cons_of_mem _)
  have hne : ∀ y ∈ c₁ ++ c₂, y.2 ≠ k := fun y hy => by
    have hnd := (h.rising.imp Nat.ne_of_lt)
    rw [List.map_append, List.map_cons, List.pairwise_append, List.pairwise_cons] at hnd
    rcases List.mem_append.mp hy with hy | hy
    · exact hnd.2.2 y.2 (List.mem_map_of_mem hy) k List.mem_cons_self
    · exact (hnd.2.1.1 y.2 (List.mem_map_of_mem hy)).symm
  have hcall : ∀ {t j}, Callable s t j → j ≠ k →
      Callable { s with q := q, removed := k :: s.removed } t j := fun hj hjk =>
    ⟨hj.inserted, fun hmem => (List.mem_cons.mp hmem).elim hjk hj.kept, hj.behind⟩
  constructor
  case inOrder =>
    refine ⟨h.inOrder.inserted, h.inOrder.order, fun x hx hmem => ?_⟩
    rcases List.mem_cons.mp hmem with hxk | hmem
    · exact absurd (hk.behind x hx) (hxk ▸ Nat.lt_irrefl _)
    · exact h.inOrder.removed x hx hmem
  case rising =>
    refine h.rising.sublist ?_
    rw [List.map_append, List.map_append, List.map_cons]
    exact List.Sublist.append_left (List.sublist_cons_self _ _) _
  case queued =>
    intro x hx
    obtain ⟨t, ht, hj⟩ := h.queued x (hsub x hx)
    exact ⟨t, ht, hcall hj (hne x hx)⟩
  case removed =>
    intro j hj
    rcases List.mem_cons.mp hj with rfl | hj
    · exact hk.lt
    · exact h.removed j hj
  case current =>
    intro hpc x hx
    obtain ⟨hj, hbehind⟩ := h.current hpc x hx
    exact ⟨hcall hj (Nat.ne_of_lt (hbehind _ hmem)), fun y hy => hbehind y (hsub y hy)⟩

/-- The head of the queue is the next ticket of the thread. -/
theorem Ordered.take {t : Option Nat} (h : Ordered s ((t, k) :: c')) :
    Ordered { s with q := q, pc := .run, pTimer := t.map fun t => (t, k) } c' := by
  obtain ⟨t', ht, hk⟩ := h.queued (t, k) List.mem_cons_self
  have hrising := List.pairwise_cons.mp h.rising
  refine h.congr (List.suffix_cons _ _) rfl rfl rfl fun _ x hx => ?_
  obtain rfl : t = some t' := ht
  obtain rfl : (t', k) = x := Option.some.inj hx
  exact ⟨hk, fun y hy => hrising.1 y.2 (List.mem_map_of_mem hy)⟩

/-- The handler of the thread's ticket is called. -/
theorem Ordered.call {x : Nat × Nat} (h : Ordered s c) (hpc : s.pc = .run)
    (hx : s.pTimer = some x) :
    Ordered { s with executed := s.executed ++ [x], pc := .test } c := by
  obtain ⟨hk, hbehind⟩ := h.current hpc x hx
  constructor
  case inOrder =>
    constructor
    case inserted =>
      intro y hy
      rcases List.mem_append.mp hy with hy | hy
      · exact h.inOrder.inserted y hy
      · rw [List.mem_singleton.mp hy]
        exact hk.inserted
    case order =>
      rw [List.map_append, List.pairwise_append]
      refine ⟨h.inOrder.order, by simp, fun j hj j' hj' => ?_⟩
      obtain ⟨y, hy, rfl⟩ := List.mem_map.mp hj
      obtain rfl : j' = x.2 := by simpa using hj'
      exact hk.behind y hy
    case removed =>
      intro y hy
      rcases List.mem_append.mp hy with hy | hy
      · exact h.inOrder.removed y hy
      · rw [List.mem_singleton.mp hy]
        exact hk.kept
  case rising => exact h.rising
  case queued =>
    intro y hy
    obtain ⟨t, ht, hj⟩ := h.queued y hy
    refine ⟨t, ht, hj.inserted, hj.kept, fun z hz => ?_⟩
    rcases List.mem_append.mp hz with hz | hz
    · exact hj.behind z hz
    · rw [List.mem_singleton.mp hz]
      exact hbehind y hy
  case removed => exact h.removed
  case current => exact fun hpc => absurd hpc (by simp)

end Steps

/-- **One step** keeps the order, unless the thread is left with a timer of an earlier turn. -/
theorem Effect.ordered {s s' : State} {a : Act} {c c' : List (Option Nat × Nat)}
    (heff : Effect s c a s' c') (h : Ordered s c) (hleft : a = .take → c = [] → s.pTimer = none) :
    Ordered s' c' := by
  cases heff with
  | insert pTimer q => exact h.insert pTimer q
  | remove pTimer q hc =>
    subst hc
    exact h.remove
  | take q hc =>
    subst hc
    exact h.take
  | takeNothing hc =>
    refine h.congr List.suffix_rfl rfl rfl rfl fun _ x hx => ?_
    exact absurd (hx.symm.trans (hleft rfl hc)) (by simp)
  | call hpc hx => exact h.call hpc hx
  | quiet hpc hinserted hremoved hexecuted =>
    refine h.congr List.suffix_rfl hinserted hremoved hexecuted fun hrun x hx => ?_
    obtain ⟨hrun', hsame⟩ := hpc hrun
    exact h.current hrun' x (hsame ▸ hx)

/-! ## Runs -/

/-- **The timer queue.** In every run the entries of the queue and the free ones are the pool,
and the queue has a head exactly if it has a tail. In a run where the thread is never left
with a timer of an earlier turn, handlers are called in the order of the insertions, once at
most for each, and for none that was removed. -/
theorem timerQ_run (as : List Act) (s : State) (hrun : gexec step start as = some s) :
    PoolKept s.q ∧ (GAlong step NothingLeft start as → InOrder s) := by
  have hkept : ∃ c, s.q.Represents c := by
    refine gexec_inv (I := fun s : State => ∃ c, s.q.Represents c) (P := fun _ _ => True)
      (fun s a s' h _ hstep => ?_) ⟨[], TimerTaskQueue.init_represents⟩
      (GAlong.of_forall fun _ _ => trivial) hrun
    obtain ⟨c, hc⟩ := h
    obtain ⟨c', hc', -⟩ := step_effect hc hstep
    exact ⟨c', hc'⟩
  refine ⟨hkept.elim fun c hc => hc.poolKept, fun halong => ?_⟩
  have hordered : ∃ c, s.q.Represents c ∧ Ordered s c := by
    refine gexec_inv (I := fun s : State => ∃ c, s.q.Represents c ∧ Ordered s c)
      (fun s a s' h hleft hstep => ?_) ⟨[], TimerTaskQueue.init_represents, start_ordered⟩
      halong hrun
    obtain ⟨c, hc, hord⟩ := h
    obtain ⟨c', hc', heff⟩ := step_effect hc hstep
    exact ⟨c', hc', heff.ordered hord fun ha hnil => hleft ha (hc.pQHead_eq_none.mpr hnil)⟩
  exact hordered.elim fun c h => h.2.inOrder

/-- One timer is queued and called. -/
def oneTimer : List Act := [.insert 5, .wait false true 0, .test, .take, .run true false]

/-- Of two timers one is removed, and the other called. -/
theorem timerQ_run_one :
    ∃ s, gexec step start ([.insert 6, .insert 5, .remove 6] ++ oneTimer.tail) = some s ∧
      s.executed.map Prod.fst = [5] ∧ InOrder s := by
  have hexec : (gexec step start ([.insert 6, .insert 5, .remove 6] ++ oneTimer.tail)).map
      (fun s => s.executed.map Prod.fst) = some [5] := by
    decide +kernel
  obtain ⟨s, hrun, hs⟩ := Option.map_eq_some_iff.mp hexec
  refine ⟨s, hrun, hs, (timerQ_run _ s hrun).2 ?_⟩
  decide +kernel

/-- A second timer is queued while the handler of the first one is called, and removed between
the thread's test of `pQHead` and the lock. -/
def removedInTime : List Act :=
  oneTimer ++ [.insert 6, .test, .remove 6, .take, .run true false]

/-- **The first timer is called again**, for an insertion that was made once. -/
theorem removed_in_time :
    ¬ ∀ as s, gexec step start as = some s → PoolKept s.q ∧ InOrder s := by
  intro h
  have hexec : (gexec step start removedInTime).map State.executed = some [(5, 0), (5, 0)] := by
    decide +kernel
  obtain ⟨s, hrun, hs⟩ := Option.map_eq_some_iff.mp hexec
  have horder := (h removedInTime s hrun).2.order
  rw [hs] at horder
  exact absurd horder (by decide)

end ExtDrv.Rt3370.TimerQ
