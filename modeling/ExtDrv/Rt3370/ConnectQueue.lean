import ExtDrv.Rt3370.Connect

/-!
# Turns and queue of the machines

What the control machine and the two others can do on each of their messages, told once for all that
follows, and what each turn and each step puts into the queue. It never holds more than its forty
messages, and the messages that lead on to a link are put there on a success only.
-/

namespace ExtDrv.Rt3370.Connect

open Memory Sanity

/-! ## The queue -/

section Queue

variable {s : Adapter} {e e' : Elem}

@[simp] theorem mlmeEnqueue_cntl : (mlmeEnqueue s e).cntl = s.cntl := by
  unfold mlmeEnqueue
  split <;> rfl

@[simp] theorem mlmeEnqueue_auth : (mlmeEnqueue s e).auth = s.auth := by
  unfold mlmeEnqueue
  split <;> rfl

@[simp] theorem mlmeEnqueue_assoc : (mlmeEnqueue s e).assoc = s.assoc := by
  unfold mlmeEnqueue
  split <;> rfl

@[simp] theorem mlmeEnqueue_armed : (mlmeEnqueue s e).armed = s.armed := by
  unfold mlmeEnqueue
  split <;> rfl

@[simp] theorem mlmeEnqueue_infraOn : (mlmeEnqueue s e).infraOn = s.infraOn := by
  unfold mlmeEnqueue
  split <;> rfl

theorem mlmeEnqueue_old (h : e' ∈ s.Queue) : e' ∈ (mlmeEnqueue s e).Queue := by
  unfold mlmeEnqueue
  split
  · exact h
  · exact List.mem_append_left _ h

theorem mlmeEnqueue_new (h : e' ∈ (mlmeEnqueue s e).Queue) : e' ∈ s.Queue ∨ e' = e := by
  unfold mlmeEnqueue at h
  split at h
  · exact Or.inl h
  · simpa using h

theorem mlmeEnqueue_full (h : s.Queue.length = maxLenOfMlmeQueue) : mlmeEnqueue s e = s :=
  if_pos h

theorem mem_mlmeEnqueue (h : s.Queue.length ≠ maxLenOfMlmeQueue) : e ∈ (mlmeEnqueue s e).Queue := by
  rw [mlmeEnqueue, if_neg h]
  exact List.mem_append_right _ (List.mem_singleton_self e)

end Queue

/-! ## What a step enqueues -/

/-- An answer that ends an authentication with success. -/
def authenticates (env : Env) (s : Adapter) : Elem → Bool
  | .peer (.authEven m) =>
    env.chlgText && le16 m 28 == mlmeSuccess &&
      (s.auth == .waitSeq2 && env.cyperChlgText && authAnswer s m 2 &&
          s.MlmeAux.Alg == authModeOpen ||
        s.auth == .waitSeq4 && authAnswer s m 4)
  | _ => false

/-- A response that ends an association with success. -/
def associates (env : Env) (s : Adapter) : Elem → Bool
  | .peer (.assocRsp m len) | .peer (.reassocRsp m len) =>
    s.assoc == .waitRsp && assocAnswer env s m len == some mlmeSuccess
  | _ => false

/-- What the turn of the handler on `e` may put into the queue: an association is asked for on a
successful authentication only, a success confirmed on the answer only, and a reassociation asked
for on the failure of another. -/
def Brings (env : Env) (s : Adapter) (e : Elem) : Elem → Prop
  | .req (.reassoc _) => s.cntl = .waitReassoc
  | .req (.assoc _) => e = .conf .auth mlmeSuccess
  | .conf .auth Status => Status = mlmeSuccess → authenticates env s e = true
  | .conf .assoc Status => Status = mlmeSuccess → associates env s e = true
  | _ => True

/-- A queue to which messages `P` are put, while there is room. -/
inductive Grown (P : Elem → Prop) (q : List Elem) : List Elem → Prop
  | same : Grown P q q
  | put {q' : List Elem} {e : Elem} (h : Grown P q q') (hroom : q'.length < maxLenOfMlmeQueue)
      (he : P e) : Grown P q (q' ++ [e])

section Grown

variable {P : Elem → Prop} {s t : Adapter} {q q' : List Elem} {e : Elem} {env : Env}

theorem Grown.short (h : Grown P q q') (hq : q.length ≤ maxLenOfMlmeQueue) :
    q'.length ≤ maxLenOfMlmeQueue := by
  induction h with
  | same => exact hq
  | put _ hroom _ _ =>
      simp
      omega

theorem Grown.mono {Q : Elem → Prop} (h : Grown P q q') (hPQ : ∀ e, P e → Q e) : Grown Q q q' := by
  induction h with
  | same => exact .same
  | put _ hroom he ih => exact ih.put hroom (hPQ _ he)

theorem Grown.old (h : Grown P q q') (he : e ∈ q) : e ∈ q' := by
  induction h with
  | same => exact he
  | put _ _ _ ih => exact List.mem_append_left _ ih

theorem Grown.mem (h : Grown P q q') (he : e ∈ q') : e ∈ q ∨ P e := by
  induction h with
  | same => exact Or.inl he
  | put _ _ hp ih =>
      rcases List.mem_append.mp he with hold | hnew
      · exact ih hold
      · rw [List.mem_singleton.mp hnew]
        exact Or.inr hp

theorem Grown.countP {p : Elem → Bool} (h : Grown P q q') (hp : ∀ e, P e → p e = false) :
    q'.countP p = q.countP p := by
  induction h with
  | same => rfl
  | put _ _ he ih => simp [ih, hp _ he]

/-- What a turn leaves of the queue: it is grown, or emptied. -/
def Fed (P : Elem → Prop) (q q' : List Elem) : Prop := q' = [] ∨ Grown P q q'

theorem Fed.short (h : Fed P q q') (hq : q.length ≤ maxLenOfMlmeQueue) :
    q'.length ≤ maxLenOfMlmeQueue := by
  rcases h with rfl | hgrown
  · exact Nat.zero_le _
  · exact hgrown.short hq

theorem Fed.mem (h : Fed P q q') (he : e ∈ q') : e ∈ q ∨ P e := by
  rcases h with rfl | hgrown
  · cases he
  · exact hgrown.mem he

theorem Fed.countP_le {p : Elem → Bool} (h : Fed P q q') (hp : ∀ e, P e → p e = false) :
    q'.countP p ≤ q.countP p := by
  rcases h with rfl | hgrown
  · exact Nat.zero_le _
  · exact (hgrown.countP hp).le

theorem Grown.trans {q'' : List Elem} (h : Grown P q q') (h' : Grown P q' q'') : Grown P q q'' := by
  induction h' with
  | same => exact h
  | put _ hroom he ih => exact ih.put hroom he

theorem grown_of_eq (ht : t.Queue = q) : Grown P q t.Queue := by
  rw [ht]
  exact .same

theorem grown_enqueue (ht : t.Queue = q) (hlen : q.length ≤ maxLenOfMlmeQueue) (he : P e) :
    Grown P q (mlmeEnqueue t e).Queue := by
  subst ht
  unfold mlmeEnqueue
  split
  · exact .same
  · rename_i hne
    exact Grown.same.put (by omega) he

theorem grown_ask {r : Req} {c : Cntl} (ht : t.Queue = q) (hlen : q.length ≤ maxLenOfMlmeQueue)
    (hr : P (.req r)) : Grown P q (t.ask r c).Queue :=
  grown_enqueue ht hlen hr

theorem toIdle_queue (k : Kind) : (toIdle s k).Queue = s.Queue := by
  cases k <;> rfl

theorem grown_endWith {k : Kind} {Status : BitVec 16} (ht : t.Queue = q)
    (hlen : q.length ≤ maxLenOfMlmeQueue) (he : P (.conf k Status)) :
    Grown P q (endWith k Status t).Queue :=
  grown_enqueue ((toIdle_queue k).trans ht) hlen he

end Grown

/-! ## Waits -/

/-- What a state of the control machine waits for. -/
def Cntl.waits : Cntl → Option Kind
  | .waitAuth | .waitAuth2 => some .auth
  | .waitAssoc => some .assoc
  | .waitReassoc => some .reassoc
  | .waitDisassoc | .waitOidDisassoc => some .disassoc
  | .idle | .waitJoin | .waitStart | .waitOidListScan | .waitScanForConnect => none

def Req.kind : Req → Kind
  | .auth .. => .auth
  | .assoc _ => .assoc
  | .reassoc _ => .reassoc
  | .disassoc _ => .disassoc

/-- The machine of a kind waits for the access point. -/
def Waiting (s : Adapter) : Kind → Prop
  | .auth => s.auth ≠ .reqIdle
  | .assoc => s.assoc = .waitRsp
  | .reassoc => s.assoc = .reassocWaitRsp
  | .disassoc => s.assoc = .disassocWaitRsp

/-- A message that asks for something, or confirms it. -/
def Elem.Settles (k : Kind) : Elem → Prop
  | .req r => r.kind = k
  | .conf k' _ => k' = k
  | _ => False

/-- Something in the queue asks for it or confirms it. -/
def Asked (k : Kind) (q : List Elem) : Prop := ∃ e ∈ q, e.Settles k

theorem Asked.mono {k : Kind} {q q' : List Elem} (hq : ∀ e ∈ q, e ∈ q') (h : Asked k q) :
    Asked k q' := by
  obtain ⟨e, he, hset⟩ := h
  exact ⟨e, hq e he, hset⟩

theorem asked_cons {k : Kind} {e : Elem} {q : List Elem} :
    Asked k (e :: q) ↔ e.Settles k ∨ Asked k q := by
  simp [Asked]

section Asked

variable {s : Adapter} {e : Elem}

/-- A message that is about nothing asked for settles nothing. -/
theorem asked_mlmeEnqueue {k : Kind} (he : ¬ e.Settles k) :
    Asked k (mlmeEnqueue s e).Queue ↔ Asked k s.Queue := by
  constructor
  · rintro ⟨e', hmem, hset⟩
    rcases mlmeEnqueue_new hmem with hold | rfl
    · exact ⟨e', hold, hset⟩
    · exact absurd hset he
  · exact Asked.mono fun _ => mlmeEnqueue_old

/-- One that is about what is asked for does, if there is room. -/
theorem asked_of_room {k : Kind} (h : s.Queue.length ≠ maxLenOfMlmeQueue) (he : e.Settles k) :
    Asked k (mlmeEnqueue s e).Queue :=
  ⟨e, mem_mlmeEnqueue h, he⟩

end Asked

/-! ## What the control machine does -/

/-- The confirmation of an association that was granted. -/
def Elem.isGranted : Elem → Bool
  | .conf .assoc Status => Status == mlmeSuccess
  | _ => false

/-- A message that leads on to no link. -/
def Elem.Plain : Elem → Prop
  | .req (.reassoc _) | .req (.assoc _) | .conf .auth _ | .conf .assoc _ => False
  | _ => True

/-- A message that neither the authentication nor the association machine takes. -/
def Elem.ForCntl : Elem → Prop
  | .req _ | .timeout _ | .reset => False
  | .peer (.deauth _) => True
  | .peer _ => False
  | _ => True

/-- An announcement of another channel, which empties the queue. -/
def Elem.Empties (env : Env) : Elem → Prop
  | .peer .chSwAnn => env.switches = true
  | _ => False

/-- The association machine and the queue are as they were, and no link comes up. -/
structure Near (s t : Adapter) : Prop where
  assoc : t.assoc = s.assoc
  link : t.infraOn = true → s.infraOn = true
  queue : t.Queue = s.Queue

/-- All that the machines go by is as it was. -/
structure Same (s t : Adapter) : Prop extends Near s t where
  cntl : t.cntl = s.cntl
  auth : t.auth = s.auth
  armed : t.armed = s.armed

/-- The control machine waits for the synchronisation machine, or for nothing. -/
structure Rests (up : Prop) (s t : Adapter) : Prop where
  cntl : t.cntl.waits = none
  assoc : t.assoc = s.assoc
  link : t.infraOn = true → s.infraOn = true ∨ up
  queue : Grown Elem.Plain s.Queue t.Queue

/-- What the control machine can do on `e`: it stays in its wait, asks for something and waits for
it, or has nothing of the other machines to wait for. -/
inductive Moved (env : Env) (s : Adapter) (e : Elem) : Adapter → Prop
  | stays {t : Adapter} (hsame : Same s t)
      (hconf : ∀ k Status, e = .conf k Status → s.cntl.waits ≠ some k) : Moved env s e t
  | asks (x : MlmeAux) {r : Req} {c : Cntl} (hc : c.waits = some r.kind)
      (hr : Brings env s e (.req r)) : Moved env s e ({ s with MlmeAux := x }.ask r c)
  | rests {t : Adapter} (hrests : Rests (e.isGranted = true ∨ s.cntl = .waitReassoc) s t) :
      Moved env s e t

section Moved

variable {up : Prop} {s t : Adapter} {e : Elem} {env : Env} {k : Kind}

theorem Elem.Plain.brings {e' : Elem} (h : e'.Plain) : Brings env s e e' := by
  unfold Brings
  split
  · exact h.elim
  · exact h.elim
  · exact h.elim
  · exact h.elim
  · trivial

theorem same_aux (x : MlmeAux) : Same s { s with MlmeAux := x } :=
  ⟨⟨rfl, id, rfl⟩, rfl, rfl, rfl⟩

theorem same_linkDown : Same s (linkDown s) := by
  unfold linkDown
  split_ifs
  · exact same_aux s.MlmeAux
  · exact ⟨⟨rfl, id, rfl⟩, rfl, rfl, rfl⟩
  · exact ⟨⟨rfl, nofun, rfl⟩, rfl, rfl, rfl⟩

theorem Near.aux (h : Near s t) (x : MlmeAux) : Near s { t with MlmeAux := x } :=
  ⟨h.assoc, h.link, h.queue⟩

theorem Near.linkDown (h : Near s t) : Near s (linkDown t) :=
  have hdown : Same t (Connect.linkDown t) := same_linkDown
  ⟨hdown.assoc.trans h.assoc, h.link ∘ hdown.link, hdown.queue.trans h.queue⟩

theorem linkUp_assoc (x : BssType) : (linkUp s x).assoc = s.assoc := by
  unfold linkUp rtmpCancelTimer
  dsimp only
  split <;> rfl

theorem linkUp_queue (x : BssType) : (linkUp s x).Queue = s.Queue := by
  unfold linkUp rtmpCancelTimer
  dsimp only
  split <;> rfl

/-! ### Nothing to wait for -/

theorem rests_of_near {c : Cntl} (h : Near s t) (hc : c.waits = none) :
    Rests up s { t with cntl := c } :=
  ⟨hc, h.assoc, fun hon => Or.inl (h.link hon), grown_of_eq h.queue⟩

theorem rests_enqueue {c : Cntl} (h : Near s t) (hc : c.waits = none)
    (hlen : s.Queue.length ≤ maxLenOfMlmeQueue) (he : e.Plain) :
    Rests up s { mlmeEnqueue t e with cntl := c } := by
  refine ⟨hc, mlmeEnqueue_assoc.trans h.assoc, ?_, grown_enqueue h.queue hlen he⟩
  intro hon
  exact Or.inl (h.link (mlmeEnqueue_infraOn.symm.trans hon))

theorem rests_askSync {y : Sync} {c : Cntl} (h : Near s t) (hc : c.waits = none)
    (hlen : s.Queue.length ≤ maxLenOfMlmeQueue) : Rests up s (t.askSync y c) :=
  rests_enqueue h hc hlen trivial

theorem rests_iterate (h : Near s t) (hlen : s.Queue.length ≤ maxLenOfMlmeQueue) :
    Rests up s (iterateOnBssTab t) := by
  unfold iterateOnBssTab
  split_ifs
  · exact rests_askSync h rfl hlen
  · exact rests_askSync h rfl hlen
  · exact rests_askSync h rfl hlen
  · exact ⟨rfl, h.assoc, fun hon => Or.inl (h.link hon), grown_of_eq h.queue⟩

theorem rests_ibss : Rests up s (ibss env s) := by
  unfold ibss
  dsimp only
  split
  · exact rests_of_near ⟨rfl, id, rfl⟩ rfl
  · exact rests_of_near ⟨linkUp_assoc _, nofun, linkUp_queue _⟩ rfl

theorem rests_linkUp (hup : up) : Rests up s { linkUp s .infra with cntl := .idle } :=
  ⟨rfl, linkUp_assoc _, fun _ => Or.inr hup, grown_of_eq (linkUp_queue _)⟩

theorem rests_autoReconnect (byBssid validSsid : Bool) (h : Near s t) (hc : t.cntl = .idle)
    (hlen : s.Queue.length ≤ maxLenOfMlmeQueue) :
    Rests up s (mlmeAutoReconnectLastSSID t byBssid validSsid) := by
  have hidle : { t with cntl := .idle } = t := by rw [← hc]
  unfold mlmeAutoReconnectLastSSID
  split_ifs
  · exact rests_enqueue h rfl hlen trivial
  · have hkept : { mlmeEnqueue t (.oid .ssid) with cntl := .idle } = mlmeEnqueue t (.oid .ssid) := by
      rw [← hc, ← mlmeEnqueue_cntl (s := t) (e := .oid .ssid)]
    rw [← hkept]
    exact rests_enqueue h rfl hlen trivial
  · rw [← hidle]
    exact rests_of_near h rfl

/-! ### Each message -/

theorem moved_drop (he : ∀ k Status, e ≠ .conf k Status) : Moved env s e s :=
  .stays (same_aux s.MlmeAux) fun k Status heq => absurd heq (he k Status)

/-- A confirmation that is not waited for is dropped. -/
theorem conf_other (hw : s.cntl.waits ≠ some k) (Status : BitVec 16) :
    mlmeCntlMachinePerformAction env s (.conf k Status) = s := by
  cases k <;> cases hc : s.cntl <;>
    simp_all [mlmeCntlMachinePerformAction, Cntl.waits]

/-- One that is waited for ends the wait, or starts the next with its request. -/
theorem conf_awaited (hlen : s.Queue.length ≤ maxLenOfMlmeQueue) (hw : s.cntl.waits = some k)
    (Status : BitVec 16) :
    Moved env s (.conf k Status) (mlmeCntlMachinePerformAction env s (.conf k Status)) := by
  cases hc : s.cntl <;> rw [hc] at hw <;> cases hw <;>
    simp only [mlmeCntlMachinePerformAction, hc, if_true]
  case waitDisassoc =>
    have hdown : Near s (linkDown s) := same_linkDown.toNear
    unfold cntlWaitDisassocProc
    dsimp only
    split_ifs
    · exact .rests (rests_askSync hdown rfl hlen)
    · exact .rests (rests_iterate (hdown.aux _) hlen)
  case waitOidDisassoc => exact .rests (rests_of_near same_linkDown.toNear rfl)
  case waitAuth =>
    unfold cntlWaitAuthProc
    split_ifs with hok
    · exact .asks s.MlmeAux rfl (by rw [hok]; rfl)
    · exact .asks s.MlmeAux rfl trivial
  case waitAuth2 =>
    unfold cntlWaitAuthProc2
    split_ifs with hok
    · exact .asks s.MlmeAux rfl (by rw [hok]; rfl)
    · exact .asks s.MlmeAux rfl trivial
    · exact .rests (rests_iterate ⟨rfl, id, rfl⟩ hlen)
  case waitAssoc =>
    unfold cntlWaitAssocProc
    split_ifs with hok
    · exact .rests (rests_linkUp (Or.inl (by simp [Elem.isGranted, hok])))
    · exact .rests (rests_iterate ⟨rfl, id, rfl⟩ hlen)
  case waitReassoc =>
    unfold cntlWaitReassocProc iterateOnBssTab2
    dsimp only
    split_ifs
    · exact .rests (rests_linkUp (Or.inr hc))
    · exact .asks _ rfl hc
    · exact .rests ⟨rfl, rfl, Or.inl, .same⟩

theorem conf_moved (hlen : s.Queue.length ≤ maxLenOfMlmeQueue) (k : Kind) (Status : BitVec 16) :
    Moved env s (.conf k Status) (mlmeCntlMachinePerformAction env s (.conf k Status)) := by
  by_cases hw : s.cntl.waits = some k
  · exact conf_awaited hlen hw Status
  · rw [conf_other hw]
    refine .stays (same_aux s.MlmeAux) ?_
    intro k' Status' heq
    cases heq
    exact hw

theorem syncConf_moved (hlen : s.Queue.length ≤ maxLenOfMlmeQueue) (y : Sync)
    (Status : BitVec 16) :
    Moved env s (.syncConf y Status) (mlmeCntlMachinePerformAction env s (.syncConf y Status)) := by
  unfold mlmeCntlMachinePerformAction
  cases y with
  | join =>
      dsimp only
      unfold cntlWaitJoinProc
      split_ifs
      · exact .rests rests_ibss
      · exact .asks s.MlmeAux rfl trivial
      · exact .rests (rests_iterate ⟨rfl, id, rfl⟩ hlen)
      · exact moved_drop nofun
  | start =>
      dsimp only
      unfold cntlWaitStartProc
      split_ifs
      · exact .rests rests_ibss
      · exact .rests (rests_of_near ⟨rfl, id, rfl⟩ rfl)
      · exact moved_drop nofun
  | scan =>
      dsimp only
      split
      · exact .rests (rests_of_near ⟨rfl, id, rfl⟩ rfl)
      · split
        · exact .rests (rests_autoReconnect _ _ ⟨rfl, id, rfl⟩ rfl hlen)
        · exact .rests ⟨rfl, rfl, Or.inl, .same⟩
      · exact moved_drop nofun

theorem oid_moved (hlen : s.Queue.length ≤ maxLenOfMlmeQueue) (o : Oid) :
    Moved env s (.oid o) (mlmeCntlMachinePerformAction env s (.oid o)) := by
  have hdown (x : MlmeAux) : Near s (linkDown { s with MlmeAux := x }) :=
    (same_aux x).toNear.linkDown
  unfold mlmeCntlMachinePerformAction
  dsimp only
  split
  · cases o with
    | ssid =>
        unfold cntlIdleProc cntlOidSsidProc
        dsimp only
        generalize (if s.BssType = .infra then List.replicate 6 0 else s.MlmeAux.Bssid) = Bssid
        split_ifs
        · exact .asks _ rfl trivial
        · exact .rests ⟨rfl, rfl, Or.inl, .same⟩
        · exact .asks _ rfl trivial
        · exact .rests (rests_askSync (hdown _) rfl hlen)
        · exact .rests (rests_askSync ⟨rfl, id, rfl⟩ rfl hlen)
        · exact .rests (rests_iterate ((hdown _).aux _) hlen)
        · exact .rests (rests_iterate ⟨rfl, id, rfl⟩ hlen)
    | bssid Bssid =>
        unfold cntlIdleProc cntlOidRTBssidProc
        dsimp only
        split_ifs
        · exact .asks _ rfl trivial
        · exact .rests (rests_askSync (hdown _) rfl hlen)
        · exact .rests (rests_askSync ⟨rfl, id, rfl⟩ rfl hlen)
        · exact .rests (rests_askSync ⟨rfl, id, rfl⟩ rfl hlen)
        · exact .rests (rests_askSync ⟨rfl, id, rfl⟩ rfl hlen)
    | bssidListScan =>
        unfold cntlIdleProc cntlOidScanProc
        dsimp only
        split
        · exact .rests (rests_askSync ⟨rfl, id, rfl⟩ rfl hlen)
        · exact moved_drop nofun
    | disassociate => exact .asks s.MlmeAux rfl trivial
    | roaming => exact .rests (rests_iterate ⟨rfl, id, rfl⟩ hlen)
  · exact moved_drop nofun

/-- **The control machine** on any of its messages. -/
theorem handleElem_moved (hlen : s.Queue.length ≤ maxLenOfMlmeQueue) (he : e.ForCntl) :
    Moved env s e (handleElem env s e) := by
  cases e with
  | req r | timeout k | reset => exact he.elim
  | conf k Status => exact conf_moved hlen k Status
  | deauthConf Status => exact moved_drop nofun
  | syncConf y Status => exact syncConf_moved hlen y Status
  | oid o => exact oid_moved hlen o
  | syncReq y =>
      cases y with
      | scan =>
          show Moved env s _ (if env.scanning then _ else s)
          split
          · exact .rests (rests_of_near ⟨rfl, id, rfl⟩ rfl)
          · exact moved_drop nofun
      | join | start => exact .stays (same_aux _) nofun
  | peer f =>
      cases f with
      | authEven m | assocRsp m len | reassocRsp m len | disassocReq m | chSwAnn => exact he.elim
      | deauth m =>
          show Moved env s _ (peerDeauthAction env s m)
          unfold peerDeauthAction
          split_ifs
          · exact .rests (rests_iterate (same_linkDown.toNear.aux _) hlen)
          · exact .stays same_linkDown nofun
          · exact moved_drop nofun

/-! ### What follows from it -/

theorem Moved.grown (h : Moved env s e t) (hlen : s.Queue.length ≤ maxLenOfMlmeQueue) :
    Grown (Brings env s e) s.Queue t.Queue := by
  cases h with
  | stays hsame _ => exact grown_of_eq hsame.queue
  | asks x _ hr => exact grown_ask rfl hlen hr
  | rests hrests => exact hrests.queue.mono fun _ => Elem.Plain.brings

theorem Moved.assoc (h : Moved env s e t) : t.assoc = s.assoc := by
  cases h with
  | stays hsame _ => exact hsame.assoc
  | asks x _ _ => exact mlmeEnqueue_assoc (s := { s with MlmeAux := x })
  | rests hrests => exact hrests.assoc

theorem Moved.cntl (h : Moved env s e t) (hs : s.cntl ≠ .waitReassoc) : t.cntl ≠ .waitReassoc := by
  cases h with
  | stays hsame _ => exact hsame.cntl.trans_ne hs
  | asks x hc hr =>
      rename_i r c
      rintro (rfl : c = .waitReassoc)
      cases r with
      | reassoc Addr => exact hs hr
      | auth Addr Alg | assoc Addr | disassoc Addr => cases hc
  | rests hrests =>
      intro hroam
      have hwaits := hrests.cntl
      rw [hroam] at hwaits
      cases hwaits

/-- A link comes up on an association that was granted. -/
theorem Moved.link (h : Moved env s e t) (hs : s.cntl ≠ .waitReassoc) (hon : t.infraOn = true) :
    s.infraOn = true ∨ e.isGranted = true := by
  cases h with
  | stays hsame _ => exact Or.inl (hsame.link hon)
  | asks x _ _ => exact Or.inl ((mlmeEnqueue_infraOn (s := { s with MlmeAux := x })).symm.trans hon)
  | rests hrests =>
      rcases hrests.link hon with hold | hgranted | hroam
      · exact Or.inl hold
      · exact Or.inr hgranted
      · exact absurd hroam hs

end Moved

/-! ## What the other machines do -/

/-- Nothing but the machine of `k`, its timer and `MlmeAux` is another. -/
structure Alike (k : Kind) (s t : Adapter) : Prop where
  cntl : t.cntl = s.cntl
  link : t.infraOn = true → s.infraOn = true
  armed : ∀ k', k' ≠ k → t.armed k' = s.armed k'
  auth : k ≠ .auth → t.auth = s.auth
  assoc : k = .auth → t.assoc = s.assoc

/-- Confirmations of `k` are put into the queue, one if there is room. -/
structure Confirmed (env : Env) (s : Adapter) (e : Elem) (k : Kind) (t : Adapter) : Prop where
  alike : Alike k s t
  idle : k ≠ .auth → t.assoc = .idle
  queue : Grown (fun e' => (∃ Status, e' = .conf k Status) ∧ Brings env s e e') s.Queue t.Queue
  asked : s.Queue.length ≠ maxLenOfMlmeQueue → Asked k t.Queue

/-- A message that has the machine of `k` act. -/
def Elem.Tells (s : Adapter) (k : Kind) : Elem → Prop
  | .req r => r.kind = k
  | .timeout k' => k' = k ∧ Waiting s k
  | .peer (.authEven _) => k = .auth ∧ Waiting s k
  | .peer (.assocRsp ..) | .peer (.reassocRsp ..) => k ≠ .auth ∧ Waiting s k
  | .peer (.disassocReq m) => k = .disassoc ∧ fromOwnAp s m = true ∧ s.cntl = .waitDisassoc
  | _ => False

/-- A request that the machine of `k` is free for, or an answer it waits for. -/
def Elem.Begins (s : Adapter) (k : Kind) (e : Elem) : Prop :=
  e.Tells s k ∧ (k ≠ .auth → s.assoc = .idle ∧ ∃ r, e = .req r)

/-- What a turn of the authentication or the association machine can do on `e`: drop it, confirm
something, wait for the access point, or give up a wait without a word. -/
inductive Played (env : Env) (s : Adapter) (e : Elem) : Adapter → Prop
  | drops (hset : ∀ k, ¬ e.Settles k) (hout : ∀ k, e = .timeout k → ¬ Waiting s k)
      (hown : ∀ m, e = .peer (.disassocReq m) → fromOwnAp s m ≠ true) : Played env s e s
  | confirms {k : Kind} {t : Adapter} (hconf : Confirmed env s e k t) (he : e.Tells s k) :
      Played env s e t
  | begins {k : Kind} {t : Adapter} (halike : Alike k s t) (hq : t.Queue = s.Queue)
      (he : e.Begins s k) (hwait : Waiting t k) (harmed : t.armed k = true) : Played env s e t
  | cuts (m : Mem) (he : e = .peer (.disassocReq m)) (hown : fromOwnAp s m = true)
      (hcntl : s.cntl ≠ .waitDisassoc) : Played env s e { linkDown s with assoc := .idle }

section Played

variable {s t u : Adapter} {k k' : Kind} {e : Elem} {env : Env} {Status : BitVec 16}

theorem rtmpSetTimer_armed : (rtmpSetTimer s k).armed k = true := Function.update_self ..

theorem alike_refl : Alike k s s := ⟨rfl, id, fun _ _ => rfl, fun _ => rfl, fun _ => rfl⟩

theorem Alike.timer (h : Alike k s t) (b : Bool) :
    Alike k s { t with armed := Function.update t.armed k b } := by
  refine ⟨h.cntl, h.link, ?_, h.auth, h.assoc⟩
  intro k' hne
  exact (Function.update_of_ne hne ..).trans (h.armed k' hne)

theorem Alike.aux (h : Alike k s t) (x : MlmeAux) : Alike k s { t with MlmeAux := x } :=
  ⟨h.cntl, h.link, h.armed, h.auth, h.assoc⟩

theorem Alike.setAuth (h : Alike .auth s t) (a : Auth) : Alike .auth s { t with auth := a } :=
  ⟨h.cntl, h.link, h.armed, fun hk => absurd rfl hk, h.assoc⟩

theorem Alike.setAssoc (h : Alike k s t) (hk : k ≠ .auth) (a : Assoc) :
    Alike k s { t with assoc := a } :=
  ⟨h.cntl, h.link, h.armed, h.auth, fun heq => absurd heq hk⟩

theorem alike_linkDown : Alike .disassoc s { linkDown s with assoc := .idle } :=
  have hdown : Same s (linkDown s) := same_linkDown
  ⟨hdown.cntl, hdown.link, fun _ _ => by rw [hdown.armed], fun _ => hdown.auth, nofun⟩

theorem Alike.endWith (h : Alike k s t) : Alike k s (endWith k Status t) := by
  have hidle : Alike k s (toIdle t k) := by
    cases k with
    | auth => exact h.setAuth _
    | assoc | reassoc | disassoc => exact h.setAssoc nofun _
  exact ⟨mlmeEnqueue_cntl.trans hidle.cntl, fun hon => hidle.link (mlmeEnqueue_infraOn.symm.trans hon),
    fun k' hne => by rw [← hidle.armed k' hne]; exact congrFun mlmeEnqueue_armed k',
    fun hk => mlmeEnqueue_auth.trans (hidle.auth hk),
    fun hk => mlmeEnqueue_assoc.trans (hidle.assoc hk)⟩

theorem endWith_assoc (hk : k ≠ .auth) (Status : BitVec 16) : (endWith k Status s).assoc = .idle := by
  cases k with
  | auth => exact absurd rfl hk
  | assoc | reassoc | disassoc => exact mlmeEnqueue_assoc

/-! ### Confirmations -/

theorem brings_of_ne (hne : Status ≠ mlmeSuccess) : Brings env s e (.conf k Status) := by
  cases k with
  | auth | assoc => exact fun hs => absurd hs hne
  | reassoc | disassoc => trivial

theorem confirmed_endWith (hu : Alike k s u) (hq : u.Queue = s.Queue)
    (hlen : s.Queue.length ≤ maxLenOfMlmeQueue) (hok : Brings env s e (.conf k Status)) :
    Confirmed env s e k (endWith k Status u) where
  alike := hu.endWith
  idle hk := endWith_assoc hk _
  queue := grown_endWith hq hlen ⟨⟨Status, rfl⟩, hok⟩
  asked hroom := asked_of_room (by rw [toIdle_queue, hq]; exact hroom) rfl

theorem Confirmed.setAuth (h : Confirmed env s e .auth t) (a : Auth) :
    Confirmed env s e .auth { t with auth := a } :=
  ⟨h.alike.setAuth a, h.idle, h.queue, h.asked⟩

/-- A request that fails may be confirmed as one that was not well formed, too. -/
theorem Confirmed.again (h : Confirmed env s e k t) (hlen : s.Queue.length ≤ maxLenOfMlmeQueue)
    (hne : Status ≠ mlmeSuccess) : Confirmed env s e k (endWith k Status t) where
  alike := h.alike.endWith
  idle hk := endWith_assoc hk _
  queue := h.queue.trans (grown_endWith rfl (h.queue.short hlen) ⟨⟨Status, rfl⟩, brings_of_ne hne⟩)
  asked hroom := (h.asked hroom).mono fun _ he => mlmeEnqueue_old (by rw [toIdle_queue]; exact he)

/-! ### Each message -/

theorem authReq_played (hlen : s.Queue.length ≤ maxLenOfMlmeQueue) (Addr : Octets)
    (Alg : BitVec 16) :
    Played env s (.req (.auth Addr Alg)) (authAction env s (.req (.auth Addr Alg))) := by
  have hend {u : Adapter} {Status : BitVec 16} (hu : Alike .auth s u) (hq : u.Queue = s.Queue)
      (hne : Status ≠ mlmeSuccess) :
      Confirmed env s (.req (.auth Addr Alg)) .auth (endWith .auth Status u) :=
    confirmed_endWith hu hq hlen (brings_of_ne hne)
  have hcancelled : Alike .auth s (rtmpCancelTimer s .auth) := alike_refl.timer false
  show Played env s _ (if s.auth = .reqIdle then mlmeAuthReqAction env s Addr Alg else _)
  split
  · unfold mlmeAuthReqAction authReqSend
    split_ifs
    · exact .confirms ((hend alike_refl rfl (by decide)).setAuth _) rfl
    · exact .begins (((hcancelled.aux _).timer true).setAuth _) rfl ⟨rfl, fun hk => absurd rfl hk⟩
        nofun (by simp [rtmpSetTimer])
    · exact .confirms ((hend (hcancelled.aux _) rfl (by decide)).again hlen (by decide)) rfl
    · exact .confirms (hend alike_refl rfl (by decide)) rfl
  · exact .confirms (hend alike_refl rfl (by decide)) rfl

theorem authEven_played (hlen : s.Queue.length ≤ maxLenOfMlmeQueue) (m : Mem) :
    Played env s (.peer (.authEven m)) (authAction env s (.peer (.authEven m))) := by
  have hdrop : Played env s (.peer (.authEven m)) s := .drops (fun _ => id) nofun nofun
  have hcancelled : Alike .auth s (rtmpCancelTimer s .auth) := alike_refl.timer false
  unfold authAction
  dsimp only
  split
  · exact hdrop
  · rename_i hauth
    have htells : (Elem.peer (.authEven m)).Tells s .auth := ⟨rfl, by simp [Waiting, hauth]⟩
    unfold peerAuthRspAtSeq2Action
    dsimp only
    split_ifs with _ hanswer hok halg
    · exact hdrop
    · refine .confirms (confirmed_endWith hcancelled rfl hlen ?_) htells
      intro _
      simp_all [authenticates, rtmpCancelTimer]
    · exact .confirms (confirmed_endWith hcancelled rfl hlen (brings_of_ne (by decide))) htells
    · exact .begins ((hcancelled.timer true).setAuth _) rfl ⟨htells, fun hk => absurd rfl hk⟩ nofun
        (by simp [rtmpSetTimer])
    · exact .confirms (confirmed_endWith hcancelled rfl hlen (brings_of_ne hok)) htells
    · exact hdrop
  · rename_i hauth
    have htells : (Elem.peer (.authEven m)).Tells s .auth := ⟨rfl, by simp [Waiting, hauth]⟩
    unfold peerAuthRspAtSeq4Action
    split_ifs with _ hanswer
    · exact hdrop
    · refine .confirms (confirmed_endWith hcancelled rfl hlen ?_) htells
      intro hok
      simp_all [authenticates]
    · exact hdrop

theorem assocReq_played (hlen : s.Queue.length ≤ maxLenOfMlmeQueue) {r : Req}
    (hr : r.kind ≠ .auth) : Played env s (.req r) (assocAction env s (.req r)) := by
  have hend {u : Adapter} {Status : BitVec 16} (hu : Alike r.kind s u) (hq : u.Queue = s.Queue)
      (hne : Status ≠ mlmeSuccess) : Played env s (.req r) (endWith r.kind Status u) :=
    .confirms (confirmed_endWith hu hq hlen (brings_of_ne hne)) rfl
  have hbegin {u : Adapter} {a : Assoc} (hu : Alike r.kind s u) (hq : u.Queue = s.Queue)
      (hidle : s.assoc = .idle) (hwait : Waiting { u with assoc := a } r.kind)
      (harmed : u.armed r.kind = true) : Played env s (.req r) { u with assoc := a } :=
    .begins (hu.setAssoc hr a) hq ⟨rfl, fun _ => ⟨hidle, r, rfl⟩⟩ hwait harmed
  have hcancelled : Alike r.kind s (rtmpCancelTimer s r.kind) := alike_refl.timer false
  cases r with
  | auth Addr Alg => exact absurd rfl hr
  | assoc Addr =>
      unfold assocAction mlmeAssocReqAction
      dsimp only
      split_ifs with hidle
      · exact hend alike_refl rfl (by decide)
      · exact hbegin ((hcancelled.aux _).timer true) rfl hidle rfl rtmpSetTimer_armed
      · exact hend (hcancelled.aux _) rfl (by decide)
      · exact hend alike_refl rfl (by decide)
  | reassoc Addr =>
      unfold assocAction mlmeReassocReqAction
      dsimp only
      split_ifs with hidle
      · exact hend alike_refl rfl (by decide)
      · exact hbegin ((hcancelled.aux _).timer true) rfl hidle rfl rtmpSetTimer_armed
      · exact hend hcancelled rfl (by decide)
      · exact hend alike_refl rfl (by decide)
  | disassoc Addr =>
      unfold assocAction mlmeDisassocReqAction
      dsimp only
      split_ifs with hidle
      · exact hbegin (alike_refl.timer true) rfl hidle rfl rtmpSetTimer_armed
      · exact hend alike_refl rfl (by decide)
      · exact hend alike_refl rfl (by decide)

theorem timeout_played (hlen : s.Queue.length ≤ maxLenOfMlmeQueue) (k : Kind) :
    Played env s (.timeout k) (handleElem env s (.timeout k)) := by
  have hdrop (hidle : ¬ Waiting s k) : Played env s (.timeout k) s := by
    refine .drops (fun _ => id) ?_ nofun
    intro k' heq
    cases heq
    exact hidle
  have hend {Status : BitVec 16} (hw : Waiting s k) (hok : Brings env s (.timeout k) (.conf k Status)) :
      Played env s (.timeout k) (endWith k Status s) :=
    .confirms (confirmed_endWith alike_refl rfl hlen hok) ⟨rfl, hw⟩
  cases k with
  | auth =>
      show Played env s _ (if s.auth = .reqIdle then s else authTimeoutAction s)
      split
      · exact hdrop fun hw => hw ‹_›
      · exact hend ‹_› (brings_of_ne (by decide))
  | assoc =>
      show Played env s _ (if s.assoc = .waitRsp then assocTimeoutAction s else s)
      split
      · exact hend ‹_› (brings_of_ne (by decide))
      · exact hdrop ‹_›
  | reassoc =>
      show Played env s _ (if s.assoc = .reassocWaitRsp then reassocTimeoutAction s else s)
      split
      · exact hend ‹_› (brings_of_ne (by decide))
      · exact hdrop ‹_›
  | disassoc =>
      show Played env s _ (if s.assoc = .disassocWaitRsp then disassocTimeoutAction s else s)
      split
      · exact hend ‹_› trivial
      · exact hdrop ‹_›

/-- A response of either kind goes by the state of the machine. -/
theorem assocRsp_played (hlen : s.Queue.length ≤ maxLenOfMlmeQueue) {f : Frame} {m : Mem}
    {len : Nat} (hf : f = .assocRsp m len ∨ f = .reassocRsp m len) :
    Played env s (.peer f) (assocAction env s (.peer f)) := by
  rcases hf with rfl | rfl <;>
  · have hdrop (f : Frame) (hf : ∀ m, f ≠ .disassocReq m) : Played env s (.peer f) s :=
      .drops (fun _ => id) nofun fun m heq => absurd (Elem.peer.inj heq) (hf m)
    unfold assocAction
    dsimp only
    split
    · rename_i hs
      unfold peerAssocRspAction
      split
      · rename_i Status hanswer
        refine .confirms (k := .assoc)
          (confirmed_endWith (alike_refl.timer false) rfl hlen ?_) ⟨nofun, hs⟩
        intro hok
        simp [associates, hs, hanswer, hok]
      · exact hdrop _ nofun
    · rename_i hs
      unfold peerReassocRspAction
      split
      · exact .confirms (k := .reassoc)
          (confirmed_endWith (alike_refl.timer false) rfl hlen trivial) ⟨nofun, hs⟩
      · exact hdrop _ nofun
    · exact hdrop _ nofun
    · exact hdrop _ nofun

theorem peerDisassoc_played (hlen : s.Queue.length ≤ maxLenOfMlmeQueue) (m : Mem) :
    Played env s (.peer (.disassocReq m)) (peerDisassocAction s m) := by
  unfold peerDisassocAction
  split_ifs with hown hcntl
  · have halike : Alike .disassoc s (mlmeEnqueue s (.conf .disassoc mlmeSuccess)) :=
      ⟨mlmeEnqueue_cntl, mlmeEnqueue_infraOn.symm.trans, fun _ _ => by rw [mlmeEnqueue_armed],
        fun _ => mlmeEnqueue_auth, nofun⟩
    refine .confirms (k := .disassoc) ⟨halike.setAssoc nofun _, fun _ => rfl, ?_, ?_⟩ ⟨rfl, hown, hcntl⟩
    · exact grown_enqueue rfl hlen ⟨⟨_, rfl⟩, trivial⟩
    · exact fun hroom => asked_of_room hroom rfl
  · exact .cuts m rfl hown hcntl
  · refine .drops (fun _ => id) nofun ?_
    intro m' heq
    cases heq
    exact hown

theorem handleElem_empties (h : e.Empties env) :
    handleElem env s e = mlmeQueueInit (linkDown s) := by
  unfold Elem.Empties at h
  split at h
  · exact if_pos h
  · exact h.elim

/-- **A turn of the handler**: the machines are set to idle or the queue is emptied, the control
machine takes it, or one of the two others. -/
theorem handleElem_turns (env : Env) (e : Elem) (hlen : s.Queue.length ≤ maxLenOfMlmeQueue) :
    e = .reset ∨ e.Empties env ∨ e.ForCntl ∧ Moved env s e (handleElem env s e) ∨
      Played env s e (handleElem env s e) := by
  cases e with
  | reset => exact Or.inl rfl
  | syncReq y | conf k Status | deauthConf Status | syncConf y Status | oid o =>
      exact Or.inr (Or.inr (Or.inl ⟨trivial, handleElem_moved hlen trivial⟩))
  | timeout k => exact Or.inr (Or.inr (Or.inr (timeout_played hlen k)))
  | req r =>
      right; right; right
      cases r with
      | auth Addr Alg => exact authReq_played hlen Addr Alg
      | assoc Addr | reassoc Addr | disassoc Addr => exact assocReq_played hlen nofun
  | peer f =>
      right
      cases f with
      | authEven m => exact Or.inr (Or.inr (authEven_played hlen m))
      | assocRsp m len => exact Or.inr (Or.inr (assocRsp_played hlen (Or.inl rfl)))
      | reassocRsp m len => exact Or.inr (Or.inr (assocRsp_played hlen (Or.inr rfl)))
      | disassocReq m => exact Or.inr (Or.inr (peerDisassoc_played hlen m))
      | deauth m => exact Or.inr (Or.inl ⟨trivial, handleElem_moved hlen trivial⟩)
      | chSwAnn =>
          by_cases hswitches : env.switches = true
          · exact Or.inl hswitches
          · have hdrop : handleElem env s (.peer .chSwAnn) = s := if_neg hswitches
            rw [hdrop]
            exact Or.inr (Or.inr (.drops (fun _ => id) nofun nofun))

/-- The messages of the two other machines. -/
theorem handleElem_played (hlen : s.Queue.length ≤ maxLenOfMlmeQueue) (he : e ≠ .reset)
    (hempty : ¬ e.Empties env) (hcntl : ¬ e.ForCntl) : Played env s e (handleElem env s e) := by
  rcases handleElem_turns env e hlen with hreset | hempties | ⟨hfor, _⟩ | hplayed
  · exact absurd hreset he
  · exact absurd hempties hempty
  · exact absurd hfor hcntl
  · exact hplayed

/-! ### What follows from it -/

theorem Played.grown (h : Played env s e t) : Grown (Brings env s e) s.Queue t.Queue := by
  cases h with
  | drops _ _ _ => exact .same
  | confirms hconf _ => exact hconf.queue.mono fun _ => And.right
  | begins _ hq _ _ _ => exact grown_of_eq hq
  | cuts m _ _ _ => exact grown_of_eq same_linkDown.queue

theorem Played.cntl (h : Played env s e t) : t.cntl = s.cntl := by
  cases h with
  | drops _ _ _ => rfl
  | confirms hconf _ => exact hconf.alike.cntl
  | begins halike _ _ _ _ => exact halike.cntl
  | cuts m _ _ _ => exact alike_linkDown.cntl

theorem Played.link (h : Played env s e t) : t.infraOn = true → s.infraOn = true := by
  cases h with
  | drops _ _ _ => exact id
  | confirms hconf _ => exact hconf.alike.link
  | begins halike _ _ _ _ => exact halike.link
  | cuts m _ _ _ => exact alike_linkDown.link

/-- The association machine waits for a response only to what it is asked. -/
theorem Played.assoc (h : Played env s e t) :
    t.assoc = s.assoc ∨ t.assoc = .idle ∨ t.assoc = .disassocWaitRsp ∨
      t.assoc = .waitRsp ∧ (∃ Addr, e = .req (.assoc Addr)) ∨
      t.assoc = .reassocWaitRsp ∧ ∃ Addr, e = .req (.reassoc Addr) := by
  cases h with
  | drops _ _ _ => exact Or.inl rfl
  | confirms hconf htells =>
      rename_i k
      by_cases hk : k = .auth
      · exact Or.inl (hconf.alike.assoc hk)
      · exact Or.inr (Or.inl (hconf.idle hk))
  | begins halike hq he hwait harmed =>
      rename_i k
      by_cases hk : k = .auth
      · exact Or.inl (halike.assoc hk)
      obtain ⟨_, r, rfl⟩ := he.2 hk
      obtain rfl : r.kind = k := he.1
      cases r with
      | auth Addr Alg => exact absurd rfl hk
      | assoc Addr => exact Or.inr (Or.inr (Or.inr (Or.inl ⟨hwait, Addr, rfl⟩)))
      | reassoc Addr => exact Or.inr (Or.inr (Or.inr (Or.inr ⟨hwait, Addr, rfl⟩)))
      | disassoc Addr => exact Or.inr (Or.inr (Or.inl hwait))
  | cuts m _ _ _ => exact Or.inr (Or.inl rfl)

end Played

/-! ## What each turn puts into the queue -/

section Machines

variable {P : Elem → Prop} {s t : Adapter} {q : List Elem} {e : Elem} {env : Env}

theorem mlmeAutoReconnectLastSSID_grown {byBssid validSsid : Bool} (ht : t.Queue = q)
    (hlen : q.length ≤ maxLenOfMlmeQueue) (hP : ∀ o, P (.oid o)) :
    Grown P q (mlmeAutoReconnectLastSSID t byBssid validSsid).Queue := by
  unfold mlmeAutoReconnectLastSSID
  split_ifs
  · exact grown_enqueue ht hlen (hP _)
  · exact grown_enqueue ht hlen (hP _)
  · exact grown_of_eq ht

/-- **A turn of the handler** puts into the queue what its message brings, or empties it. -/
theorem handleElem_fed (hlen : s.Queue.length ≤ maxLenOfMlmeQueue) :
    Fed (Brings env s e) s.Queue (handleElem env s e).Queue := by
  rcases handleElem_turns env e hlen with rfl | hempties | ⟨_, hmoved⟩ | hplayed
  · exact Or.inr .same
  · exact Or.inl (congrArg Adapter.Queue (handleElem_empties hempties))
  · exact Or.inr (hmoved.grown hlen)
  · exact Or.inr hplayed.grown

/-- **Every other step** puts plain messages there only. -/
theorem step_grown (hlen : s.Queue.length ≤ maxLenOfMlmeQueue) {op : Op}
    (hop : ∀ env, op ≠ .handle env) : Grown Elem.Plain s.Queue (step s op).Queue := by
  have hdisassoc {t : Adapter} (ht : t.Queue = s.Queue) (env : Env) :
      Grown Elem.Plain s.Queue (mlmeDisassocReqAction env t).Queue := by
    unfold mlmeDisassocReqAction
    split
    · exact grown_of_eq ht
    · exact grown_endWith ht hlen trivial
  cases op with
  | handle env => exact absurd rfl (hop env)
  | fires k =>
      unfold step
      dsimp only
      split
      · exact grown_enqueue rfl hlen trivial
      · exact .same
  | receive f =>
      unfold step mlmeEnqueueForRecv
      dsimp only
      split
      · exact .same
      · rename_i hhalf
        have hroom : s.Queue.length < maxLenOfMlmeQueue := by
          simp only [maxLenOfMlmeQueue] at hhalf ⊢
          omega
        exact Grown.same.put hroom trivial
  | oid o => exact grown_enqueue rfl hlen trivial
  | autoReconnect byBssid validSsid =>
      exact mlmeAutoReconnectLastSSID_grown rfl hlen fun _ => trivial
  | reset => exact grown_enqueue rfl hlen trivial
  | syncConf y Status => exact grown_enqueue rfl hlen trivial
  | scan waits => cases waits <;> exact grown_enqueue rfl hlen trivial
  | linkDown => exact grown_of_eq same_linkDown.queue
  | linkDownExec env =>
      unfold step linkDownExec
      dsimp only
      split
      · exact grown_ask rfl hlen trivial
      · exact .same
  | wpaDisassocApAndBlockAssoc => exact grown_ask (c := .waitDisassoc) rfl hlen trivial
  | blockAssoc b => exact .same
  | iwMlmeDeauth env =>
      have hconf : Grown Elem.Plain s.Queue (mlmeDeauthReqAction env s).Queue :=
        grown_enqueue rfl hlen trivial
      unfold step iwMlmeDeauth
      dsimp only
      split
      · show Grown _ _ (linkDown _).Queue
        rw [same_linkDown.queue]
        exact hconf
      · exact hconf
  | iwMlmeDisassoc env => exact hdisassoc (t := { s with cntl := .waitOidDisassoc }) rfl env
  | radioOff env =>
      unfold step radioOff
      dsimp only
      split
      · exact hdisassoc rfl env
      · exact .same

/-- The queue never holds more than its size. -/
theorem step_short (hlen : s.Queue.length ≤ maxLenOfMlmeQueue) (op : Op) :
    (step s op).Queue.length ≤ maxLenOfMlmeQueue := by
  cases op with
  | handle env =>
      show (mlmeHandler env s).Queue.length ≤ maxLenOfMlmeQueue
      unfold mlmeHandler
      split
      · exact hlen
      · rename_i e es hq
        have hrest : es.length ≤ maxLenOfMlmeQueue := by
          rw [hq] at hlen
          exact Nat.le_of_succ_le hlen
        exact (handleElem_fed (s := { s with Queue := es }) hrest).short hrest
  | _ =>
      apply (step_grown hlen _).short hlen
      intro env heq
      cases heq

end Machines

end ExtDrv.Rt3370.Connect
