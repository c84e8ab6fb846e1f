import ExtDrv.Lib.ForLoop
import ExtDrv.Rt3370.DlsTables

/-!
# The handlers of direct links

Each handler is a few of the changes that keep the invariant, if the step is careful. So along a
careful run the two tables agree whenever the queue is empty.
-/

namespace ExtDrv.Rt3370.Dls

open Mac Function

section

variable {p : DlsIdx → Prop} {s s' : State} {i : DlsIdx}

/-! ## A queued tear-down -/

/-- The links to `da` are being removed; the entries in `rem` are still to come. -/
structure Removing (da : Bytes 6) (rem : List DlsIdx) (s : State) : Prop where
  placed : Placed s.MacTab
  owned : ∀ w a, linked s.MacTab w = some a → ∃ i, (s.DLSEntry i).MacTabMatchWCID = w.val ∧
    (s.DLSEntry i).MacAddr = a ∧ ((s.DLSEntry i).Valid = true ∨ Dying s a ∨ (a = da ∧ i ∈ rem))
  finished : ∀ i, (s.DLSEntry i).Valid = true → (s.DLSEntry i).Status = dlsFinish →
    ((s.DLSEntry i).MacAddr ≠ da ∧ Settled s i) ∨
      ((s.DLSEntry i).MacAddr = da ∧ 1 ≤ i.val ∧ i ∈ rem)
  unique : ∀ i j, (s.DLSEntry i).Valid = true → (s.DLSEntry j).Valid = true →
    (s.DLSEntry i).MacAddr = (s.DLSEntry j).MacAddr → i = j

theorem Removing.inv {da : Bytes 6} (h : Removing da [] s) : Inv s where
  placed := h.placed
  owned := by
    intro w a hl
    obtain ⟨i, hi, ha, hv⟩ := h.owned w a hl
    exact ⟨i, hi, ha, hv.imp_right fun hd => hd.resolve_right fun hr => List.not_mem_nil hr.2⟩
  finished := by
    intro i _ hv hf
    rcases h.finished i hv hf with hs | hr
    · exact hs.2
    · exact (List.not_mem_nil hr.2.2).elim
  unique := h.unique

/-- An entry with another address is passed by. -/
theorem Removing.pass {da : Bytes 6} {rem : List DlsIdx} (h : Removing da (i :: rem) s)
    (hne : (s.DLSEntry i).MacAddr ≠ da) : Removing da rem s where
  placed := h.placed
  owned := by
    intro w a hl
    obtain ⟨k, hk, ha, hv⟩ := h.owned w a hl
    refine ⟨k, hk, ha, hv.imp_right (Or.imp_right fun ⟨had, hmem⟩ => ⟨had, ?_⟩)⟩
    refine (List.mem_cons.mp hmem).resolve_left ?_
    rintro rfl
    exact hne (ha.trans had)
  finished := by
    intro k hv hf
    refine (h.finished k hv hf).imp_right fun ⟨ha, hpos, hmem⟩ => ⟨ha, hpos, ?_⟩
    refine (List.mem_cons.mp hmem).resolve_left ?_
    rintro rfl
    exact hne ha
  unique := h.unique

/-- An entry with the address loses its link, and ends if it is one of those that may be finished
until then. -/
theorem Removing.drop {da : Bytes 6} {rem : List DlsIdx} (h : Removing da (i :: rem) s)
    (hda : (s.DLSEntry i).MacAddr = da) (hdrop : Dropped i s s')
    (hend : s'.DLSEntry i = s.DLSEntry i ∧ i.val < 1 ∨ (s'.DLSEntry i).Valid = false) :
    Removing da rem s' where
  placed := hdrop.links.placed h.placed
  owned := by
    intro w a hl
    obtain ⟨hold, hnot⟩ := hdrop.linked h.placed hl
    obtain ⟨k, hk, ha, hv⟩ := h.owned w a hold
    have hki := hnot k hk ha
    rw [← hdrop.others k hki] at hk ha hv
    refine ⟨k, hk, ha, hv.imp_right (Or.imp (hdrop.dying a).mpr (And.imp_right fun hmem => ?_))⟩
    exact (List.mem_cons.mp hmem).resolve_left hki
  finished := by
    intro k hv hf
    by_cases hki : k = i
    · subst hki
      rcases hend with ⟨hsame, hlocal⟩ | hinvalid
      · rw [hsame] at hv hf
        rcases h.finished k hv hf with hs | hr
        · exact (hs.1 hda).elim
        · omega
      · rw [hinvalid] at hv
        cases hv
    · rw [hdrop.others k hki] at hv hf ⊢
      rcases h.finished k hv hf with hs | hr
      · exact Or.inl ⟨hs.1, hdrop.settled (hda ▸ hs.1) hs.2⟩
      · exact Or.inr ⟨hr.1, hr.2.1, (List.mem_cons.mp hr.2.2).resolve_left hki⟩
  unique := by
    have hvalid (m : DlsIdx) (hm : (s'.DLSEntry m).Valid = true) : (s.DLSEntry m).Valid = true := by
      by_cases hmi : m = i
      · subst hmi
        rcases hend with ⟨hsame, -⟩ | hinvalid
        · rw [hsame] at hm
          exact hm
        · rw [hinvalid] at hm
          cases hm
      · rw [hdrop.others m hmi] at hm
        exact hm
    intro j k hj hk heq
    rw [hdrop.macAddr, hdrop.macAddr] at heq
    exact h.unique j k (hvalid j hj) (hvalid k hk) heq

/-- One turn of the loop -/
theorem Removing.turn {da : Bytes 6} {rem : List DlsIdx} (h : Removing da (i :: rem) s) :
    ∃ s', tearDownEntry da s i = some s' ∧ Removing da rem s' := by
  rw [tearDownEntry]
  by_cases hda : (s.DLSEntry i).MacAddr = da
  · rw [if_pos hda]
    by_cases hlocal : i.val < 1
    · rw [if_pos hlocal]
      obtain ⟨s', hs', hdrop, hsame⟩ := deleteMac_dropped h.placed i
      exact ⟨s', hs', h.drop hda hdrop (Or.inl ⟨by rw [hsame], hlocal⟩)⟩
    · rw [if_neg hlocal]
      obtain ⟨s', hs', hdrop, hinvalid⟩ := dropEntry_dropped h.placed i
      exact ⟨s', hs', h.drop hda hdrop (Or.inr hinvalid)⟩
  · rw [if_neg hda]
    exact ⟨s, rfl, h.pass hda⟩

/-- The message has been taken from the queue: what it was to remove is what is removed now. -/
theorem Inv.removing (h : Inv s) {reason : Nat} {rest : List DlsMsg}
    (hq : s.queue = .tearDown i reason :: rest) (hentry : s'.DLSEntry
      = update s.DLSEntry i { s.DLSEntry i with Timer := false })
    (htab : s'.MacTab = s.MacTab) (hqueue : s'.queue = rest) :
    Removing (s.DLSEntry i).MacAddr (List.finRange maxNumOfDlsEntry) s' := by
  have hsame (j : DlsIdx) : (s'.DLSEntry j).toDlsUi = (s.DLSEntry j).toDlsUi ∧
      (s'.DLSEntry j).MacTabMatchWCID = (s.DLSEntry j).MacTabMatchWCID := by
    rw [hentry]
    by_cases hj : j = i
    · subst hj
      rw [update_self]
      exact ⟨rfl, rfl⟩
    · rw [update_of_ne hj]
      exact ⟨rfl, rfl⟩
  have hda : Dying s (s.DLSEntry i).MacAddr := ⟨i, reason, hq ▸ List.mem_cons_self, rfl⟩
  have hdying {a : Bytes 6} (hd : Dying s a) : Dying s' a ∨ a = (s.DLSEntry i).MacAddr := by
    obtain ⟨j, r, hmem, ha⟩ := hd
    rw [hq, List.mem_cons] at hmem
    rcases hmem with heq | hmem
    · cases heq
      exact Or.inr ha.symm
    · exact Or.inl ⟨j, r, hqueue ▸ hmem, by rw [(hsame j).1, ha]⟩
  have hback {a : Bytes 6} (hd : Dying s' a) : Dying s a := by
    obtain ⟨j, r, hmem, ha⟩ := hd
    rw [hqueue] at hmem
    rw [(hsame j).1] at ha
    exact ⟨j, r, hq ▸ List.mem_cons_of_mem _ hmem, ha⟩
  refine ⟨htab ▸ h.placed, fun w a hl => ?_, fun k hv hf => ?_, fun j k hj hk heq => ?_⟩
  · rw [htab] at hl
    obtain ⟨k, hk, ha, hvk⟩ := h.owned w a hl
    refine ⟨k, by rw [(hsame k).2, hk], by rw [(hsame k).1, ha], ?_⟩
    rw [(hsame k).1]
    exact hvk.imp_right fun hd => (hdying hd).imp_right fun heq => ⟨heq, List.mem_finRange k⟩
  · rw [(hsame k).1] at hv hf ⊢
    obtain ⟨hheld, hstays⟩ := h.finished k trivial hv hf
    by_cases ha : (s.DLSEntry k).MacAddr = (s.DLSEntry i).MacAddr
    · refine Or.inr ⟨ha, ?_, List.mem_finRange k⟩
      by_contra hlt
      exact hstays (by omega) (ha ▸ hda)
    · refine Or.inl ⟨ha, ?_, ?_⟩
      · rw [(hsame k).1]
        refine hheld.imp ?_ (And.imp_right fun hd => (hdying hd).resolve_right ha)
        rintro ⟨w, hw, hl⟩
        exact ⟨w, by rw [(hsame k).2, hw], by rw [htab, (hsame k).1, hl]⟩
      · rw [(hsame k).1]
        exact fun hlt hd => hstays hlt (hback hd)
  · rw [(hsame j).1] at hj heq
    rw [(hsame k).1] at hk heq
    exact h.unique j k hj hk heq

/-- A message that is dropped was not the only one, or there is nothing to tear down. -/
theorem dying_rest {reason : Nat} {rest : List DlsMsg} {granted : Bool}
    (hq : s.queue = .tearDown i reason :: rest)
    (hlost : granted = true ∨ Dying { s with queue := rest } (s.DLSEntry i).MacAddr ∨
      Gone s (s.DLSEntry i).MacAddr) (hg : granted = false) {a : Bytes 6} (hd : Dying s a)
    (hneed : ¬ Gone s a) : Dying { s with queue := rest } a := by
  obtain ⟨j, r, hmem, rfl⟩ := hd
  rw [hq, List.mem_cons] at hmem
  rcases hmem with heq | hmem
  · cases heq
    exact (hlost.resolve_left (by rw [hg]; nofun)).resolve_right hneed
  · exact ⟨j, r, hmem, rfl⟩

/-- **A queued tear-down**, served or dropped -/
theorem Inv.tearDown (h : Inv s) {reason : Nat} {rest : List DlsMsg} {granted : Bool}
    (hq : s.queue = .tearDown i reason :: rest)
    (hlost : granted = true ∨ Dying { s with queue := rest } (s.DLSEntry i).MacAddr ∨
      Gone s (s.DLSEntry i).MacAddr) :
    ∃ s', mlmeDlsTearDownAction { s with queue := rest } i reason granted = some s' ∧ Inv s' := by
  rw [mlmeDlsTearDownAction]
  cases granted with
  | true =>
    rw [if_pos rfl]
    dsimp only
    have hremoving : Removing (s.DLSEntry i).MacAddr (List.finRange maxNumOfDlsEntry)
        (State.setEntry (State.send { s with queue := rest }
          (.tearDown (s.DLSEntry i).MacAddr reason)) i { s.DLSEntry i with Timer := false }) :=
      h.removing hq rfl rfl rfl
    obtain ⟨s', hs', hend⟩ := ForLoop.foldlM_inv (I := Removing (s.DLSEntry i).MacAddr)
      (fun i is s hs => hs.turn) hremoving
    exact ⟨s', hs', hend.inv⟩
  | false =>
    rw [if_neg Bool.false_ne_true]
    refine ⟨_, rfl, h.placed, fun w a hl => ?_, fun k hp hv hf => ?_, h.unique⟩
    · obtain ⟨k, hk, ha, hvk⟩ := h.owned w a hl
      refine ⟨k, hk, ha, hvk.imp_right fun hd => ?_⟩
      exact dying_rest hq hlost rfl hd fun hg => hg.noLink w hl
    · obtain ⟨hheld, hstays⟩ := h.finished k hp hv hf
      refine ⟨hheld.imp_right (And.imp_right fun hd => ?_), fun hlt hd => hstays hlt ?_⟩
      · exact dying_rest hq hlost rfl hd fun hg => hg.unfinished k hv hf rfl
      · obtain ⟨j, r, hmem, ha⟩ := hd
        exact ⟨j, r, hq ▸ List.mem_cons_of_mem _ hmem, ha⟩

/-! ## The handlers -/

/-- **A peer's tear-down** -/
theorem Inv.peerTearDown (h : Inv s) (cfg : Config) (sa : Bytes 6) :
    ∃ s', peerDlsTearDownAction cfg s sa = some s' ∧ Inv s' := by
  rw [peerDlsTearDownAction]
  split
  · refine ForLoop.foldlM_inv (I := fun _ => Inv) (fun i is s hs => ?_) h
    rw [peerTearDownEntry]
    by_cases hentry : entryOf s sa i = true
    · rw [if_pos hentry]
      obtain ⟨s', hs', hdrop, hinvalid⟩ := dropEntry_dropped hs.placed i
      rw [entryOf, Bool.and_eq_true] at hentry
      exact ⟨s', hs', hs.drop hdrop hentry.1 hinvalid⟩
    · rw [if_neg hentry]
      exact ⟨s, rfl, hs⟩
  · exact ⟨s, rfl, h⟩

theorem giveUp_abandoned (s : State) (room : Nat) (i : DlsIdx) (reason : Nat) :
    Abandoned i s (s.giveUp room i reason) where
  MacTab := by rw [State.giveUp, enqueue_MacTab, setEntry_MacTab]
  invalid := by rw [State.giveUp, enqueue_DLSEntry, setEntry_self]
  MacAddr := by rw [State.giveUp, enqueue_DLSEntry, setEntry_self]
  wcid := by rw [State.giveUp, enqueue_DLSEntry, setEntry_self]
  others := fun j hj => by rw [State.giveUp, enqueue_DLSEntry, setEntry_of_ne hj]
  queued := fun j r hmem => by
    rw [State.giveUp, mem_enqueue]
    exact Or.inl hmem
  only := fun j r hmem => by
    rw [State.giveUp, mem_enqueue] at hmem
    refine hmem.imp_right fun hnew => ?_
    cases hnew.2
    rfl

theorem giveUp_dying (s : State) {room : Nat} (i : DlsIdx) (reason : Nat)
    (hroom : s.queue.length < room) :
    Dying (s.giveUp room i reason) (s.DLSEntry i).MacAddr := by
  refine ⟨i, reason, ?_, (giveUp_abandoned s room i reason).MacAddr⟩
  rw [State.giveUp, mem_enqueue]
  exact Or.inr ⟨hroom, rfl⟩

theorem giveUp_length (s : State) (room : Nat) (i : DlsIdx) (reason : Nat) :
    (s.giveUp room i reason).queue.length ≤ s.queue.length + 1 := by
  rw [State.giveUp, State.enqueue]
  split
  · simp
  · simp

theorem InvOf.giveUp (h : InvOf p s) (hv : (s.DLSEntry i).Valid = true) {room : Nat} (reason : Nat)
    (hposted : Posted s room (s.DLSEntry i).MacAddr) : InvOf p (s.giveUp room i reason) := by
  have hab := giveUp_abandoned s room i reason
  refine h.abandon hab hv ?_
  rcases hposted with hroom | hd | hno
  · exact Or.inl (giveUp_dying s i reason hroom)
  · exact Or.inl (hab.dying hd)
  · exact Or.inr hno

/-- A change of an entry that is not one of its tables. -/
theorem similar_setEntry {e : DlsEntry} (hv : e.Valid = (s.DLSEntry i).Valid)
    (ha : e.MacAddr = (s.DLSEntry i).MacAddr)
    (hw : e.MacTabMatchWCID = (s.DLSEntry i).MacTabMatchWCID) : Similar s (s.setEntry i e) := by
  have hcases (j : DlsIdx) : j = i ∧ (s.setEntry i e).DLSEntry j = e ∨
      j ≠ i ∧ (s.setEntry i e).DLSEntry j = s.DLSEntry j := by
    by_cases hj : j = i
    · exact Or.inl ⟨hj, by rw [hj, setEntry_self]⟩
    · exact Or.inr ⟨hj, setEntry_of_ne hj⟩
  refine ⟨rfl, fun j => ?_, fun j => ?_, fun j => ?_, fun _ _ => Iff.rfl⟩
  · rcases hcases j with ⟨rfl, heq⟩ | ⟨-, heq⟩
    · rw [heq, hv]
    · rw [heq]
  · rcases hcases j with ⟨rfl, heq⟩ | ⟨-, heq⟩
    · rw [heq, ha]
    · rw [heq]
  · rcases hcases j with ⟨rfl, heq⟩ | ⟨-, heq⟩
    · rw [heq, hw]
    · rw [heq]

/-- **The state of an entry** is set. -/
theorem InvOf.setEntry (h : InvOf p s) (e : DlsEntry) (hv : e.Valid = (s.DLSEntry i).Valid)
    (ha : e.MacAddr = (s.DLSEntry i).MacAddr)
    (hw : e.MacTabMatchWCID = (s.DLSEntry i).MacTabMatchWCID)
    (hfin : p i → (s.DLSEntry i).Valid = true → e.Status = dlsFinish → Settled s i) :
    InvOf p (s.setEntry i e) := by
  refine h.similar (similar_setEntry hv ha hw) fun j hp hvj hf => ?_
  by_cases hj : j = i
  · subst hj
    rw [setEntry_self] at hf
    exact hfin hp hvj hf
  · rw [setEntry_of_ne hj] at hf
    exact h.finished j hp hvj hf

/-- Nothing changes but the frames that were sent and the requests that are queued. -/
theorem InvOf.request (h : InvOf p s) (htab : s'.MacTab = s.MacTab)
    (hentry : s'.DLSEntry = s.DLSEntry)
    (hqueue : ∀ i reason, DlsMsg.tearDown i reason ∈ s'.queue ↔ DlsMsg.tearDown i reason ∈ s.queue) :
    InvOf p s' := by
  refine h.similar ⟨htab, fun j => ?_, fun j => ?_, fun j => ?_, hqueue⟩ fun j hp hv hf => ?_
  · rw [hentry]
  · rw [hentry]
  · rw [hentry]
  · rw [hentry] at hf
    exact h.finished j hp hv hf

theorem InvOf.enqueueReq (h : InvOf p s) (room : Nat) (i : DlsIdx) (reason : Nat) :
    InvOf p (s.enqueue room (.req i reason)) := by
  refine h.request enqueue_MacTab enqueue_DLSEntry fun j r => ?_
  rw [mem_enqueue]
  refine or_iff_left ?_
  rintro ⟨-, heq⟩
  cases heq

theorem oidCase_tearDown {ui : DlsUi} {e : DlsEntry} (h : oidCase ui e = some .tearDown) :
    e.Valid = true := by
  unfold oidCase at h
  split_ifs at h with _ hend <;> first | exact hend.2.1 | cases h

theorem oidCase_setUp {ui : DlsUi} {e : DlsEntry} (h : oidCase ui e = some .setUp) :
    e.Valid = false := by
  unfold oidCase at h
  split_ifs at h with _ _ hset <;> first | exact hset.2 | cases h

theorem oidEntry_some {ui : DlsUi} {c : OidCase} (h : oidEntry s ui = some (i, c)) :
    oidCase ui (s.DLSEntry i) = some c := by
  obtain ⟨j, -, hj⟩ := List.exists_of_findSome?_eq_some h
  obtain ⟨c', hc', heq⟩ := Option.map_eq_some_iff.mp hj
  cases heq
  exact hc'

/-- **A request of the user** -/
theorem Inv.setDls (h : Inv s) {cfg : Config} {ui : DlsUi} {room : Nat}
    (hcareful : cfg.bDLSCapable && cfg.infraOn → CarefulOid s ui room (oidEntry s ui)) :
    Inv (cntlOidDLSSetupProc cfg s ui room) := by
  rw [cntlOidDLSSetupProc]
  by_cases hon : (cfg.bDLSCapable && cfg.infraOn) = true
  · rw [if_pos hon]
    have hc := hcareful hon
    cases hfound : oidEntry s ui with
    | none => exact h
    | some r =>
      obtain ⟨i, c⟩ := r
      have hcase := oidEntry_some hfound
      rw [hfound] at hc
      cases c with
      | unchanged => exact h
      | tearDown => exact InvOf.giveUp h (oidCase_tearDown hcase) 37 hc
      | setUp =>
        obtain ⟨hstatus, hfree, hnew⟩ := hc
        have htaken : Inv (s.setEntry i { s.DLSEntry i with
            toDlsUi := { ui with CountDownTimer := ui.TimeOut } }) := by
          refine InvOf.take h ⟨rfl, ?_, fun j hj => ?_, fun _ _ => Iff.rfl⟩ (oidCase_setUp hcase)
            hfree hnew fun _ => ?_
          · rw [setEntry_self]
          · rw [setEntry_of_ne hj]
          · rw [setEntry_self]
            exact hstatus
        exact InvOf.enqueueReq htaken room i 1
      | updateMac => exact hc.elim
      | updateTimeOut =>
        have hset := InvOf.setEntry h (i := i)
          { s.DLSEntry i with TimeOut := ui.TimeOut, CountDownTimer := ui.TimeOut } rfl rfl rfl
          (h.finished i)
        exact InvOf.enqueueReq hset room i 1
      | retry => exact InvOf.enqueueReq h room i 1
  · rw [if_neg hon]
    exact h

theorem findEntry_none {sa : Bytes 6} (h : findEntry s sa = none) (j : DlsIdx)
    (hv : (s.DLSEntry j).Valid = true) : (s.DLSEntry j).MacAddr ≠ sa := by
  intro ha
  have hnot := List.find?_eq_none.mp h j (List.mem_reverse.mpr (List.mem_finRange j))
  exact hnot (by rw [entryOf, hv, decide_eq_true ha]; rfl)

theorem freeEntry_some (h : freeEntry s = some i) : 1 ≤ i.val ∧ (s.DLSEntry i).Valid = false := by
  have hfree := List.find?_some h
  rw [Bool.and_eq_true, decide_eq_true_iff, Bool.not_eq_true'] at hfree
  exact hfree

/-- A request of a station without an entry: it gets a remote one, and its link. -/
theorem Inv.takeFor (h : Inv s) (cfg : Config) {r : PeerReq} (hfound : findEntry s r.SA = none)
    (htaken : freeEntry s = some i) (hfree : Free s i) :
    ∃ s', insertPeer
      (s.setEntry i { acceptReq cfg (s.DLSEntry i) r with Valid := true, MacAddr := r.SA })
      r.SA i r.caps = some s' ∧ Inv s' := by
  obtain ⟨hremote, hinvalid⟩ := freeEntry_some htaken
  -- until the link is there the entry may be finished without one
  have htake : InvOf (fun j => j ≠ i)
      (s.setEntry i { acceptReq cfg (s.DLSEntry i) r with Valid := true, MacAddr := r.SA }) := by
    refine InvOf.take (InvOf.weaken h fun _ _ => trivial) ⟨rfl, ?_, fun j hj => ?_, fun _ _ => Iff.rfl⟩
      hinvalid hfree (findEntry_none hfound) fun hne => (hne rfl).elim
    · rw [setEntry_self]
    · rw [setEntry_of_ne hj]
  obtain ⟨s', hs', hinv, hins⟩ := htake.insertPeer (i := i) (by rw [setEntry_self])
    (by rw [setEntry_self]) r.caps
  refine ⟨s', hs', hinv.placed, hinv.owned, fun j _ hv hf => ?_, hinv.unique⟩
  by_cases hj : j = i
  · subst hj
    refine ⟨?_, fun hlt => by omega⟩
    rw [hins.MacAddr]
    exact hins.held.imp_right fun hd => ⟨hremote, hd⟩
  · exact hinv.finished j hj hv hf

/-- **A received request** -/
theorem Inv.peerReq (h : Inv s) {cfg : Config} {r : PeerReq} {granted : Bool}
    (hcareful : granted && cfg.infraOn && cfg.bWmmCapable && cfg.bDLSCapable →
      CarefulReq cfg s r) : ∃ s', peerDlsReqAction cfg s r granted = some s' ∧ Inv s' := by
  have hsent (s : State) (h : Inv s) (f : Sent) : Inv (s.send f) :=
    InvOf.request h rfl rfl fun _ _ => Iff.rfl
  rw [peerDlsReqAction]
  by_cases hg : granted = true
  · subst hg
    rw [if_neg (by decide)]
    split
    · exact ⟨_, rfl, hsent s h _⟩
    split
    · exact ⟨_, rfl, hsent s h _⟩
    split
    · exact ⟨_, rfl, hsent s h _⟩
    have hc := hcareful (by simp_all)
    cases hfound : findEntry s r.SA with
    | some i =>
      have hset : Inv (s.setEntry i (acceptReq cfg (s.DLSEntry i) r)) := by
        refine InvOf.setEntry h _ rfl rfl rfl fun _ _ hf => hc.found i hfound ?_
        by_contra hwpa
        rw [Bool.not_eq_false] at hwpa
        rw [acceptReq, if_pos hwpa] at hf
        cases hf
      exact ⟨_, rfl, hsent _ hset _⟩
    | none =>
      cases htaken : freeEntry s with
      | none => exact ⟨_, rfl, hsent s h _⟩
      | some i =>
        obtain ⟨s', hs', hinv⟩ := h.takeFor cfg hfound htaken (hc.taken i hfound htaken)
        refine ⟨s'.send (.dlsRsp r.SA mlmeSuccess), ?_, hsent s' hinv _⟩
        dsimp only
        rw [hs']
        rfl
  · rw [Bool.not_eq_true] at hg
    subst hg
    exact ⟨s, rfl, h⟩

theorem Inserted.dying (h : Inserted i s s') (a : Bytes 6) : Dying s' a ↔ Dying s a := by
  refine dying_congr h.queue (fun j => ?_) a
  by_cases hj : j = i
  · rw [hj, h.MacAddr]
  · rw [h.others j hj]

theorem acceptRsp_others (cfg : Config) (s : State) (r : PeerRsp) (keySent : Bool) (room : Nat)
    {j : DlsIdx} (hj : j ≠ i) :
    (acceptRsp cfg s r keySent room i).DLSEntry j = s.DLSEntry j := by
  unfold acceptRsp
  rw [setEntry_of_ne hj]
  split
  · dsimp only
    split
    · rw [setEntry_of_ne hj, send_DLSEntry]
    · rw [(giveUp_abandoned _ room i 45).others j hj, send_DLSEntry]
  · rw [setEntry_of_ne hj]

/-- The link has been put in, and the state is set as the security has it. -/
theorem Inv.acceptRsp (h : Inv s) {cfg : Config} {r : PeerRsp} {keySent : Bool} {room : Nat}
    (hv : (s.DLSEntry i).Valid = true)
    (hfinish : cfg.wpa = false → Settled s i)
    (hnoKey : cfg.wpa = true → keySent = false → Posted s room (s.DLSEntry i).MacAddr) :
    Inv (Dls.acceptRsp cfg s r keySent room i) := by
  have hlast (s : State) (h : Inv s) :
      Inv (s.setEntry i { s.DLSEntry i with Sequence := 0, bHTCap := r.caps.ht }) :=
    InvOf.setEntry h _ rfl rfl rfl (h.finished i)
  unfold Dls.acceptRsp
  apply hlast
  cases hwpa : cfg.wpa with
  | false =>
    rw [if_neg Bool.false_ne_true]
    exact InvOf.setEntry h _ rfl rfl rfl fun _ _ _ => hfinish hwpa
  | true =>
    rw [if_pos rfl]
    have hsent : Inv (s.send (.staKeyRequest (s.DLSEntry i).MacAddr)) :=
      InvOf.request h rfl rfl fun _ _ => Iff.rfl
    dsimp only
    cases hkey : keySent with
    | true =>
      rw [if_pos rfl]
      refine InvOf.setEntry hsent _ rfl rfl rfl fun _ _ hf => ?_
      cases hf
    | false =>
      rw [if_neg Bool.false_ne_true]
      exact InvOf.giveUp hsent hv 45 (hnoKey hwpa hkey)

/-- **A response** for the entry that is valid for the station -/
theorem Inv.rspEntry (h : Inv s) {cfg : Config} {r : PeerRsp} {keySent : DlsIdx → Bool}
    {room : Nat} (hentry : entryOf s r.SA i = true) (hc : CarefulRsp cfg s r keySent room i) :
    ∃ s', Dls.rspEntry cfg r keySent room s i = some s' ∧ Inv s' ∧
      ∀ j, j ≠ i → s'.DLSEntry j = s.DLSEntry j := by
  rw [Dls.rspEntry, if_pos hentry]
  rw [entryOf, Bool.and_eq_true, decide_eq_true_iff] at hentry
  obtain ⟨hv, ha⟩ := hentry
  by_cases hsuccess : r.StatusCode = mlmeSuccess
  · rw [if_pos hsuccess]
    obtain ⟨s', hs', hinv, hins⟩ := InvOf.insertPeer h hv ha r.caps
    rw [hs']
    have hdying : Dying s' r.SA ↔ Dying s r.SA := hins.dying r.SA
    have ha' : (s'.DLSEntry i).MacAddr = r.SA := by rw [hins.MacAddr, ha]
    refine ⟨_, rfl, ?_, fun j hj => ?_⟩
    · refine Inv.acceptRsp hinv (hins.Valid.trans hv) (fun hwpa => ?_) fun hwpa hkey => ?_
      · have hfin := hc.finish hsuccess hwpa
        refine ⟨hins.held.elim Or.inl fun hd => Or.inr ⟨?_, ?_⟩, fun hlt => ?_⟩
        · by_contra hlt
          rw [ha, hdying] at hd
          exact hfin (by omega) hd
        · rw [hins.MacAddr]
          exact hd
        · rw [ha', hdying]
          exact hfin hlt
      · rw [Posted, ha', hdying, hins.queue, ← or_assoc]
        exact Or.inl (hc.noKey hsuccess hwpa hkey)
    · rw [acceptRsp_others cfg s' r _ room hj, hins.others j hj]
  · rw [if_neg hsuccess]
    have hab : Abandoned i s (s.setEntry i
        { s.DLSEntry i with Status := dlsNone, Valid := false, Timer := false }) := by
      refine ⟨rfl, ?_, ?_, ?_, fun j hj => setEntry_of_ne hj, fun _ _ => id, fun _ _ => Or.inl⟩
      · rw [setEntry_self]
      · rw [setEntry_self]
      · rw [setEntry_self]
    refine ⟨_, rfl, InvOf.abandon h hab hv ?_, hab.others⟩
    rw [ha]
    exact (hc.failure hsuccess).imp_left hab.dying

theorem rspEntry_other {cfg : Config} {r : PeerRsp} {keySent : DlsIdx → Bool} {room : Nat}
    (h : entryOf s r.SA i ≠ true) : rspEntry cfg r keySent room s i = some s := by
  rw [rspEntry, if_neg h]

theorem mem_rspOrder : ∀ i, i ∈ rspOrder := by decide

/-- **A received response**: at most one entry is concerned. -/
theorem Inv.peerRsp (h : Inv s) {cfg : Config} {r : PeerRsp} {keySent : DlsIdx → Bool} {room : Nat}
    (hcareful : cfg.bDLSCapable && cfg.infraOn →
      ∀ i, entryOf s r.SA i → CarefulRsp cfg s r keySent room i) :
    ∃ s', peerDlsRspAction cfg s r keySent room = some s' ∧ Inv s' := by
  rw [peerDlsRspAction]
  by_cases hon : (cfg.bDLSCapable && cfg.infraOn) = true
  · rw [if_pos hon]
    by_cases hany : ∃ i, entryOf s r.SA i = true
    · obtain ⟨i, hi⟩ := hany
      obtain ⟨s', hs', hinv, hothers⟩ := h.rspEntry hi (hcareful hon i hi)
      have hbefore (j : DlsIdx) (hj : j ≠ i) : entryOf s r.SA j ≠ true := by
        intro hentry
        rw [entryOf, Bool.and_eq_true, decide_eq_true_iff] at hi hentry
        exact hj (h.unique j i hentry.1 hi.1 (hentry.2.trans hi.2.symm))
      refine ⟨s', ?_, hinv⟩
      rw [ForLoop.foldlM_single (i := i) (mem_rspOrder i) (by decide)
        (fun j hj => rspEntry_other (hbefore j hj)), hs']
      intro t ht j hj
      obtain rfl : s' = t := Option.some.inj (hs'.symm.trans ht)
      refine rspEntry_other ?_
      rw [entryOf, hothers j hj]
      exact hbefore j hj
    · rw [not_exists] at hany
      exact ⟨s, ForLoop.foldlM_idle fun i _ => rspEntry_other (hany i), h⟩
  · rw [if_neg hon]
    exact ⟨s, rfl, h⟩

/-- **A message** is taken from the queue. -/
theorem Inv.handle (h : Inv s) {granted : Bool}
    (hcareful : ∀ i reason rest, s.queue = .tearDown i reason :: rest →
      granted = true ∨ Dying { s with queue := rest } (s.DLSEntry i).MacAddr ∨
        Gone s (s.DLSEntry i).MacAddr) :
    ∃ s', mlmeHandler s granted = some s' ∧ Inv s' := by
  cases hq : s.queue with
  | nil =>
    refine ⟨s, ?_, h⟩
    simp only [mlmeHandler, hq]
  | cons m rest =>
    cases m with
    | req i reason =>
      have hrest : Inv { s with queue := rest } := by
        refine InvOf.request h rfl rfl fun j r => ?_
        rw [hq, List.mem_cons]
        exact ⟨Or.inr, fun hmem => hmem.resolve_left nofun⟩
      refine ⟨mlmeDlsReqAction { s with queue := rest } i granted, ?_, ?_⟩
      · simp only [mlmeHandler, hq]
      · rw [mlmeDlsReqAction]
        split
        · have hset := InvOf.setEntry hrest (i := i) { s.DLSEntry i with Timer := true } rfl rfl rfl
            (hrest.finished i)
          exact InvOf.request hset rfl rfl fun _ _ => Iff.rfl
        · exact hrest
    | tearDown i reason =>
      obtain ⟨s', hs', hinv⟩ := h.tearDown hq (hcareful i reason rest hq)
      refine ⟨s', ?_, hinv⟩
      simp only [mlmeHandler, hq]
      exact hs'

/-- **A timer** -/
theorem Inv.timeOut (h : Inv s) {cfg : Config} {room : Nat}
    (hcareful : (s.DLSEntry i).Timer = true → cfg.adapterByte = false) :
    ∃ s', timerFires cfg s i room = some s' ∧ Inv s' := by
  rw [timerFires]
  by_cases ht : (s.DLSEntry i).Timer = true
  · rw [if_pos ht]
    refine ⟨s.setEntry i { s.DLSEntry i with Timer := false }, ?_,
      InvOf.setEntry h _ rfl rfl rfl (h.finished i)⟩
    rw [timerCookie, dlsTimeoutAction, hcareful ht]
    rfl
  · rw [if_neg ht]
    exact ⟨s, rfl, h⟩

/-- The messages of the links that are still to expire in this second fit into the queue. -/
structure Expiring (room : Nat) (is : List DlsIdx) (s : State) : Prop where
  inv : Inv s
  nodup : is.Nodup
  fits : s.queue.length + is.countP (fun i => expires (s.DLSEntry i)) ≤ room

theorem Expiring.turn {room : Nat} {is : List DlsIdx} (h : Expiring room (i :: is) s) :
    Expiring room is (checkEntry room s i) := by
  obtain ⟨hi, hnodup⟩ := List.nodup_cons.mp h.nodup
  have hne {j : DlsIdx} (hj : j ∈ is) : j ≠ i := by
    rintro rfl
    exact hi hj
  have hcount (s' : State) (hothers : ∀ j, j ≠ i → s'.DLSEntry j = s.DLSEntry j) :
      is.countP (fun j => expires (s'.DLSEntry j)) = is.countP fun j => expires (s.DLSEntry j) :=
    List.countP_congr fun j hj => by rw [hothers j (hne hj)]
  have hfits := h.fits
  rw [List.countP_cons] at hfits
  unfold checkEntry
  dsimp only
  by_cases hc : countsDown (s.DLSEntry i) = true
  · rw [if_pos hc]
    have hset := InvOf.setEntry h.inv (i := i)
      { s.DLSEntry i with CountDownTimer := (s.DLSEntry i).CountDownTimer - 1 } rfl rfl rfl
      (h.inv.finished i)
    by_cases hzero : (s.DLSEntry i).CountDownTimer - 1 = 0
    · have hexp : expires (s.DLSEntry i) = true := by
        rw [expires, hc, decide_eq_true hzero]
        rfl
      rw [if_pos hzero]
      rw [if_pos hexp] at hfits
      have hv : (s.DLSEntry i).Valid = true := by
        rw [countsDown, Bool.and_eq_true, Bool.and_eq_true] at hc
        exact hc.1.1
      refine ⟨InvOf.giveUp hset (by rw [setEntry_self]; exact hv) 39 (Or.inl ?_), hnodup, ?_⟩
      · rw [setEntry_queue]
        omega
      · have hlen := giveUp_length (s.setEntry i { s.DLSEntry i with
          CountDownTimer := (s.DLSEntry i).CountDownTimer - 1 }) room i 39
        rw [hcount _ fun j hj => ?_]
        · rw [setEntry_queue] at hlen
          exact (Nat.add_le_add_right hlen _).trans (by omega)
        · rw [(giveUp_abandoned _ room i 39).others j hj, setEntry_of_ne hj]
    · rw [if_neg hzero]
      refine ⟨hset, hnodup, ?_⟩
      rw [hcount _ fun j hj => setEntry_of_ne hj, setEntry_queue]
      omega
  · rw [if_neg hc]
    refine ⟨h.inv, hnodup, ?_⟩
    omega

/-- **A second** -/
theorem Inv.second (h : Inv s) {cfg : Config} {room : Nat}
    (hcareful : cfg.bDLSCapable && cfg.infraOn → s.queue.length
      + (List.finRange maxNumOfDlsEntry).countP (fun i => expires (s.DLSEntry i)) ≤ room) :
    Inv (rtmpCheckDLSTimeOut cfg s room) := by
  rw [rtmpCheckDLSTimeOut]
  by_cases hon : (cfg.bDLSCapable && cfg.infraOn) = true
  · rw [if_pos hon]
    have hend := ForLoop.foldl_inv (I := Expiring room) (fun i is s hs => hs.turn)
      ⟨h, List.nodup_finRange maxNumOfDlsEntry, hcareful hon⟩
    exact hend.inv
  · rw [if_neg hon]
    exact h

/-! ## Runs -/

/-- **One step** -/
theorem Inv.step (h : Inv s) {cfg : Config} {e : Event} (hcareful : Careful cfg (some s) e) :
    ∃ s', step cfg (some s) e = some s' ∧ Inv s' := by
  cases e with
  | setDls ui room => exact ⟨_, rfl, h.setDls hcareful⟩
  | peerReq r granted => exact h.peerReq hcareful
  | peerRsp r keySent room => exact h.peerRsp hcareful
  | peerTearDown sa => exact h.peerTearDown cfg sa
  | handle granted => exact h.handle hcareful
  | timeOut i room => exact h.timeOut hcareful
  | second room => exact ⟨_, rfl, h.second hcareful⟩

theorem Inv.sound (h : Inv s) : Sound (some s) := ⟨s, rfl, fun hq => h.agree hq⟩

/-- **The tables of direct links**: along a run whose steps are all careful the tables agree
whenever nothing is queued. -/
theorem agree_of_careful {cfg : Config} {es : List Event} (hstart : Start s)
    (halong : Run.Along (step cfg) (Careful cfg) (some s) es) :
    Run.Always (step cfg) Sound (some s) es := by
  have hinv : Run.Always (step cfg) (fun o => ∃ s, o = some s ∧ Inv s) (some s) es := by
    refine Run.always_of_along (fun o e ho hc => ?_) ⟨s, rfl, hstart.inv⟩ halong
    obtain ⟨s, rfl, hs⟩ := ho
    exact hs.step hc
  refine Run.Always.mono (fun o ho => ?_) hinv
  obtain ⟨s, rfl, hs⟩ := ho
  exact hs.sound

end

/-! ## Requests that cross -/

/-- A station without direct links, and a neighbour. -/
def noEntry : DlsEntry := ⟨⟨0, 0, .zero 6, dlsNone, false⟩, false, 0, 0, false⟩

def quiet : State := ⟨fun _ => noEntry, Mac.start.MacTab, fun _ => none, [], []⟩

def openNet : Config := ⟨true, true, true, .openSystem, false⟩

def neighbour : Bytes 6 := fun _ => 2

def toNeighbour : DlsUi := ⟨0, 0, neighbour, dlsNone, true⟩

def fromNeighbour : PeerReq := ⟨neighbour, 0, ⟨108, 8, none⟩⟩

def granting : PeerRsp := ⟨neighbour, mlmeSuccess, ⟨108, 8, none⟩⟩

theorem start_quiet : Start quiet where
  good := good_start
  ap := by
    intro w hw
    rw [mem_used] at hw
    exact (hw rfl).elim
  invalid := fun _ => rfl
  queue := rfl

theorem agree_of_careful_setUp : Run.Always (step openNet) Sound (some quiet)
    [.setDls toNeighbour 8, .handle true, .peerRsp granting (fun _ => true) 8] := by
  refine agree_of_careful start_quiet
    ⟨fun _ => ?_, fun i reason rest hq => ?_, fun _ i hi => ?_, trivial⟩
  · refine ⟨by decide, fun hd => ?_, fun j hj => ?_⟩
    · exact (not_dying_of_empty rfl _ hd).elim
    · cases hj
  · cases hq
  · refine ⟨fun _ _ _ => not_dying_of_empty rfl _, fun _ hwpa => ?_, fun hfail => (hfail rfl).elim⟩
    cases hwpa

/-- **Crossing requests**: the neighbour asks before it answers. The entry is finished at once,
without a link in the MAC table. -/
theorem agree_broken : ¬ ∀ (cfg : Config) (s : State) (es : List Event), Start s →
    Run.Always (step cfg) Sound (some s) es := by
  intro hall
  have hlast := (hall openNet quiet
    [.setDls toNeighbour 8, .handle true, .peerReq fromNeighbour true] start_quiet).last
  obtain ⟨s, hs, hagree⟩ := hlast
  obtain rfl := Option.some.inj hs
  obtain ⟨w, -, hw⟩ := (hagree rfl).finished 0 rfl rfl
  revert hw
  revert w
  decide

end ExtDrv.Rt3370.Dls
