import ExtDrv.Rt3370.ConnectRuns

/-!
# Waits that are lost

Once nothing in the queue is about the wait of the control machine and no machine waits for it, no
frame, timer or request brings it to an end: the machine is let go by a reset, by some of what the
driver does on its own, or by the access point parting in the one wait that it confirms.
-/

namespace ExtDrv.Rt3370.Connect

open Memory Run Sanity

/-- The control machine waits for what nobody is asked for, and nobody waits for. -/
def LostIn (c : Cntl) (s : Adapter) : Prop :=
  s.cntl = c ∧ ∃ k, c.waits = some k ∧ ¬ Asked k s.Queue ∧ ¬ Waiting s k

/-- The turn on `e` lets the control machine go. -/
def Frees (env : Env) (s : Adapter) : Elem → Prop
  | .reset => True
  | .syncReq .scan => env.scanning = true
  | .peer (.deauth m) =>
    (fromOwnAp s m &&
      (segment m 4 6 == s.CurrentAddress || segment m 4 6 == List.replicate 6 0xff) &&
      segment m 16 6 == s.Bssid) = true ∧ (env.portNotSecured && s.AuthMode == .psk) = true
  | .peer (.disassocReq m) => fromOwnAp s m = true ∧ s.cntl = .waitDisassoc
  | _ => False

/-- A step that lets the control machine go, or gives it something to wait for. -/
def Relieves (s : Adapter) : Op → Prop
  | .handle env => ∃ e es, s.Queue = e :: es ∧ Frees env { s with Queue := es } e
  | .autoReconnect byBssid _ => byBssid = true
  | .scan waits => waits = true
  | .linkDownExec env =>
    (env.portNotSecured && s.infraOn) = true ∧ ¬ (s.cntl = .waitDisassoc ∧ Full s)
  | .wpaDisassocApAndBlockAssoc => ¬ (s.cntl = .waitDisassoc ∧ Full s)
  | .iwMlmeDisassoc env =>
    ¬ (s.cntl = .waitOidDisassoc ∧ env.mlmeMemory = false ∧ Full s)
  | .radioOff env => (s.infraOn || s.adhocOn) = true ∧ s.cntl.waits = some .disassoc ∧
      ¬ (env.mlmeMemory = false ∧ Full s)
  | _ => False

/-- Nothing is asked for of kind `k`, and no machine begins to wait for it. -/
structure Spares (k : Kind) (s s' : Adapter) : Prop where
  cntl : s'.cntl = s.cntl
  asked : Asked k s'.Queue → Asked k s.Queue
  waiting : Waiting s' k → Waiting s k

section Lost

variable {c : Cntl} {k : Kind} {s s' s'' : Adapter} {e : Elem} {env : Env}

theorem Spares.refl : Spares k s s := ⟨rfl, id, id⟩

theorem Spares.trans (h : Spares k s s') (h' : Spares k s' s'') : Spares k s s'' :=
  ⟨h'.cntl.trans h.cntl, h.asked ∘ h'.asked, h.waiting ∘ h'.waiting⟩

theorem Spares.lost (h : Spares k s s') (hw : s.cntl.waits = some k) (hask : ¬ Asked k s.Queue)
    (hwait : ¬ Waiting s k) : LostIn s.cntl s' :=
  ⟨h.cntl, k, hw, mt h.asked hask, mt h.waiting hwait⟩

theorem Same.spares (h : Same s s') : Spares k s s' :=
  ⟨h.cntl, by rw [h.queue]; exact id, h.waiting.mp⟩

theorem spares_mlmeEnqueue (he : ¬ e.Settles k) : Spares k s (mlmeEnqueue s e) :=
  ⟨mlmeEnqueue_cntl, (asked_mlmeEnqueue he).mp, mlmeEnqueue_waiting.mp⟩

/-- A machine that is not waited for, and not asked, does nothing that the wait is about. -/
theorem Played.spares (h : Played env s e s') (hset : ¬ e.Settles k) (hwait : ¬ Waiting s k)
    (hown : ∀ m, e = .peer (.disassocReq m) → fromOwnAp s m = true → s.cntl ≠ .waitDisassoc) :
    Spares k s s' := by
  have hother {k' : Kind} (ht : e.Tells s k') : k' ≠ k := by
    rintro rfl
    cases e with
    | req r => exact hset ht
    | timeout k' => exact hwait ht.2
    | peer f =>
        cases f with
        | authEven m | assocRsp m len | reassocRsp m len => exact hwait ht.2
        | disassocReq m => exact hown m rfl ht.2.1 ht.2.2
        | deauth m | chSwAnn => exact ht
    | _ => exact ht
  cases h with
  | drops _ _ _ => exact Spares.refl
  | confirms hconf ht =>
      have hne := hother ht
      refine ⟨hconf.alike.cntl, (hconf.asked_iff hne).mp, ?_⟩
      rcases other_or_assoc hne with hmachine | ⟨hk, hk'⟩
      · exact (hconf.alike.waiting hmachine).mp
      · exact fun hw => absurd hw (not_waiting_of_idle hk (hconf.idle hk'))
  | begins halike hq hbegins hw _ =>
      have hne := hother hbegins.1
      refine ⟨halike.cntl, by rw [hq]; exact id, ?_⟩
      rcases other_or_assoc hne with hmachine | ⟨hk, hk'⟩
      · exact (halike.waiting hmachine).mp
      · exact fun hw' => absurd hw' (not_waiting_of_other hk hk' hne hw)
  | cuts m _ _ _ =>
      have hqueue : (linkDown s).Queue = s.Queue := same_linkDown.queue
      refine ⟨alike_linkDown.cntl, fun hask => hqueue ▸ hask, ?_⟩
      by_cases hk : k = .auth
      · exact (alike_linkDown.waiting (iff_of_true hk (by simp))).mp
      · exact fun hw => absurd hw (not_waiting_of_idle hk rfl)

/-- What the synchronisation machine confirms is not waited for. -/
theorem syncConf_other (hw : s.cntl.waits = some k) (y : Sync) (Status : BitVec 16) :
    mlmeCntlMachinePerformAction env s (.syncConf y Status) = s := by
  cases y <;> cases hc : s.cntl <;> simp_all [mlmeCntlMachinePerformAction, Cntl.waits]

theorem oid_other (hw : s.cntl.waits = some k) (o : Oid) :
    mlmeCntlMachinePerformAction env s (.oid o) = s := by
  have hidle : s.cntl ≠ .idle := by
    intro hc
    rw [hc] at hw
    cases hw
  simp [mlmeCntlMachinePerformAction, hidle]

/-- **A turn of the handler** in a wait that is lost. -/
theorem handleElem_lost_iff (hlen : s.Queue.length < maxLenOfMlmeQueue)
    (hw : s.cntl.waits = some k) (hask : ¬ Asked k s.Queue) (hset : ¬ e.Settles k)
    (hwait : ¬ Waiting s k) : LostIn s.cntl (handleElem env s e) ↔ ¬ Frees env s e := by
  have hspares {t : Adapter} (ht : Spares k s t) (hno : ¬ Frees env s e) :
      LostIn s.cntl t ↔ ¬ Frees env s e := iff_of_true (ht.lost hw hask hwait) hno
  have hplayed (he : e ≠ .reset) (hempty : ¬ e.Empties env) (hcntl : ¬ e.ForCntl)
      (hown : ∀ m, e = .peer (.disassocReq m) → fromOwnAp s m = true → s.cntl ≠ .waitDisassoc) :
      Spares k s (handleElem env s e) :=
    (handleElem_played hlen.le he hempty hcntl).spares hset hwait hown
  have hgoes {t : Adapter} (ht : t.cntl.waits = none) (hfrees : Frees env s e) :
      LostIn s.cntl t ↔ ¬ Frees env s e := by
    apply iff_of_false
    · rintro ⟨hcntl, _⟩
      rw [hcntl, hw] at ht
      cases ht
    · exact not_not_intro hfrees
  cases e with
  | reset => exact hgoes rfl trivial
  | deauthConf Status => exact hspares Spares.refl id
  | syncReq y =>
      cases y with
      | scan =>
          show LostIn s.cntl (if env.scanning then _ else s) ↔ _
          split
          · exact hgoes rfl ‹_›
          · exact hspares Spares.refl ‹_›
      | join | start =>
          exact hspares ⟨rfl, id, by cases k <;> exact id⟩ id
  | conf k' Status =>
      refine hspares ?_ id
      show Spares k s (mlmeCntlMachinePerformAction env s (.conf k' Status))
      rw [conf_other (by rw [hw]; exact fun heq => hset (Option.some.inj heq).symm)]
      exact Spares.refl
  | syncConf y Status =>
      refine hspares ?_ id
      show Spares k s (mlmeCntlMachinePerformAction env s (.syncConf y Status))
      rw [syncConf_other hw]
      exact Spares.refl
  | oid o =>
      refine hspares ?_ id
      show Spares k s (mlmeCntlMachinePerformAction env s (.oid o))
      rw [oid_other hw]
      exact Spares.refl
  | req r => exact hspares (hplayed (by simp) id id (by simp)) id
  | timeout k' => exact hspares (hplayed (by simp) id id (by simp)) id
  | peer f =>
      cases f with
      | authEven m => exact hspares (hplayed (by simp) id id (by simp)) id
      | assocRsp m len | reassocRsp m len => exact hspares (hplayed (by simp) id id (by simp)) id
      | chSwAnn =>
          refine hspares ?_ id
          show Spares k s (if env.switches then mlmeQueueInit (linkDown s) else s)
          split
          · have hempty : Spares k (linkDown s) (mlmeQueueInit (linkDown s)) := by
              refine ⟨rfl, ?_, by cases k <;> exact id⟩
              rintro ⟨e, he, _⟩
              cases he
            exact same_linkDown.spares.trans hempty
          · exact Spares.refl
      | disassocReq m =>
          by_cases hown : fromOwnAp s m = true ∧ s.cntl = .waitDisassoc
          · -- the confirmation that is waited for
            apply iff_of_false _ (not_not_intro hown)
            rintro ⟨_, k', hk', hno, _⟩
            obtain rfl : k' = .disassoc := by simpa [hown.2, Cntl.waits] using hk'.symm
            apply hno
            show Asked .disassoc (peerDisassocAction s m).Queue
            rw [peerDisassocAction, if_pos hown.1, if_pos hown.2]
            exact asked_of_room hlen.ne rfl
          · refine hspares (hplayed (by simp) id id ?_) hown
            intro m' heq hm' hc
            cases heq
            exact hown ⟨hm', hc⟩
      | deauth m =>
          show LostIn s.cntl (peerDeauthAction env s m) ↔ _
          unfold peerDeauthAction
          split
          · rename_i hown
            split
            · have hrests : Rests False s (iterateOnBssTab (linkDown s).nextBss) :=
                rests_iterate (same_linkDown.toNear.aux _) hlen.le
              exact hgoes hrests.cntl ⟨hown, ‹_›⟩
            · exact hspares same_linkDown.spares fun hfrees => absurd hfrees.2 ‹_›
          · exact hspares Spares.refl fun hfrees => absurd hfrees.1 ‹_›

theorem mlmeDisassocReqAction_spares (hne : k ≠ .disassoc) :
    Spares k s (mlmeDisassocReqAction env s) := by
  refine ⟨mlmeDisassocReqAction_alike.cntl, (mlmeDisassocReqAction_asked hne).mp, ?_⟩
  by_cases hk : k = .auth
  · exact (mlmeDisassocReqAction_alike.waiting (iff_of_true hk (by simp))).mp
  · exact fun hw => absurd hw (mlmeDisassocReqAction_not_waiting hk hne)

/-- The machine waits for a disassociation, or has confirmed it, unless the queue is full. -/
theorem mlmeDisassocReqAction_lost_iff (hask : ¬ Asked .disassoc s.Queue) :
    ¬ Asked .disassoc (mlmeDisassocReqAction env s).Queue ∧
        ¬ Waiting (mlmeDisassocReqAction env s) .disassoc
      ↔ env.mlmeMemory = false ∧ Full s := by
  unfold mlmeDisassocReqAction
  split
  · rename_i hmem
    simp [Waiting, hmem]
  · rename_i hmem
    have hidle : ¬ Waiting (endWith .disassoc mlmeFailNoResource s) .disassoc :=
      not_waiting_of_idle (by simp) (endWith_assoc (by simp) _)
    by_cases hfull : Full s
    · have hend : endWith .disassoc mlmeFailNoResource s = { s with assoc := .idle } :=
        mlmeEnqueue_full (s := { s with assoc := .idle }) hfull
      rw [hend] at hidle ⊢
      simp [hmem, hfull, hask, hidle]
    · have hasked : Asked .disassoc (endWith .disassoc mlmeFailNoResource s).Queue :=
        asked_of_room (s := { s with assoc := .idle }) hfull rfl
      simp [hasked, hfull]

/-- A request of the control machine to part, in a wait that is lost. -/
theorem ask_lost_iff (hw : s.cntl.waits = some k) (hask : ¬ Asked k s.Queue)
    (hwait : ¬ Waiting s k) (Addr : Octets) :
    LostIn s.cntl (s.ask (.disassoc Addr) .waitDisassoc)
      ↔ s.cntl = .waitDisassoc ∧ Full s := by
  constructor
  · rintro ⟨hcntl, k', hk', hno, _⟩
    have hc : s.cntl = .waitDisassoc := hcntl.symm
    refine ⟨hc, ?_⟩
    obtain rfl : k' = .disassoc := by simpa [hc, Cntl.waits] using hk'.symm
    by_contra hfull
    exact hno (asked_of_room hfull rfl)
  · rintro ⟨hc, hfull⟩
    have hsame : s.ask (.disassoc Addr) .waitDisassoc = { s with cntl := .waitDisassoc } := by
      rw [Adapter.ask, mlmeEnqueue_full hfull]
    rw [hsame, ← hc]
    exact ⟨rfl, k, hw, hask, hwait⟩

/-- **A step** leaves a wait lost exactly when it does not relieve it. -/
theorem step_lost_iff (hlen : s.Queue.length ≤ maxLenOfMlmeQueue) (h : LostIn s.cntl s) (op : Op) :
    LostIn s.cntl (step s op) ↔ ¬ Relieves s op := by
  obtain ⟨_, k, hw, hask, hwait⟩ := h
  have hspares {t : Adapter} (ht : Spares k s t) {op : Op} (hno : ¬ Relieves s op) :
      LostIn s.cntl t ↔ ¬ Relieves s op := iff_of_true (ht.lost hw hask hwait) hno
  have hgoes {t : Adapter} (ht : t.cntl.waits = none) {op : Op} (hyes : Relieves s op) :
      LostIn s.cntl t ↔ ¬ Relieves s op := by
    apply iff_of_false
    · rintro ⟨hcntl, _⟩
      rw [hcntl, hw] at ht
      cases ht
    · exact not_not_intro hyes
  cases op with
  | handle env =>
      show LostIn s.cntl (mlmeHandler env s) ↔ _
      unfold mlmeHandler
      split
      · rename_i hq
        apply hspares Spares.refl
        simp [Relieves, hq]
      · rename_i e es hq
        have hroom : ({ s with Queue := es } : Adapter).Queue.length < maxLenOfMlmeQueue := by
          rw [hq] at hlen
          exact hlen
        rw [hq, asked_cons, not_or] at hask
        have hidle : ¬ Waiting { s with Queue := es } k := by
          cases k <;> exact hwait
        have hiff : LostIn s.cntl (handleElem env { s with Queue := es } e)
            ↔ ¬ Frees env { s with Queue := es } e :=
          handleElem_lost_iff (s := { s with Queue := es }) hroom hw hask.2 hask.1 hidle
        rw [hiff]
        simp [Relieves, hq]
  | fires k' =>
      show LostIn s.cntl (if s.armed k' then timeout s k' else s) ↔ _
      split
      · refine hspares ?_ id
        have hcancel : Spares k s (rtmpCancelTimer s k') := ⟨rfl, id, by cases k <;> exact id⟩
        exact hcancel.trans (spares_mlmeEnqueue id)
      · exact hspares Spares.refl id
  | receive f =>
      refine hspares ?_ id
      show Spares k s (mlmeEnqueueForRecv s f)
      unfold mlmeEnqueueForRecv
      split
      · exact Spares.refl
      · refine ⟨rfl, ?_, by cases k <;> exact id⟩
        rintro ⟨e, he, hset⟩
        rcases List.mem_append.mp he with hold | hnew
        · exact ⟨e, hold, hset⟩
        · rw [List.mem_singleton.mp hnew] at hset
          cases hset
  | oid o => exact hspares (spares_mlmeEnqueue id) id
  | autoReconnect byBssid validSsid =>
      show LostIn s.cntl (mlmeAutoReconnectLastSSID s byBssid validSsid) ↔ _
      have hidle : s.cntl ≠ .idle := by
        intro hc
        rw [hc] at hw
        cases hw
      unfold mlmeAutoReconnectLastSSID
      split
      · exact hgoes rfl ‹_›
      · rw [if_neg fun hand => hidle hand.1]
        exact hspares Spares.refl ‹_›
  | reset => exact hspares (spares_mlmeEnqueue id) id
  | syncConf y Status => exact hspares (spares_mlmeEnqueue id) id
  | scan waits =>
      cases waits with
      | true => exact hgoes rfl rfl
      | false => exact hspares (spares_mlmeEnqueue id) Bool.false_ne_true
  | linkDown => exact hspares same_linkDown.spares id
  | linkDownExec env =>
      show LostIn s.cntl (if _ then _ else _) ↔ _
      split
      · rename_i hon
        rw [ask_lost_iff hw hask hwait]
        simp [Relieves, hon]
      · rename_i hoff
        exact hspares Spares.refl fun hyes => hoff hyes.1
  | wpaDisassocApAndBlockAssoc =>
      have hask' : LostIn s.cntl (step s .wpaDisassocApAndBlockAssoc)
          ↔ LostIn s.cntl (s.ask (.disassoc s.Bssid) .waitDisassoc) := Iff.rfl
      rw [hask', ask_lost_iff hw hask hwait]
      simp [Relieves]
  | blockAssoc b => exact hspares ⟨rfl, id, by cases k <;> exact id⟩ id
  | iwMlmeDeauth env =>
      refine hspares ?_ id
      have hdeauth : Spares k s (mlmeDeauthReqAction env s) := by
        have hidle : Spares k s (toIdle s .auth) := by
          refine ⟨rfl, id, ?_⟩
          cases k with
          | auth => exact fun hw => absurd rfl hw
          | assoc | reassoc | disassoc => exact id
        exact hidle.trans (spares_mlmeEnqueue id)
      show Spares k s (iwMlmeDeauth env s)
      unfold iwMlmeDeauth
      dsimp only
      split
      · have hdown : Spares k (linkDown (mlmeDeauthReqAction env s))
            { linkDown (mlmeDeauthReqAction env s) with assoc := .idle } := by
          refine ⟨rfl, id, ?_⟩
          cases k with
          | auth => exact id
          | assoc | reassoc | disassoc => simp [Waiting]
        exact (hdeauth.trans same_linkDown.spares).trans hdown
      · exact hdeauth
  | iwMlmeDisassoc env =>
      have hcntl : (iwMlmeDisassoc env s).cntl = .waitOidDisassoc :=
        (mlmeDisassocReqAction_alike (s := { s with cntl := .waitOidDisassoc })).cntl
      have hkind (hc : s.cntl = .waitOidDisassoc) : k = .disassoc := by
        simpa [hc, Cntl.waits] using hw.symm
      have hlost (hc : s.cntl = .waitOidDisassoc) :
          ¬ Asked .disassoc (iwMlmeDisassoc env s).Queue ∧ ¬ Waiting (iwMlmeDisassoc env s) .disassoc
            ↔ env.mlmeMemory = false ∧ Full s :=
        mlmeDisassocReqAction_lost_iff (s := { s with cntl := .waitOidDisassoc }) (hkind hc ▸ hask)
      show LostIn s.cntl (iwMlmeDisassoc env s) ↔ _
      rw [Relieves, not_not]
      constructor
      · rintro ⟨hsame, k', hk', hno, hidle⟩
        have hc : s.cntl = .waitOidDisassoc := hsame.symm.trans hcntl
        obtain rfl : k' = .disassoc := by simpa [hc, Cntl.waits] using hk'.symm
        exact ⟨hc, (hlost hc).mp ⟨hno, hidle⟩⟩
      · rintro ⟨hc, hfull⟩
        exact ⟨hcntl.trans hc.symm, .disassoc, hkind hc ▸ hw, (hlost hc).mpr hfull⟩
  | radioOff env =>
      show LostIn s.cntl (if s.infraOn || s.adhocOn then _ else s) ↔ _
      split
      · rename_i hon
        by_cases hdisassoc : k = .disassoc
        · subst hdisassoc
          have hlost : ¬ Asked .disassoc (mlmeDisassocReqAction env s).Queue ∧
              ¬ Waiting (mlmeDisassocReqAction env s) .disassoc ↔ env.mlmeMemory = false ∧ Full s :=
            mlmeDisassocReqAction_lost_iff hask
          simp only [Relieves, hon, hw, true_and, not_not, ← hlost]
          constructor
          · rintro ⟨_, k', hk', hstill⟩
            rw [hw] at hk'
            cases hk'
            exact hstill
          · intro hstill
            exact ⟨mlmeDisassocReqAction_alike.cntl, .disassoc, hw, hstill⟩
        · apply hspares (mlmeDisassocReqAction_spares hdisassoc)
          simp [Relieves, hw, hdisassoc]
      · rename_i hoff
        exact hspares Spares.refl fun hyes => hoff hyes.1

/-- **A lost wait is not got out of**: no frame, no timer and no request ends it, but exactly the
steps that relieve it. -/
theorem lost_iff {ops : List Op} (hlen : s.Queue.length ≤ maxLenOfMlmeQueue)
    (h : LostIn c s) :
    Always step (LostIn c) s ops ↔ Along step (fun s op => ¬ Relieves s op) s ops :=
  always_iff_along_of_inv (J := fun s => s.Queue.length ≤ maxLenOfMlmeQueue)
    (fun _ op hshort _ _ => step_short hshort op)
    (fun s op hshort hs => by
      obtain rfl : s.cntl = c := hs.1
      exact step_lost_iff hshort hs op) hlen h

/-- Neither does the check for a better access point start anew. -/
theorem lost_iff_roaming :
    Always step (LostIn .waitAssoc) { roaming with assoc := .idle } [.oid .roaming, .handle .plain] := by
  have hlost : LostIn .waitAssoc { roaming with assoc := .idle } := by
    refine ⟨rfl, .assoc, rfl, ?_, by simp [Waiting]⟩
    rintro ⟨e, he, _⟩
    cases he
  rw [lost_iff (by decide) hlost]
  refine ⟨id, ?_, trivial⟩
  rintro ⟨e, es, hq, hfrees⟩
  have hhead : [Elem.oid .roaming] = e :: es := hq
  cases hhead
  exact hfrees

end Lost

end ExtDrv.Rt3370.Connect
