import ExtDrv.Rt3370.ConnectRuns

/-!
# How the station gets to a link

Nothing ever asks for a reassociation: the machines come to it from a reassociation that failed
only. A link to an access point comes up on a successful response to an association request, and
that was sent after a successful authentication; each of these pays for one link.
-/

namespace ExtDrv.Rt3370.Connect

open Memory Run Sanity

variable {s t : Adapter} {env : Env} {e : Elem} {op : Op}

/-! ## Reassociation -/

/-- No reassociation is asked for, nor waited for. -/
structure Unroamed (s : Adapter) : Prop where
  cntl : s.cntl ≠ .waitReassoc
  assoc : s.assoc ≠ .reassocWaitRsp
  req : ∀ Addr, Elem.req (.reassoc Addr) ∉ s.Queue

theorem unroamed_mlmeInit (BssType : BssType) (AuthMode : AuthMode) (CurrentAddress : Octets) :
    Unroamed (mlmeInit BssType AuthMode CurrentAddress) :=
  ⟨nofun, nofun, fun _ => List.not_mem_nil⟩

/-- The association machine waits for a response only to what it is asked. -/
theorem handleElem_assoc (env : Env) (e : Elem) (hlen : s.Queue.length ≤ maxLenOfMlmeQueue) :
    (handleElem env s e).assoc = s.assoc ∨ (handleElem env s e).assoc = .idle ∨
      (handleElem env s e).assoc = .disassocWaitRsp ∨
      (handleElem env s e).assoc = .waitRsp ∧ (∃ Addr, e = .req (.assoc Addr)) ∨
      (handleElem env s e).assoc = .reassocWaitRsp ∧ ∃ Addr, e = .req (.reassoc Addr) := by
  rcases handleElem_turns env e hlen with rfl | hempties | ⟨_, hmoved⟩ | hplayed
  · exact Or.inr (Or.inl rfl)
  · rw [handleElem_empties hempties]
    exact Or.inl same_linkDown.assoc
  · exact Or.inl hmoved.assoc
  · exact hplayed.assoc

theorem handleElem_cntl (hlen : s.Queue.length ≤ maxLenOfMlmeQueue) (h : s.cntl ≠ .waitReassoc) :
    (handleElem env s e).cntl ≠ .waitReassoc := by
  rcases handleElem_turns env e hlen with rfl | hempties | ⟨_, hmoved⟩ | hplayed
  · exact nofun
  · rw [handleElem_empties hempties]
    exact same_linkDown.cntl.trans_ne h
  · exact hmoved.cntl h
  · exact hplayed.cntl.trans_ne h

theorem handle_unroamed (hlen : s.Queue.length ≤ maxLenOfMlmeQueue) (h : Unroamed s) :
    Unroamed (mlmeHandler env s) := by
  unfold mlmeHandler
  split
  · exact h
  · rename_i e es hq
    have hrest : es.length ≤ maxLenOfMlmeQueue := by
      rw [hq] at hlen
      exact Nat.le_of_succ_le hlen
    have hother (Addr : Octets) : e ≠ .req (.reassoc Addr) := by
      intro he
      apply h.req Addr
      rw [hq, he]
      exact List.mem_cons_self
    have ht : ({ s with Queue := es } : Adapter).cntl ≠ .waitReassoc := h.cntl
    refine ⟨handleElem_cntl (s := { s with Queue := es }) hrest ht, ?_, ?_⟩
    · rcases handleElem_assoc (s := { s with Queue := es }) env e hrest with
        heq | heq | heq | ⟨heq, _⟩ | ⟨_, Addr, he⟩
      · exact heq.trans_ne h.assoc
      · exact heq.trans_ne nofun
      · exact heq.trans_ne nofun
      · exact heq.trans_ne nofun
      · exact absurd he (hother Addr)
    · intro Addr hmem
      rcases (handleElem_fed (s := { s with Queue := es }) hrest).mem hmem with hold | hnew
      · apply h.req Addr
        rw [hq]
        exact List.mem_cons_of_mem _ hold
      · exact h.cntl hnew

theorem iwMlmeDeauth_machines :
    (iwMlmeDeauth env s).cntl = s.cntl ∧
      ((iwMlmeDeauth env s).assoc = s.assoc ∨ (iwMlmeDeauth env s).assoc = .idle) ∧
      ((iwMlmeDeauth env s).infraOn = true → s.infraOn = true) := by
  have hcntl : (mlmeDeauthReqAction env s).cntl = s.cntl := mlmeEnqueue_cntl
  have hassoc : (mlmeDeauthReqAction env s).assoc = s.assoc := mlmeEnqueue_assoc
  have hinfra : (mlmeDeauthReqAction env s).infraOn = s.infraOn := mlmeEnqueue_infraOn
  unfold iwMlmeDeauth
  dsimp only
  split
  · rename_i hon
    exact ⟨same_linkDown.cntl.trans hcntl, Or.inr rfl, fun _ => hinfra.symm.trans hon⟩
  · exact ⟨hcntl, Or.inl hassoc, hinfra.symm.trans⟩

/-- What a step other than the handler's does to the machines. -/
theorem step_machines (hop : ∀ env, op ≠ .handle env) :
    ((step s op).cntl = s.cntl ∨ (step s op).cntl ≠ .waitReassoc) ∧
      ((step s op).assoc = s.assoc ∨ (step s op).assoc = .idle ∨
        (step s op).assoc = .disassocWaitRsp) ∧
      ((step s op).infraOn = true → s.infraOn = true) := by
  cases op with
  | handle env => exact absurd rfl (hop env)
  | fires k =>
      unfold step timeout
      dsimp only
      split <;> simp [rtmpCancelTimer]
  | receive f =>
      unfold step mlmeEnqueueForRecv
      dsimp only
      split <;> simp
  | oid o | reset | syncConf y Status => simp [step]
  | autoReconnect byBssid validSsid =>
      unfold step mlmeAutoReconnectLastSSID
      dsimp only
      split_ifs <;> simp
  | scan waits => cases waits <;> simp [step, Adapter.askSync]
  | linkDown =>
      have hdown : Same s (linkDown s) := same_linkDown
      exact ⟨Or.inl hdown.cntl, Or.inl hdown.assoc, hdown.link⟩
  | linkDownExec env =>
      unfold step linkDownExec
      dsimp only
      split <;> simp [Adapter.ask]
  | wpaDisassocApAndBlockAssoc => simp [step, wpaDisassocApAndBlockAssoc, Adapter.ask]
  | blockAssoc b => simp [step]
  | iwMlmeDeauth env =>
      obtain ⟨hcntl, hassoc, hlink⟩ : _ ∧ _ ∧ _ := iwMlmeDeauth_machines
      exact ⟨Or.inl hcntl, hassoc.imp id Or.inl, hlink⟩
  | iwMlmeDisassoc env =>
      have ht : Alike .disassoc { s with cntl := .waitOidDisassoc } (iwMlmeDisassoc env s) :=
        mlmeDisassocReqAction_alike
      refine ⟨Or.inr ?_, Or.inr mlmeDisassocReqAction_assoc.symm, ht.link⟩
      exact ht.cntl.trans_ne (by simp)
  | radioOff env =>
      unfold step radioOff
      dsimp only
      split
      · exact ⟨Or.inl mlmeDisassocReqAction_alike.cntl, Or.inr mlmeDisassocReqAction_assoc.symm,
          mlmeDisassocReqAction_alike.link⟩
      · simp

/-- **No step asks for a reassociation.** -/
theorem step_unroamed (hlen : s.Queue.length ≤ maxLenOfMlmeQueue) (h : Unroamed s) (op : Op) :
    Unroamed (step s op) := by
  have hother (hop : ∀ env, op ≠ .handle env) : Unroamed (step s op) := by
    obtain ⟨hcntl, hassoc, _⟩ := step_machines (s := s) hop
    refine ⟨?_, ?_, ?_⟩
    · rcases hcntl with heq | hne
      · exact heq.trans_ne h.cntl
      · exact hne
    · rcases hassoc with heq | heq | heq
      · exact heq.trans_ne h.assoc
      · exact heq.trans_ne nofun
      · exact heq.trans_ne nofun
    · intro Addr hmem
      rcases (step_grown hlen hop).mem hmem with hold | hplain
      · exact h.req Addr hold
      · exact hplain
  cases op with
  | handle env => exact handle_unroamed hlen h
  | _ =>
      apply hother
      intro env heq
      cases heq

/-- Short queues and no reassociation. -/
def Sound (s : Adapter) : Prop := s.Queue.length ≤ maxLenOfMlmeQueue ∧ Unroamed s

theorem step_sound (h : Sound s) (op : Op) : Sound (step s op) :=
  ⟨step_short h.1 op, step_unroamed h.1 h.2 op⟩

/-- **The station never reassociates**: from the initialisation on, whatever happens, no
reassociation is asked for or waited for. -/
theorem never_roams (BssType : BssType) (AuthMode : AuthMode) (CurrentAddress : Octets)
    (ops : List Op) : Always step Unroamed (mlmeInit BssType AuthMode CurrentAddress) ops := by
  have hsound : Always step Sound (mlmeInit BssType AuthMode CurrentAddress) ops :=
    always_of_step (fun _ op hs => step_sound hs op) ops
      ⟨Nat.zero_le _, unroamed_mlmeInit BssType AuthMode CurrentAddress⟩
  exact hsound.mono fun _ hs => hs.2

/-! ## Links -/

/-- An association request goes out in this step: from then on the response is waited for. -/
def asks (s : Adapter) (op : Op) : Bool := s.assoc != .waitRsp && (step s op).assoc == .waitRsp

/-- The turn on a message calls `LinkUp` for an access point. -/
def linksUp (_env : Env) (s : Adapter) : Elem → Bool
  | .conf .assoc Reason => s.cntl == .waitAssoc && Reason == mlmeSuccess
  | .conf .reassoc Result => s.cntl == .waitReassoc && Result == mlmeSuccess
  | _ => false

/-- The step is the turn of the handler on a message that is `p`. -/
def handles (p : Env → Adapter → Elem → Bool) (s : Adapter) : Op → Bool
  | .handle env =>
    match s.Queue with
    | e :: es => p env { s with Queue := es } e
    | [] => false
  | _ => false

def Elem.isAssocReq : Elem → Bool
  | .req (.assoc _) => true
  | _ => false

/-- An association that is asked for, or an authentication confirmed that leads to it. -/
def Elem.leadsOn : Elem → Bool
  | .req (.assoc _) => true
  | .conf .auth Status => Status == mlmeSuccess
  | _ => false

section Credit

variable {p : Elem → Bool}

theorem countP_mlmeEnqueue : (mlmeEnqueue s e).Queue.countP p ≤ s.Queue.countP p + 1 := by
  unfold mlmeEnqueue
  split
  · exact Nat.le_succ _
  · rw [List.countP_append]
    exact Nat.add_le_add_left (List.countP_le_length ..) _

theorem countP_endWith (k : Kind) (Status : BitVec 16) :
    (endWith k Status s).Queue.countP p ≤ s.Queue.countP p + 1 := by
  have hle := countP_mlmeEnqueue (s := toIdle s k) (e := .conf k Status) (p := p)
  rwa [toIdle_queue] at hle

/-- The response that grants an association is confirmed once. -/
theorem associates_countP (h : associates env s e = true) :
    (handleElem env s e).Queue.countP p ≤ s.Queue.countP p + 1 := by
  have hturn {m : Mem} {len : Nat} (hs : s.assoc = .waitRsp)
      (ha : assocAnswer env s m len = some mlmeSuccess) :
      (peerAssocRspAction env s m len).Queue.countP p ≤ s.Queue.countP p + 1 := by
    unfold peerAssocRspAction
    rw [ha]
    exact countP_endWith (s := rtmpCancelTimer s .assoc) .assoc mlmeSuccess
  unfold associates at h
  split at h
  · simp only [Bool.and_eq_true, beq_iff_eq] at h
    simpa [handleElem, assocAction, h.1] using hturn h.1 h.2
  · simp only [Bool.and_eq_true, beq_iff_eq] at h
    simpa [handleElem, assocAction, h.1] using hturn h.1 h.2
  · cases h

theorem associates_assoc (h : associates env s e = true) :
    s.assoc = .waitRsp ∧ (handleElem env s e).assoc = .idle := by
  have hturn {m : Mem} {len : Nat} (ha : assocAnswer env s m len = some mlmeSuccess) :
      (peerAssocRspAction env s m len).assoc = .idle := by
    unfold peerAssocRspAction
    simp [ha, endWith, toIdle]
  unfold associates at h
  split at h
  · simp only [Bool.and_eq_true, beq_iff_eq] at h
    exact ⟨h.1, by simpa [handleElem, assocAction, h.1] using hturn h.2⟩
  · simp only [Bool.and_eq_true, beq_iff_eq] at h
    exact ⟨h.1, by simpa [handleElem, assocAction, h.1] using hturn h.2⟩
  · cases h

/-- The answer that grants an authentication is confirmed once. -/
theorem authenticates_countP (h : authenticates env s e = true) :
    (handleElem env s e).Queue.countP p ≤ s.Queue.countP p + 1 := by
  unfold authenticates at h
  split at h
  · rename_i m
    show (authAction env s (.peer (.authEven m))).Queue.countP p ≤ _
    unfold authAction
    dsimp only
    split
    · exact Nat.le_succ _
    · unfold peerAuthRspAtSeq2Action
      dsimp only
      split_ifs
      · exact Nat.le_succ _
      · exact countP_endWith (s := rtmpCancelTimer s .auth) _ _
      · exact countP_endWith (s := rtmpCancelTimer s .auth) _ _
      · exact Nat.le_succ _
      · exact countP_endWith (s := rtmpCancelTimer s .auth) _ _
      · exact Nat.le_succ _
    · unfold peerAuthRspAtSeq4Action
      split_ifs
      · exact Nat.le_succ _
      · exact countP_endWith (s := rtmpCancelTimer s .auth) _ _
      · exact Nat.le_succ _
  · cases h

/-- A confirmed authentication leads to one request. -/
theorem authConf_countP :
    (handleElem env s (.conf .auth mlmeSuccess)).Queue.countP p ≤ s.Queue.countP p + 1 := by
  show (mlmeCntlMachinePerformAction env s (.conf .auth mlmeSuccess)).Queue.countP p ≤ _
  unfold mlmeCntlMachinePerformAction
  dsimp only
  split
  · exact countP_mlmeEnqueue
  · exact countP_mlmeEnqueue
  · exact Nat.le_succ _

/-! ### The link -/

theorem handleElem_link (hlen : s.Queue.length ≤ maxLenOfMlmeQueue) (hs : s.cntl ≠ .waitReassoc)
    (h : (handleElem env s e).infraOn = true) : s.infraOn = true ∨ e.isGranted = true := by
  rcases handleElem_turns env e hlen with rfl | hempties | ⟨_, hmoved⟩ | hplayed
  · exact Or.inl h
  · rw [handleElem_empties hempties] at h
    exact Or.inl (same_linkDown.link h)
  · exact hmoved.link hs h
  · exact Or.inl (hplayed.link h)

theorem linksUp_of_link (hlen : s.Queue.length ≤ maxLenOfMlmeQueue) (hs : s.cntl ≠ .waitReassoc)
    (hoff : s.infraOn = false) (hon : (handleElem env s e).infraOn = true) :
    linksUp env s e = true := by
  rcases handleElem_link hlen hs hon with hold | hgranted
  · exact absurd hold (by simp [hoff])
  unfold Elem.isGranted at hgranted
  split at hgranted
  · rename_i Status
    by_contra hno
    have hcntl : s.cntl ≠ .waitAssoc := fun hc => hno (by simpa [linksUp, hc] using hgranted)
    have hw : s.cntl.waits ≠ some .assoc := by
      cases hc : s.cntl <;> simp_all [Cntl.waits]
    -- a confirmation that is not waited for is dropped
    have hsame : mlmeCntlMachinePerformAction env s (.conf .assoc Status) = s :=
      conf_other hw Status
    rw [show handleElem env s (.conf .assoc Status) = s from hsame, hoff] at hon
    cases hon
  · cases hgranted

/-! ### What each step earns and spends -/

/-- `LinkUp` is called on an association that was granted. -/
theorem granted_of_linksUp (hs : s.cntl ≠ .waitReassoc) (h : linksUp env s e = true) :
    e.isGranted = true := by
  unfold linksUp at h
  split at h
  · exact (Bool.and_eq_true_iff.mp h).2
  · exact absurd (beq_iff_eq.mp (Bool.and_eq_true_iff.mp h).1) hs
  · cases h

theorem handle_linksUp (h : Sound s) :
    (mlmeHandler env s).Queue.countP Elem.isGranted + (handles linksUp s (.handle env)).toNat
      ≤ s.Queue.countP Elem.isGranted + (handles associates s (.handle env)).toNat := by
  cases hq : s.Queue with
  | nil => simp [handles, mlmeHandler, hq]
  | cons e es =>
      have hrest : es.length ≤ maxLenOfMlmeQueue := by
        have hlen := h.1
        rw [hq] at hlen
        exact Nat.le_of_succ_le hlen
      have hstep : mlmeHandler env s = handleElem env { s with Queue := es } e := by
        simp [mlmeHandler, hq]
      have hhandles (p : Env → Adapter → Elem → Bool) : handles p s (.handle env)
          = p env { s with Queue := es } e := by
        simp [handles, hq]
      rw [hstep, hhandles, hhandles, List.countP_cons]
      -- `LinkUp` is called on a confirmation that is taken off the queue
      have hup : (linksUp env { s with Queue := es } e).toNat
          ≤ if e.isGranted = true then 1 else 0 := by
        cases hlinks : linksUp env { s with Queue := es } e with
        | false => exact Nat.zero_le _
        | true =>
            have hgranted := granted_of_linksUp (s := { s with Queue := es }) h.2.cntl hlinks
            rw [if_pos hgranted]
            exact Nat.le_refl _
      cases ha : associates env { s with Queue := es } e with
      | true =>
          have hle : (handleElem env { s with Queue := es } e).Queue.countP Elem.isGranted
              ≤ es.countP Elem.isGranted + 1 := associates_countP ha
          simp only [Bool.toNat_true]
          omega
      | false =>
          have hfed : Fed (Brings env { s with Queue := es } e) es
              (handleElem env { s with Queue := es } e).Queue :=
            handleElem_fed (s := { s with Queue := es }) hrest
          have hcount := hfed.countP_le (p := Elem.isGranted) (by
              intro e' he'
              unfold Elem.isGranted
              split
              · rename_i Status
                by_contra hok
                have hnot := he' (by simpa using hok)
                rw [ha] at hnot
                cases hnot
              · rfl)
          simp only [Bool.toNat_false]
          omega

theorem handle_asks (hlen : s.Queue.length ≤ maxLenOfMlmeQueue) :
    (mlmeHandler env s).Queue.countP Elem.leadsOn + (asks s (.handle env)).toNat
      ≤ s.Queue.countP Elem.leadsOn + (handles authenticates s (.handle env)).toNat := by
  cases hq : s.Queue with
  | nil => simp [asks, handles, step, mlmeHandler, hq]
  | cons e es =>
      have hrest : es.length ≤ maxLenOfMlmeQueue := by
        rw [hq] at hlen
        exact Nat.le_of_succ_le hlen
      have hstep : mlmeHandler env s = handleElem env { s with Queue := es } e := by
        simp [mlmeHandler, hq]
      have hhandles : handles authenticates s (.handle env)
          = authenticates env { s with Queue := es } e := by
        simp [handles, hq]
      -- a request is taken off the queue for each that goes out
      have hask : (asks s (.handle env)).toNat ≤ if e.isAssocReq = true then 1 else 0 := by
        split
        · exact Bool.toNat_le _
        · rename_i hno
          have hstay : asks s (.handle env) = false := by
            rw [asks, Bool.and_eq_false_iff]
            by_contra hboth
            simp only [not_or, Bool.not_eq_false, bne_iff_ne, beq_iff_eq] at hboth
            have hwait : (mlmeHandler env s).assoc = .waitRsp := hboth.2
            rw [hstep] at hwait
            rcases handleElem_assoc (s := { s with Queue := es }) env e hrest with
              heq | heq | heq | ⟨_, hreq⟩ | ⟨heq, _⟩
            · exact hboth.1 (heq.symm.trans hwait)
            · cases heq.symm.trans hwait
            · cases heq.symm.trans hwait
            · obtain ⟨Addr, rfl⟩ := hreq
              exact hno rfl
            · cases heq.symm.trans hwait
          simp [hstay]
      rw [hstep, hhandles, List.countP_cons]
      cases ha : authenticates env { s with Queue := es } e with
      | true =>
          have hle : (handleElem env { s with Queue := es } e).Queue.countP Elem.leadsOn
              ≤ es.countP Elem.leadsOn + 1 := authenticates_countP ha
          have hnone : ¬ e.isAssocReq = true := by
            unfold Elem.isAssocReq
            split
            · cases ha
            · exact nofun
          rw [if_neg hnone] at hask
          simp only [Bool.toNat_true]
          omega
      | false =>
          by_cases hconf : e = .conf .auth mlmeSuccess
          · subst hconf
            have hle : (handleElem env { s with Queue := es } (.conf .auth mlmeSuccess)).Queue.countP
                Elem.leadsOn ≤ es.countP Elem.leadsOn + 1 := authConf_countP
            have hleads : (Elem.conf .auth mlmeSuccess).leadsOn = true := rfl
            rw [if_neg nofun] at hask
            rw [if_pos hleads]
            simp only [Bool.toNat_false]
            omega
          · have hfed : Fed (Brings env { s with Queue := es } e) es
                (handleElem env { s with Queue := es } e).Queue :=
              handleElem_fed (s := { s with Queue := es }) hrest
            have hcount := hfed.countP_le (p := Elem.leadsOn) (by
                intro e' he'
                unfold Elem.leadsOn
                split
                · exact absurd he' hconf
                · rename_i Status
                  by_contra hok
                  have hnot := he' (by simpa using hok)
                  rw [ha] at hnot
                  cases hnot
                · rfl)
            have hreq : (if e.isAssocReq = true then 1 else 0) ≤ if e.leadsOn = true then 1 else 0 := by
              unfold Elem.isAssocReq
              split
              · exact Nat.le_refl _
              · exact Nat.zero_le _
            simp only [Bool.toNat_false]
            omega

/-- No link comes up that is not counted. -/
theorem step_link (h : Sound s) (hoff : s.infraOn = false) (hon : (step s op).infraOn = true) :
    handles linksUp s op = true := by
  cases op with
  | handle env =>
      have hturn : (mlmeHandler env s).infraOn = true := hon
      cases hq : s.Queue with
      | nil =>
          rw [mlmeHandler, hq] at hturn
          exact absurd hturn (by simp [hoff])
      | cons e es =>
          have hrest : es.length ≤ maxLenOfMlmeQueue := by
            have hlen := h.1
            rw [hq] at hlen
            exact Nat.le_of_succ_le hlen
          rw [mlmeHandler, hq] at hturn
          simpa [handles, hq] using
            linksUp_of_link (s := { s with Queue := es }) hrest h.2.cntl hoff hturn
  | _ =>
      have hlink := (step_machines (s := s) (fun env heq => by cases heq)).2.2 hon
      exact absurd hlink (by simp [hoff])

/-- **A link** spends a grant, and each response accepted earns one. -/
theorem step_linksUp (h : Sound s) (op : Op) :
    (step s op).Queue.countP Elem.isGranted + (handles linksUp s op).toNat
      ≤ s.Queue.countP Elem.isGranted + (handles associates s op).toNat := by
  cases op with
  | handle env => exact handle_linksUp h
  | _ =>
      refine Nat.add_le_add (Nat.le_of_eq ?_) (Nat.le_refl _)
      apply (step_grown h.1 fun env heq => by cases heq).countP
      intro e he
      cases e with
      | conf k Status =>
          cases k with
          | assoc => cases he
          | auth | reassoc | disassoc => rfl
      | _ => rfl

/-- **A response that is accepted** ends a wait, and each request that goes out begins one. -/
theorem step_associates (op : Op) :
    ((step s op).assoc == .waitRsp).toNat + (handles associates s op).toNat
      ≤ (s.assoc == .waitRsp).toNat + (asks s op).toNat := by
  have hask : ((step s op).assoc == .waitRsp).toNat
      ≤ (s.assoc == .waitRsp).toNat + (asks s op).toNat := by
    unfold asks
    cases hs : s.assoc == .waitRsp <;> cases hs' : (step s op).assoc == .waitRsp <;> simp [bne, hs]
  cases ha : handles associates s op with
  | false => simpa using hask
  | true =>
      have hends : s.assoc = .waitRsp ∧ (step s op).assoc = .idle := by
        unfold handles at ha
        split at ha
        · rename_i env
          split at ha
          · rename_i e es hq
            have hturn := associates_assoc ha
            simpa [step, mlmeHandler, hq] using hturn
          · cases ha
        · cases ha
      have hidle : (Assoc.idle == Assoc.waitRsp) = false := rfl
      simp [hends.1, hends.2, hidle]

/-- **A request that goes out** was led to by a success, and each answer accepted is one. -/
theorem step_asks (hlen : s.Queue.length ≤ maxLenOfMlmeQueue) (op : Op) :
    (step s op).Queue.countP Elem.leadsOn + (asks s op).toNat
      ≤ s.Queue.countP Elem.leadsOn + (handles authenticates s op).toNat := by
  have hother (hop : ∀ env, op ≠ .handle env) :
      (step s op).Queue.countP Elem.leadsOn + (asks s op).toNat ≤ s.Queue.countP Elem.leadsOn := by
    have hcount := (step_grown hlen hop).countP (p := Elem.leadsOn) (by
      intro e he
      cases e with
      | conf k Status =>
          cases k with
          | auth => cases he
          | assoc | reassoc | disassoc => rfl
      | req r =>
          cases r with
          | assoc Addr => cases he
          | auth Addr Alg | reassoc Addr | disassoc Addr => rfl
      | _ => rfl)
    have hstay : asks s op = false := by
      rw [asks, Bool.and_eq_false_iff]
      by_contra hboth
      simp only [not_or, Bool.not_eq_false, bne_iff_ne, beq_iff_eq] at hboth
      rcases (step_machines (s := s) hop).2.1 with heq | heq | heq
      · exact hboth.1 (heq.symm.trans hboth.2)
      · cases heq.symm.trans hboth.2
      · cases heq.symm.trans hboth.2
    simp [hcount, hstay]
  cases op with
  | handle env => exact handle_asks hlen
  | _ =>
      apply Nat.le_trans (hother _) (Nat.le_add_right _ _)
      intro env heq
      cases heq

end Credit

/-- **Every link is paid for**: from the initialisation on, in any order of frames, timers, requests
and failures, `LinkUp` is called for an access point no more often than successful responses were
accepted, no more of these than association requests went out, and no more of those than authentications
succeeded. -/
theorem links_paid (BssType : BssType) (AuthMode : AuthMode) (CurrentAddress : Octets)
    (ops : List Op) :
    let s := mlmeInit BssType AuthMode CurrentAddress
    tally step (handles linksUp) s ops ≤ tally step (handles associates) s ops ∧
      tally step (handles associates) s ops ≤ tally step asks s ops ∧
      tally step asks s ops ≤ tally step (handles authenticates) s ops := by
  intro s
  have hsound : Sound s := ⟨Nat.zero_le _, unroamed_mlmeInit BssType AuthMode CurrentAddress⟩
  have hkeep (s : Adapter) (op : Op) (h : Sound s) : Sound (step s op) := step_sound h op
  have hup := tally_le_tally (fun s => s.Queue.countP Elem.isGranted) hkeep
    (fun _ op h => step_linksUp h op) hsound ops
  have hanswered := tally_le_tally (fun s => (s.assoc == .waitRsp).toNat) hkeep
    (fun _ op _ => step_associates op) hsound ops
  have hasked := tally_le_tally (fun s => s.Queue.countP Elem.leadsOn) hkeep
    (fun _ op h => step_asks h.1 op) hsound ops
  -- nothing is to be spent in the beginning
  exact ⟨hup.trans_eq (Nat.zero_add _), hanswered.trans_eq (Nat.zero_add _),
    hasked.trans_eq (Nat.zero_add _)⟩

end ExtDrv.Rt3370.Connect
