import ExtDrv.Rt3370.BeaconAccepted
import ExtDrv.Rt3370.BeaconTim

/-!
# Beacons and the bytes behind them

What an accepted frame declares depends on the received bytes alone exactly if the walk comes to
no open comparison, the last TIM is within the message, and no record of EDCA is filled.
-/

namespace ExtDrv.Rt3370.Sanity

open Memory

/-- What the outputs declare, by a length or a flag or because they have a default. -/
structure SameDeclared (o o' : BeaconOut) : Prop where
  header : o.header = o'.header
  ssid : o.Ssid.content = o'.Ssid.content
  supRates : o.SupRate.content = o'.SupRate.content
  extRates : o.ExtRate.content = o'.ExtRate.content
  channel : o.Channel = o'.Channel
  scalars : o.scalars = o'.scalars
  tim : o.tim = o'.tim
  ht : SameHt o o'
  addHt : o.AddHtInfo.content = o'.AddHtInfo.content
  vie : o.pVIE.content = o'.pVIE.content
  cfParm : SameRecord CfParm.bValid o.CfParm o'.CfParm
  qbssLoad : SameRecord QbssLoadParm.bValid o.QbssLoad o'.QbssLoad
  edca : SameRecord EdcaParm.bValid o.EdcaParm o'.EdcaParm

/-- **From the received bytes only**: messages that agree in them have the same result, and declare
the same when it is `TRUE`, whatever the output structures were. -/
def BeaconIsolated (env : Env) (m : Mem) (len : Nat) : Prop :=
  ∀ m₁ m₂ init₁ init₂, AgreeBelow len m m₁ → AgreeBelow len m m₂ →
    (peerBeaconAndProbeRspSanity env m₁ len init₁).1
        = (peerBeaconAndProbeRspSanity env m₂ len init₂).1 ∧
      ((peerBeaconAndProbeRspSanity env m₁ len init₁).1 = true →
        SameDeclared (peerBeaconAndProbeRspSanity env m₁ len init₁).2
          (peerBeaconAndProbeRspSanity env m₂ len init₂).2)

def BeaconOut.zero : BeaconOut :=
  let buf : OutBuf := ⟨0, fun _ => 0⟩
  { header := ⟨[], [], [], [], [], false⟩
    Ssid := buf
    SupRate := buf
    ExtRate := buf
    Channel := 0
    scalars := .default
    tim := ⟨0, 0, false, false⟩
    CfParm := ⟨false, 0, 0, 0, 0⟩
    EdcaParm := ⟨false, false, false, false, false, false, 0, fun _ => ⟨false, 0, 0, 0, 0⟩⟩
    QbssLoad := ⟨false, 0, 0, 0⟩
    HtCapability := buf
    PreNHtCapabilityLen := 0
    AddHtInfo := buf
    pVIE := buf }

/-- The elements the loop comes to. -/
def beaconVisits (env : Env) (m : Mem) (len : Nat) : List Nat :=
  (walk env m len beaconElements (beaconStart m .zero)).1

/-- Whatever is behind the message, something is missing or bad. -/
def BeaconRefused (env : Env) (m : Mem) (len : Nat) : Prop :=
  ∀ m', AgreeBelow len m m' → ¬ Complete env m' (beaconVisits env m' len)

/-- **Nothing is read behind the message that matters, and nothing is left as it was.** -/
structure WithinMessage (env : Env) (m : Mem) (len : Nat) : Prop where
  decided : ∀ o ∈ beaconVisits env m len, Decided m len o
  tim : ∀ o, ((beaconVisits env m len).filter (isTim env m)).getLast? = some o →
    TimWithin env.Aid m len o
  edca : ∀ o ∈ beaconVisits env m len, ¬ IsWme (eidAt m o)

/-! ## The head and the end of the function -/

section Ends

variable {env : Env} {m m' : Mem} {len : Nat}

/-- The fixed fields are of the message. -/
theorem start_agree (hlen : beaconElements ≤ len) (hm : AgreeBelow len m m')
    (init init' : BeaconOut) : Agree (beaconStart m init) (beaconStart m' init') := by
  have hseg : ∀ {o n : Nat}, o + n ≤ 36 → segment m o n = segment m' o n :=
    fun h => (segment_of_agree hm (h.trans hlen)).symm
  have hcap : m 34 = m' 34 := (hm 34 (Nat.lt_of_lt_of_le (by decide) hlen)).symm
  exact
    { refused := rfl
      ssidSeen := rfl
      ratesSeen := rfl
      channelSeen := rfl
      ctrl := rfl
      header := by
        show Header.mk _ _ _ _ _ _ = Header.mk _ _ _ _ _ _
        rw [hseg (by decide), hseg (by decide), hseg (by decide), hseg (by decide),
          hseg (by decide), hcap]
      ssid := fun h => Bool.noConfusion h
      supRates := fun h => Bool.noConfusion h
      extRates := rfl
      channel := fun h => Bool.noConfusion h
      scalars := rfl
      ht := ⟨rfl, rfl, fun h => h.elim (fun h => absurd rfl h) fun h => absurd rfl h⟩
      addHt := rfl
      vie := rfl
      cfParm := ⟨rfl, fun h => Bool.noConfusion h⟩
      qbssLoad := ⟨rfl, fun h => Bool.noConfusion h⟩ }

theorem patch_agree {s s' : Walk} (h : Agree s s') :
    Agree (s.patchChannel env) (s'.patchChannel env) := by
  unfold Walk.patchChannel
  rw [h.channelSeen]
  split
  · exact { h with
      channelSeen := rfl
      channel := fun _ => by
        show (if s.CtrlChannel ≠ 0 then _ else _) = if s'.CtrlChannel ≠ 0 then _ else _
        rw [h.ctrl] }
  · exact h

theorem patch_tim (s : Walk) : (s.patchChannel env).out.tim = s.out.tim := by
  unfold Walk.patchChannel
  split <;> rfl

theorem patch_edca (s : Walk) : (s.patchChannel env).out.EdcaParm = s.out.EdcaParm := by
  unfold Walk.patchChannel
  split <;> rfl

theorem patch_vieLen (s : Walk) : (s.patchChannel env).out.pVIE.len = s.out.pVIE.len := by
  unfold Walk.patchChannel
  split <;> rfl

theorem verdict_congr {s s' : Walk} (h : Agree s s') :
    (s.verdict env).1 = (s'.verdict env).1 := by
  have hp : Agree (s.patchChannel env) (s'.patchChannel env) := patch_agree h
  unfold Walk.verdict
  rw [h.refused]
  split
  · rfl
  · show (_ && _ && _) = (_ && _ && _)
    rw [hp.ssidSeen, hp.ratesSeen, hp.channelSeen]

/-- The outputs of an accepted frame, and what is known of it. -/
theorem verdict_true {s : Walk} (h : (s.verdict env).1 = true) :
    (s.verdict env).2 = (s.patchChannel env).out ∧ (s.patchChannel env).ssidSeen = true ∧
      (s.patchChannel env).ratesSeen = true ∧ (s.patchChannel env).channelSeen = true := by
  unfold Walk.verdict at h ⊢
  split at h
  · cases h
  · rename_i hr
    rw [if_neg hr]
    simp only [Bool.and_eq_true] at h
    exact ⟨rfl, h.1.1, h.1.2, h.2⟩

/-- Two states that agree with a third declare the same, once the records apart are equal. -/
theorem declared_of_agree {s s₁ s₂ : Walk} (h₁ : Agree s s₁) (h₂ : Agree s s₂)
    (hseen : s.ssidSeen = true ∧ s.ratesSeen = true ∧ s.channelSeen = true)
    (htim : s₁.out.tim = s₂.out.tim)
    (hedca : SameRecord EdcaParm.bValid s₁.out.EdcaParm s₂.out.EdcaParm) :
    SameDeclared s₁.out s₂.out where
  header := h₁.header.symm.trans h₂.header
  ssid := (h₁.ssid hseen.1).symm.trans (h₂.ssid hseen.1)
  supRates := (h₁.supRates hseen.2.1).symm.trans (h₂.supRates hseen.2.1)
  extRates := h₁.extRates.symm.trans h₂.extRates
  channel := (h₁.channel hseen.2.2).symm.trans (h₂.channel hseen.2.2)
  scalars := h₁.scalars.symm.trans h₂.scalars
  tim := htim
  ht := by
    refine ⟨h₁.ht.1.symm.trans h₂.ht.1, h₁.ht.2.1.symm.trans h₂.ht.2.1, fun h => ?_⟩
    rw [← h₁.ht.1, ← h₁.ht.2.1] at h
    exact (h₁.ht.2.2 h).symm.trans (h₂.ht.2.2 h)
  addHt := h₁.addHt.symm.trans h₂.addHt
  vie := h₁.vie.symm.trans h₂.vie
  cfParm := by
    refine ⟨h₁.cfParm.1.symm.trans h₂.cfParm.1, fun h => ?_⟩
    rw [← h₁.cfParm.1] at h
    exact (h₁.cfParm.2 h).symm.trans (h₂.cfParm.2 h)
  qbssLoad := by
    refine ⟨h₁.qbssLoad.1.symm.trans h₂.qbssLoad.1, fun h => ?_⟩
    rw [← h₁.qbssLoad.1] at h
    exact (h₁.qbssLoad.2 h).symm.trans (h₂.qbssLoad.2 h)
  edca := hedca

end Ends

/-! ## Exactly when -/

section Exactly

variable {env : Env} {m m' : Mem} {len : Nat}

/-- The walk over a frame that is shorter than the fixed fields ends at once. -/
theorem walk_of_short (hlen : len < beaconElements) (s : Walk) :
    walk env m len beaconElements s = ([], s) := by
  refine walk_of_gt fun h => ?_
  unfold Tlv.after at h
  omega

theorem refused_of_short (hlen : len < beaconElements) : BeaconRefused env m len := by
  intro m' _ hc
  obtain ⟨o, ho, -⟩ := hc.rates
  unfold beaconVisits at ho
  rw [walk_of_short hlen] at ho
  cases ho

theorem isBeacon_of_agree (hlen : beaconElements ≤ len) (hm : AgreeBelow len m m') :
    isBeacon m' = isBeacon m := by
  unfold isBeacon
  rw [hm 0 (Nat.lt_of_lt_of_le (by decide) hlen)]

/-- The output structures make no difference in where the walk goes. -/
theorem visits_init (env : Env) (m : Mem) (len : Nat) (init : BeaconOut) :
    (walk env m len beaconElements (beaconStart m init)).1 = beaconVisits env m len := by
  unfold beaconVisits
  by_cases hlen : beaconElements ≤ len
  · have hself : AgreeBelow len m m := fun _ _ => rfl
    exact (walk_agree hself rfl beaconElements (beaconStart m .zero) (fun _ _ => SameOuis.rfl) _
      (start_agree hlen hself .zero init)).1
  · rw [walk_of_short (Nat.not_le.mp hlen), walk_of_short (Nat.not_le.mp hlen)]

theorem accepted_iff (env : Env) (m : Mem) (len : Nat) (init : BeaconOut) :
    (peerBeaconAndProbeRspSanity env m len init).1 = true ↔
      Complete env m (beaconVisits env m len) := by
  rw [peerBeacon_true_iff, visits_init]

theorem after_of_visited {o i : Nat} {s : Walk} :
    i ∈ (walk env m len o s).1 → Tlv.after m i ≤ len := by
  induction o, s using walk_rule env m len with
  | stop o s hstop =>
    rw [hstop]
    intro hi
    cases hi
  | refused o s h hroom hr =>
    rw [walk_of_refused h hroom hr]
    intro hi
    rwa [List.mem_singleton.mp hi]
  | on o s h hroom hr ih =>
    rw [walk_of_on h hroom hr]
    intro hi
    rcases List.mem_cons.mp hi with rfl | hi
    · exact h
    · exact ih hi

/-- Decided elements: every completion of the message is walked over as this one is. -/
theorem walk_completion (hlen : beaconElements ≤ len)
    (hd : ∀ o ∈ beaconVisits env m len, Decided m len o) (hm : AgreeBelow len m m')
    (init : BeaconOut) :
    (walk env m' len beaconElements (beaconStart m' init)).1 = beaconVisits env m len ∧
      Agree (walk env m len beaconElements (beaconStart m .zero)).2
        (walk env m' len beaconElements (beaconStart m' init)).2 :=
  walk_agree hm (isBeacon_of_agree hlen hm) beaconElements (beaconStart m .zero)
    (fun o ho => (hd o ho).sameOuis hm) _
    (start_agree hlen hm .zero init)

/-- The record of the TIM, of a completion. -/
theorem tim_completion (hlen : beaconElements ≤ len)
    (hd : ∀ o ∈ beaconVisits env m len, Decided m len o) (hm : AgreeBelow len m m')
    (init : BeaconOut) :
    (walk env m' len beaconElements (beaconStart m' init)).2.out.tim
      = ((beaconVisits env m len).filter (isTim env m)).getLast?.elim ⟨0, 0, false, false⟩
        (getTimBit env.Aid m') := by
  have hfilter : (beaconVisits env m len).filter (isTim env m')
      = (beaconVisits env m len).filter (isTim env m) := by
    refine List.filter_congr fun o ho => ?_
    have hle : o < len := by
      have h := after_of_visited ho
      unfold Tlv.after at h
      omega
    unfold isTim
    rw [hm o hle, isBeacon_of_agree hlen hm]
  rw [walk_tim, (walk_completion hlen hd hm init).1, hfilter]
  rfl

/-- Within the message, all completions are parsed alike. -/
theorem isolated_of_within (hlen : beaconElements ≤ len) (h : WithinMessage env m len) :
    BeaconIsolated env m len := by
  intro m₁ m₂ init₁ init₂ hm₁ hm₂
  have h₁ := walk_completion hlen h.decided hm₁ init₁
  have h₂ := walk_completion hlen h.decided hm₂ init₂
  refine ⟨(verdict_congr h₁.2).symm.trans (verdict_congr h₂.2), fun htrue => ?_⟩
  have htrue₀ := (verdict_congr h₁.2).trans htrue
  have htrue₂ := (verdict_congr h₂.2).symm.trans htrue₀
  have hseen := (verdict_true htrue₀).2
  show SameDeclared (Walk.verdict env _).2 (Walk.verdict env _).2
  rw [(verdict_true htrue).1, (verdict_true htrue₂).1]
  refine declared_of_agree (patch_agree h₁.2) (patch_agree h₂.2) hseen ?_ ?_
  · have htim : ∀ m', AgreeBelow len m m' → ∀ init,
        (walk env m' len beaconElements (beaconStart m' init)).2.out.tim
          = ((beaconVisits env m len).filter (isTim env m)).getLast?.elim ⟨0, 0, false, false⟩
            (getTimBit env.Aid m) := by
      intro m' hm' init
      rw [tim_completion hlen h.decided hm' init]
      cases hlast : ((beaconVisits env m len).filter (isTim env m)).getLast? with
      | none => rfl
      | some o =>
        have hle := after_of_visited (List.mem_of_mem_filter (List.mem_of_getLast? hlast))
        exact getTimBit_of_within hm' hle (h.tim o hlast)
    rw [patch_tim, patch_tim, htim m₁ hm₁ init₁, htim m₂ hm₂ init₂]
  · have hedca : ∀ m', AgreeBelow len m m' → ∀ init,
        (walk env m' len beaconElements (beaconStart m' init)).2.out.EdcaParm.bValid = false := by
      intro m' hm' init
      rw [(walk_edca env m' len beaconElements (beaconStart m' init)).2.2 ?_]
      · rfl
      · rw [(walk_completion hlen h.decided hm' init).1]
        intro o ho
        rw [eidAt_of_agree hm' (after_of_visited ho)]
        exact h.edca o ho
    rw [patch_edca, patch_edca]
    refine ⟨(hedca m₁ hm₁ init₁).trans (hedca m₂ hm₂ init₂).symm, fun hv => ?_⟩
    rw [hedca m₁ hm₁ init₁] at hv
    cases hv

/-- An accepted frame of which all completions are parsed alike is within the message. -/
theorem within_of_isolated (hlen : beaconElements ≤ len) (h : BeaconIsolated env m len)
    (haccept : ¬ BeaconRefused env m len) : WithinMessage env m len := by
  have hself : AgreeBelow len m m := fun _ _ => rfl
  have htrue : ∀ m' init, AgreeBelow len m m' →
      (peerBeaconAndProbeRspSanity env m' len init).1 = true := by
    intro m' init hm'
    by_contra hfalse
    refine haccept fun m'' hm'' hc => hfalse ?_
    rw [(h m' m'' init .zero hm' hm'').1]
    exact (accepted_iff env m'' len .zero).mpr hc
  -- what is declared of any two completions, in terms of the ends of their walks
  have hsame : ∀ m₁ m₂ init₁ init₂, AgreeBelow len m m₁ → AgreeBelow len m m₂ →
      SameDeclared
        ((walk env m₁ len beaconElements (beaconStart m₁ init₁)).2.patchChannel env).out
        ((walk env m₂ len beaconElements (beaconStart m₂ init₂)).2.patchChannel env).out := by
    intro m₁ m₂ init₁ init₂ hm₁ hm₂
    have hdecl := (h m₁ m₂ init₁ init₂ hm₁ hm₂).2 (htrue m₁ init₁ hm₁)
    unfold peerBeaconAndProbeRspSanity at hdecl
    rwa [(verdict_true (htrue m₁ init₁ hm₁)).1, (verdict_true (htrue m₂ init₂ hm₂)).1] at hdecl
  have hdecided : ∀ o ∈ beaconVisits env m len, Decided m len o := by
    intro o ho
    by_contra hopen
    obtain ⟨m₁, m₂, hm₁, hm₂, hlt⟩ :=
      open_walk (Nat.lt_of_lt_of_le (by decide) hlen) beaconElements (beaconStart m .zero)
        ⟨o, ho, hopen⟩
    have hlens := hlt _ _ (start_agree hlen hm₁ .zero .zero) (start_agree hlen hm₂ .zero .zero)
    have hvie := congrArg List.length (hsame m₁ m₂ .zero .zero hm₁ hm₂).vie
    rw [content_length, content_length, patch_vieLen, patch_vieLen] at hvie
    omega
  refine ⟨hdecided, fun o hlast => ?_, fun o ho hwme => ?_⟩
  · have hle := after_of_visited (List.mem_of_mem_filter (List.mem_of_getLast? hlast))
    refine within_of_getTimBit hle fun m' hm' => ?_
    have htim := (hsame m' m .zero .zero hm' hself).tim
    rw [patch_tim, patch_tim, tim_completion hlen hdecided hm' .zero,
      tim_completion hlen hdecided hself .zero, hlast] at htim
    exact htim
  · -- a field of the record that is filled stays as it was
    let init : BeaconOut := { BeaconOut.zero with
      EdcaParm := { BeaconOut.zero.EdcaParm with bAdd := true } }
    have hedca := (hsame m m init .zero hself hself).edca
    rw [patch_edca, patch_edca] at hedca
    have hwalk := walk_edca env m len beaconElements (beaconStart m init)
    have hwalk₀ := walk_edca env m len beaconElements (beaconStart m .zero)
    have hvisit : o ∈ (walk env m len beaconElements (beaconStart m init)).1 := by
      rw [(walk_completion hlen hdecided hself init).1]
      exact ho
    have hadd := congrArg EdcaParm.bAdd (hedca.2 (hwalk.2.1 (Or.inr ⟨o, hvisit, hwme⟩)))
    rw [hwalk.1, hwalk₀.1] at hadd
    exact Bool.noConfusion hadd

/-- **Exactly when** a beacon or probe response is parsed from the received bytes only: something is
missing or bad whatever is behind it, or nothing that matters is read behind it or left as it
was. -/
theorem beaconIsolated_iff (env : Env) (m : Mem) (len : Nat) :
    BeaconIsolated env m len ↔ BeaconRefused env m len ∨ WithinMessage env m len := by
  constructor
  · intro h
    by_cases hr : BeaconRefused env m len
    · exact Or.inl hr
    · have hlen : beaconElements ≤ len := Nat.not_lt.mp fun hlt => hr (refused_of_short hlt)
      exact Or.inr (within_of_isolated hlen h hr)
  · intro h
    by_cases hr : BeaconRefused env m len
    · intro m₁ m₂ init₁ init₂ hm₁ hm₂
      have hfalse : ∀ m' init, AgreeBelow len m m' →
          (peerBeaconAndProbeRspSanity env m' len init).1 = false := by
        intro m' init hm'
        refine Bool.eq_false_iff.mpr fun htrue => ?_
        exact hr m' hm' ((accepted_iff env m' len init).mp htrue)
      refine ⟨(hfalse m₁ init₁ hm₁).trans (hfalse m₂ init₂ hm₂).symm, fun htrue => ?_⟩
      rw [hfalse m₁ init₁ hm₁] at htrue
      cases htrue
    · have hlen : beaconElements ≤ len := Nat.not_lt.mp fun hlt => hr (refused_of_short hlt)
      exact isolated_of_within hlen (h.resolve_left hr)

end Exactly

/-! ## What is written -/

/-- Nothing is written behind an output array. -/
structure InBounds (o o' : BeaconOut) : Prop where
  ssid : OutBuf.Within 32 o.Ssid o'.Ssid
  supRates : OutBuf.Within 12 o.SupRate o'.SupRate
  extRates : OutBuf.Within 12 o.ExtRate o'.ExtRate
  ht : OutBuf.Within 26 o.HtCapability o'.HtCapability
  addHt : OutBuf.Within 22 o.AddHtInfo o'.AddHtInfo
  vie : OutBuf.Within 1024 o.pVIE o'.pVIE

section Bounds

variable {env : Env} {m : Mem} {len : Nat} {init : BeaconOut}

theorem perform_inBounds (aid : Nat) (m : Mem) {s : Walk} {a : Act} {n : Nat} (ha : a.Sized n)
    (hroom : s.out.pVIE.len + n ≤ 1024) (h : InBounds init s.out) :
    InBounds init (perform aid m s a).out := by
  have hvie : ∀ {ie : Octets}, ie.length = n →
      OutBuf.Within 1024 init.pVIE (s.out.pVIE.append ie) :=
    fun hie => h.vie.append (hie ▸ hroom)
  cases a with
  | skip => exact h
  | refuse => exact h
  | ssid bs => exact { h with ssid := h.ssid.fill ha }
  | supRates bs => exact { h with supRates := h.supRates.fill ha }
  | extRates bs => exact { h with extRates := h.extRates.fill ha }
  | dsParm channel => exact { h with }
  | htCap bs ie => exact { h with ht := h.ht.fill (Nat.le_of_eq ha.1), vie := hvie ha.2 }
  | preNHtCap bs => exact { h with ht := h.ht.write (Nat.le_of_eq ha) }
  | addHt bs ie => exact { h with addHt := h.addHt.fill (Nat.le_of_eq ha.1), vie := hvie ha.2 }
  | preNAddHt bs => exact { h with addHt := h.addHt.fill (Nat.le_of_eq ha) }
  | copy ie => exact { h with vie := hvie ha }
  | scalar f => exact { h with }
  | tim o => exact { h with }
  | cfParm p => exact { h with }
  | qbssLoad p ie => exact { h with vie := hvie ha }
  | edca f => exact { h with }

theorem act_inBounds {o : Nat} {s : Walk} (hroom : s.room m o = true) (h : InBounds init s.out) :
    InBounds init (perform env.Aid m s (s.act env m o)).out := by
  refine perform_inBounds env.Aid m (act_sized s env m o) ?_ h
  have hlt : s.out.pVIE.len + (m (o + 1)).toNat + 2 < 1024 := of_decide_eq_true hroom
  rw [eidAt_len]
  omega

theorem walk_inBounds (o : Nat) (s : Walk) :
    InBounds init s.out → InBounds init (walk env m len o s).2.out := by
  induction o, s using walk_rule env m len with
  | stop o s hstop =>
    intro h
    rwa [hstop]
  | refused o s hle hroom hr =>
    intro h
    rw [walk_of_refused hle hroom hr]
    exact act_inBounds hroom h
  | on o s hle hroom hr ih =>
    intro h
    rw [walk_of_on hle hroom hr]
    exact ih (act_inBounds hroom h)

theorem start_inBounds : InBounds init (beaconStart m init).out where
  ssid := .rfl
  supRates := .rfl
  extRates := fun _ _ => rfl
  ht := fun _ _ => rfl
  addHt := fun _ _ => rfl
  vie := fun _ _ => rfl

theorem patch_inBounds {s : Walk} (h : InBounds init s.out) :
    InBounds init (s.patchChannel env).out := by
  unfold Walk.patchChannel
  split
  · exact { h with }
  · exact h

/-- **In bounds**, accepted or not. -/
theorem beacon_inBounds (env : Env) (m : Mem) (len : Nat) (init : BeaconOut) :
    InBounds init (peerBeaconAndProbeRspSanity env m len init).2 := by
  have h := @walk_inBounds env m len init beaconElements (beaconStart m init) start_inBounds
  unfold peerBeaconAndProbeRspSanity Walk.verdict
  split
  · exact h
  · exact patch_inBounds h

end Bounds

end ExtDrv.Rt3370.Sanity
