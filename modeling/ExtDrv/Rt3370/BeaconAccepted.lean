import ExtDrv.Rt3370.BeaconInputs

/-!
# Accepted beacons

The result is `TRUE` exactly if the walk comes to an SSID, supported rates and, below the 5 GHz
band, a channel, and to no bad element of a kind that is checked. The SSID that is checked is the
first one.
-/

namespace ExtDrv.Rt3370.Sanity

open Memory

/-- The element is bad, and of a kind that is checked wherever it stands. -/
def IsBad (env : Env) (e : EidStruct) : Prop :=
  (e.Eid = ieSuppRates ∧ 12 < e.Len) ∨
    (e.Eid = ieDsParm ∧ ¬ (e.Len = 1 ∧ e.octet 0 ∈ env.ChannelList)) ∨
    (e.Eid = ieCfParm ∧ e.Len ≠ 6) ∨ (e.Eid = ieIbssParm ∧ e.Len ≠ 2)

/-- The elements come with all that must be there. -/
structure Complete (env : Env) (m : Mem) (visits : List Nat) : Prop where
  ssid : ∃ o, visits.find? (fun i => m i = ieSsid) = some o ∧ (m (o + 1)).toNat ≤ 32
  rates : ∃ o ∈ visits, m o = ieSuppRates
  channel : 14 < env.LatchRfChannel.toNat ∨ ∃ o ∈ visits, m o = ieDsParm
  good : ∀ o ∈ visits, ¬ IsBad env (eidAt m o)

/-! ## One element -/

/-- What an element makes of the bits of `Sanity`. -/
structure FlagStep (env : Env) (e : EidStruct) (s s' : Walk) : Prop where
  refused : s'.refused = true ↔
    s.refused = true ∨ IsBad env e ∨ (e.Eid = ieSsid ∧ s.ssidSeen = false ∧ 32 < e.Len)
  ssidSeen : s'.refused = false → s'.ssidSeen = (s.ssidSeen || decide (e.Eid = ieSsid))
  ratesSeen : s'.refused = false → s'.ratesSeen = (s.ratesSeen || decide (e.Eid = ieSuppRates))
  channelSeen : s'.refused = false → s'.channelSeen = (s.channelSeen || decide (e.Eid = ieDsParm))

section Step

variable {env : Env} {m : Mem} {o : Nat} {s : Walk}

/-- A kind that is not checked. -/
theorem flagStep_of_same {e : EidStruct} {s' : Walk} (h : ¬ IsChecked e)
    (hr : s'.refused = s.refused) (hs : s'.ssidSeen = s.ssidSeen)
    (hrates : s'.ratesSeen = s.ratesSeen) (hc : s'.channelSeen = s.channelSeen) :
    FlagStep env e s s' := by
  have hne : ∀ i ∈ [ieSsid, ieSuppRates, ieDsParm, ieCfParm, ieIbssParm], e.Eid ≠ i := by
    intro i hi he
    exact h (show e.Eid ∈ _ from he ▸ hi)
  have hssid := hne ieSsid (by decide)
  have hsupp := hne ieSuppRates (by decide)
  have hds := hne ieDsParm (by decide)
  have hcf := hne ieCfParm (by decide)
  have hibss := hne ieIbssParm (by decide)
  refine ⟨?_, fun _ => ?_, fun _ => ?_, fun _ => ?_⟩
  · simp [IsBad, hr, hssid, hsupp, hds, hcf, hibss]
  · simp [hs, hssid]
  · simp [hrates, hsupp]
  · simp [hc, hds]

theorem perform_flags_of_unchecked (h : ¬ IsChecked (eidAt m o)) :
    FlagStep env (eidAt m o) s (perform env.Aid m s (s.act env m o)) := by
  have hsame : ∀ {s' : Walk}, s'.refused = s.refused → s'.ssidSeen = s.ssidSeen →
      s'.ratesSeen = s.ratesSeen → s'.channelSeen = s.channelSeen →
        FlagStep env (eidAt m o) s s' := flagStep_of_same h
  have hno : ∀ {i : BitVec 8}, i ∈ [ieSsid, ieSuppRates, ieDsParm, ieCfParm, ieIbssParm] →
      (eidAt m o).Eid ≠ i := fun hi he => h (show (eidAt m o).Eid ∈ _ from he ▸ hi)
  unfold Walk.act
  refine elementAct_elim (P := fun a => FlagStep env (eidAt m o) s (perform env.Aid m s a))
    (hsame rfl rfl rfl rfl) (fun hc => absurd hc h) (fun he => absurd he (hno (by decide)))
    (fun he => absurd he (hno (by decide))) (fun _ => hsame rfl rfl rfl rfl)
    (fun he => absurd he (hno (by decide))) (fun _ => hsame rfl rfl rfl rfl)
    (fun _ => hsame rfl rfl rfl rfl) (fun _ => hsame rfl rfl rfl rfl)
    (fun _ _ => hsame rfl rfl rfl rfl) (fun _ _ => hsame rfl rfl rfl rfl)
    (fun _ _ _ => hsame rfl rfl rfl rfl) (fun _ => ?_) (fun _ _ => hsame rfl rfl rfl rfl)
  exact vendorAct_elim (P := fun a => FlagStep env (eidAt m o) s (perform env.Aid m s a))
    (hsame rfl rfl rfl rfl) (fun _ => hsame rfl rfl rfl rfl) (fun _ => hsame rfl rfl rfl rfl)
    (fun _ => hsame rfl rfl rfl rfl) (fun _ => hsame rfl rfl rfl rfl)
    (fun _ _ _ => hsame rfl rfl rfl rfl)

theorem elementAct_checked {isBeacon ssidSeen htSeen : Bool} {e : EidStruct} {c : Ouis} :
    (e.Eid = ieSsid → elementAct env isBeacon ssidSeen htSeen o e c
        = if ssidSeen then .skip else if e.Len ≤ 32 then .ssid e.Octet else .refuse) ∧
      (e.Eid = ieSuppRates → elementAct env isBeacon ssidSeen htSeen o e c
        = if e.Len ≤ 12 then .supRates e.Octet else .refuse) ∧
      (e.Eid = ieDsParm → elementAct env isBeacon ssidSeen htSeen o e c
        = if e.Len = 1 ∧ e.octet 0 ∈ env.ChannelList then .dsParm (e.octet 0) else .refuse) ∧
      (e.Eid = ieCfParm → elementAct env isBeacon ssidSeen htSeen o e c
        = if e.Len = 6 then .cfParm ⟨true, e.octet 0, e.octet 1, e.word 2, e.word 4⟩
          else .refuse) ∧
      (e.Eid = ieIbssParm → elementAct env isBeacon ssidSeen htSeen o e c
        = if e.Len = 2 then .scalar fun s => { s with AtimWin := e.Octet } else .refuse) := by
  unfold elementAct
  refine ⟨fun h => ?_, fun h => ?_, fun h => ?_, fun h => ?_, fun h => ?_⟩ <;>
  · rw [h]
    rfl

theorem perform_flags_of_checked {isBeacon htSeen : Bool} {e : EidStruct} {c : Ouis}
    (h : IsChecked e) :
    FlagStep env e s (perform env.Aid m s (elementAct env isBeacon s.ssidSeen htSeen o e c)) := by
  have hids : ieSsid ≠ ieSuppRates ∧ ieSsid ≠ ieDsParm ∧ ieSsid ≠ ieCfParm ∧
      ieSsid ≠ ieIbssParm ∧ ieSuppRates ≠ ieDsParm ∧ ieSuppRates ≠ ieCfParm ∧
      ieSuppRates ≠ ieIbssParm ∧ ieDsParm ≠ ieCfParm ∧ ieDsParm ≠ ieIbssParm ∧
      ieCfParm ≠ ieIbssParm := by decide
  obtain ⟨hssid, hsupp, hds, hcf, hibss⟩ := @elementAct_checked env o isBeacon
    s.ssidSeen htSeen e c
  simp only [IsChecked, List.mem_cons, List.not_mem_nil, or_false] at h
  rcases h with he | he | he | he | he
  · rw [hssid he]
    by_cases hs : s.ssidSeen = true
    · rw [if_pos hs]
      constructor <;> simp [IsBad, perform, he, hids, hs]
    · rw [if_neg hs]
      by_cases hl : e.Len ≤ 32
      · rw [if_pos hl]
        constructor <;> simp [IsBad, perform, he, hids, hl]
      · rw [if_neg hl]
        constructor <;> simp [IsBad, perform, he, hids, hs, Nat.not_le.mp hl]
  · rw [hsupp he]
    by_cases hl : e.Len ≤ 12
    · rw [if_pos hl]
      constructor <;> simp [IsBad, perform, he, hids, hids.1.symm, Nat.not_lt.mpr hl]
    · rw [if_neg hl]
      constructor <;> simp [IsBad, perform, he, Nat.not_le.mp hl]
  · rw [hds he]
    by_cases hl : e.Len = 1 ∧ e.octet 0 ∈ env.ChannelList
    · rw [if_pos hl]
      constructor <;> simp [IsBad, perform, he, hids, hids.2.1.symm, hids.2.2.2.2.1.symm, hl]
    · rw [if_neg hl]
      constructor <;> simp [IsBad, perform, he, hl]
  · rw [hcf he]
    by_cases hl : e.Len = 6
    · rw [if_pos hl]
      constructor <;> simp [IsBad, perform, he, hids, hids.2.2.1.symm, hids.2.2.2.2.2.1.symm,
        hids.2.2.2.2.2.2.2.1.symm, hl]
    · rw [if_neg hl]
      constructor <;> simp [IsBad, perform, he, hl]
  · rw [hibss he]
    by_cases hl : e.Len = 2
    · rw [if_pos hl]
      constructor <;> simp [IsBad, perform, he, hids.2.2.2.1.symm,
        hids.2.2.2.2.2.2.1.symm, hids.2.2.2.2.2.2.2.2.1.symm, hids.2.2.2.2.2.2.2.2.2.symm, hl]
    · rw [if_neg hl]
      constructor <;> simp [IsBad, perform, he, hl]

/-- **One element**: the bits of `Sanity`. -/
theorem perform_flags (env : Env) (m : Mem) (o : Nat) (s : Walk) :
    FlagStep env (eidAt m o) s (perform env.Aid m s (s.act env m o)) := by
  by_cases h : IsChecked (eidAt m o)
  · exact perform_flags_of_checked h
  · exact perform_flags_of_unchecked h

end Step

/-! ## The walk -/

/-- What a walk over these elements makes of the bits of `Sanity`. -/
structure FlagWalk (env : Env) (m : Mem) (visits : List Nat) (s s' : Walk) : Prop where
  refused : s'.refused = false ↔ (∀ i ∈ visits, ¬ IsBad env (eidAt m i)) ∧
    (s.ssidSeen = false → ∀ i, visits.find? (fun i => m i = ieSsid) = some i →
      (m (i + 1)).toNat ≤ 32)
  ssidSeen : s'.refused = false →
    (s'.ssidSeen = true ↔ s.ssidSeen = true ∨ ∃ i ∈ visits, m i = ieSsid)
  ratesSeen : s'.refused = false →
    (s'.ratesSeen = true ↔ s.ratesSeen = true ∨ ∃ i ∈ visits, m i = ieSuppRates)
  channelSeen : s'.refused = false →
    (s'.channelSeen = true ↔ s.channelSeen = true ∨ ∃ i ∈ visits, m i = ieDsParm)

theorem walk_flags (env : Env) (m : Mem) (len o : Nat) (s : Walk) : s.refused = false →
    FlagWalk env m (walk env m len o s).1 s (walk env m len o s).2 := by
  induction o, s using walk_rule env m len with
  | stop o s hstop =>
    intro hs
    rw [hstop]
    constructor <;> simp [hs]
  | refused o s h hroom hr =>
    intro hs
    have hstep := perform_flags env m o s
    rw [walk_of_refused h hroom hr]
    have hbad := hstep.refused.mp hr
    have heid : (eidAt m o).Eid = m o := rfl
    rw [hs, heid, eidAt_len] at hbad
    refine ⟨?_, fun h => ?_, fun h => ?_, fun h => ?_⟩
    · rw [hr]
      refine iff_of_false Bool.noConfusion fun hgood => ?_
      rcases hbad with hbad | hbad | ⟨hssid, hseen, hlong⟩
      · cases hbad
      · exact hgood.1 o List.mem_cons_self hbad
      · have := hgood.2 hseen o (by simp [hssid])
        omega
    all_goals
      rw [hr] at h
      cases h
  | on o s h hroom hr ih =>
    intro hs
    have hstep := perform_flags env m o s
    rw [walk_of_on h hroom hr]
    have hr' : (perform env.Aid m s (s.act env m o)).refused = false := Bool.eq_false_iff.mpr hr
    have hw := ih hr'
    have heid : (eidAt m o).Eid = m o := rfl
    have hgood : ¬ IsBad env (eidAt m o) ∧
        (m o = ieSsid → s.ssidSeen = false → (m (o + 1)).toNat ≤ 32) := by
      refine ⟨fun hb => hr (hstep.refused.mpr (Or.inr (Or.inl hb))), fun hssid hseen => ?_⟩
      by_contra hlong
      refine hr (hstep.refused.mpr (Or.inr (Or.inr ⟨hssid, hseen, ?_⟩)))
      rw [eidAt_len]
      omega
    have hssid := hstep.ssidSeen hr'
    have hrates := hstep.ratesSeen hr'
    have hchannel := hstep.channelSeen hr'
    rw [heid] at hssid hrates hchannel
    refine ⟨hw.refused.trans ?_, fun h => (hw.ssidSeen h).trans ?_,
      fun h => (hw.ratesSeen h).trans ?_, fun h => (hw.channelSeen h).trans ?_⟩
    · rw [hssid, List.forall_mem_cons, List.find?_cons]
      by_cases ho : m o = ieSsid
      · -- the SSID is here: it is good, and those behind it are not looked into
        have hfirst : s.ssidSeen = false → ∀ i, some o = some i → (m (i + 1)).toNat ≤ 32 := by
          rintro hseen i hi
          cases hi
          exact hgood.2 ho hseen
        simp only [ho, decide_true, Bool.or_true, Bool.true_eq_false, false_implies, and_true,
          hgood.1, not_false_eq_true, true_and]
        exact ⟨fun h => ⟨h, hfirst⟩, fun h => h.1⟩
      · simp only [ho, decide_false, Bool.or_false, hgood.1, not_false_eq_true, true_and]
    · rw [hssid]
      simp [or_assoc]
    · rw [hrates]
      simp [or_assoc]
    · rw [hchannel]
      simp [or_assoc]

/-! ## The result -/

/-- The bit of the channel in the end. -/
theorem patch_channelSeen {env : Env} {s : Walk} :
    (s.patchChannel env).channelSeen = true ↔
      14 < env.LatchRfChannel.toNat ∨ s.channelSeen = true := by
  unfold Walk.patchChannel
  cases hc : s.channelSeen with
  | true => simp [hc]
  | false =>
    by_cases hlatch : 14 < env.LatchRfChannel.toNat
    · simp [hlatch]
    · simp [hlatch, hc]

theorem verdict_iff {env : Env} {s : Walk} : (s.verdict env).1 = true ↔
    s.refused = false ∧ s.ssidSeen = true ∧ s.ratesSeen = true ∧
      (14 < env.LatchRfChannel.toNat ∨ s.channelSeen = true) := by
  have hssid : (s.patchChannel env).ssidSeen = s.ssidSeen := by
    unfold Walk.patchChannel
    split <;> rfl
  have hrates : (s.patchChannel env).ratesSeen = s.ratesSeen := by
    unfold Walk.patchChannel
    split <;> rfl
  rw [← patch_channelSeen]
  unfold Walk.verdict
  cases hr : s.refused with
  | true => simp
  | false => simp [hssid, hrates, and_assoc]

/-- **Accepted exactly if complete**. -/
theorem peerBeacon_true_iff (env : Env) (m : Mem) (len : Nat) (init : BeaconOut) :
    (peerBeaconAndProbeRspSanity env m len init).1 = true ↔
      Complete env m (walk env m len beaconElements (beaconStart m init)).1 := by
  have hw := walk_flags env m len beaconElements (beaconStart m init) rfl
  unfold peerBeaconAndProbeRspSanity
  rw [verdict_iff, hw.refused]
  constructor
  · rintro ⟨hr, hssid, hrates, hchannel⟩
    have hend := hw.refused.mpr hr
    have hmem := ((hw.ssidSeen hend).mp hssid).resolve_left Bool.noConfusion
    obtain ⟨o, ho⟩ := Option.isSome_iff_exists.mp
      (List.find?_isSome.mpr (hmem.imp fun i hi => ⟨hi.1, decide_eq_true hi.2⟩))
    exact
      { ssid := ⟨o, ho, hr.2 rfl o ho⟩
        rates := ((hw.ratesSeen hend).mp hrates).resolve_left Bool.noConfusion
        channel := hchannel.imp_right fun h =>
          ((hw.channelSeen hend).mp h).resolve_left Bool.noConfusion
        good := hr.1 }
  · intro h
    obtain ⟨o, ho, hshort⟩ := h.ssid
    have hr : (∀ i ∈ (walk env m len beaconElements (beaconStart m init)).1,
        ¬ IsBad env (eidAt m i)) ∧ ((beaconStart m init).ssidSeen = false →
          ∀ i, (walk env m len beaconElements (beaconStart m init)).1.find?
            (fun i => m i = ieSsid) = some i → (m (i + 1)).toNat ≤ 32) := by
      refine ⟨h.good, fun _ i hi => ?_⟩
      rw [ho] at hi
      cases hi
      exact hshort
    have hend := hw.refused.mpr hr
    refine ⟨hr, (hw.ssidSeen hend).mpr (Or.inr ⟨o, List.mem_of_find?_eq_some ho, ?_⟩),
      (hw.ratesSeen hend).mpr (Or.inr h.rates),
      h.channel.imp_right fun hc => (hw.channelSeen hend).mpr (Or.inr hc)⟩
    simpa using List.find?_some ho

end ExtDrv.Rt3370.Sanity
