import ExtDrv.Rt3370.BeaconWalk

/-!
# What beacons are parsed from

The two records apart are followed through a walk, and a comparison that the received bytes leave
open makes two walks differ: the bytes behind the message may be those of the OUI,
or none of it.
-/

namespace ExtDrv.Rt3370.Sanity

open Memory

section Elements

variable {env : Env} {isBeacon ssidSeen htSeen : Bool} {o : Nat} {e : EidStruct} {c : Ouis}

theorem elementAct_vendor (h : e.Eid = ieVendorSpecific) :
    elementAct env isBeacon ssidSeen htSeen o e c = vendorAct htSeen e c := by
  unfold elementAct
  rw [h]
  rfl

theorem elementAct_rsn (h : e.Eid = ieRsn) :
    elementAct env isBeacon ssidSeen htSeen o e c = if c.rsn then .copy e.bytes else .skip := by
  unfold elementAct
  rw [h]
  rfl

theorem elementAct_tim (h : e.Eid = ieTim) :
    elementAct env isBeacon ssidSeen htSeen o e c
      = if env.infraOn ∧ isBeacon then .tim o else .skip := by
  unfold elementAct
  rw [h]
  rfl

/-- In an element that is shorter than an OUI only the open comparisons count. -/
theorem vendorAct_of_short (h : e.Len < 4) :
    vendorAct htSeen e c =
      if c.wpa then .copy e.bytes else if c.wps then .copy e.bytes else .skip := by
  unfold vendorAct
  rw [if_neg (by omega), if_neg (by omega)]
  split
  · rfl
  · rw [if_neg (by omega), if_neg (by omega)]

end Elements

/-! ## The record of the TIM -/

/-- The element at `o` is a TIM that is looked into. -/
def isTim (env : Env) (m : Mem) (o : Nat) : Bool :=
  decide (m o = ieTim) && (env.infraOn && isBeacon m)

section Records

variable {env : Env} {m : Mem} {len o : Nat} {s : Walk}

theorem perform_tim : (perform env.Aid m s (s.act env m o)).out.tim
    = if isTim env m o then getTimBit env.Aid m o else s.out.tim := by
  by_cases h : isTim env m o = true
  · rw [if_pos h]
    simp only [isTim, Bool.and_eq_true, decide_eq_true_eq] at h
    unfold Walk.act
    rw [elementAct_tim (show (eidAt m o).Eid = ieTim from h.1), if_pos h.2]
    rfl
  · rw [if_neg h]
    unfold Walk.act
    refine elementAct_elim (P := fun a => (perform env.Aid m s a).out.tim = s.out.tim) rfl
      (fun _ => rfl) (fun _ _ => rfl) (fun _ _ => rfl) (fun _ => rfl) (fun _ _ => rfl)
      (fun _ => rfl) (fun _ => rfl) (fun _ => rfl) (fun htim hon => ?_) (fun _ _ => rfl)
      (fun _ _ _ => rfl) (fun _ => ?_) (fun _ _ => rfl)
    · refine absurd ?_ h
      simp only [isTim, Bool.and_eq_true, decide_eq_true_eq]
      exact ⟨htim, hon⟩
    · exact vendorAct_elim (P := fun a => (perform env.Aid m s a).out.tim = s.out.tim) rfl
        (fun _ => rfl) (fun _ => rfl) (fun _ => rfl) (fun _ => rfl) fun _ _ _ => rfl

/-- It is that of the last one. -/
theorem walk_tim (env : Env) (m : Mem) (len o : Nat) (s : Walk) :
    (walk env m len o s).2.out.tim
      = (((walk env m len o s).1.filter (isTim env m)).getLast?).elim s.out.tim
        (getTimBit env.Aid m) := by
  induction o, s using walk_rule env m len with
  | stop o s hstop =>
    rw [hstop]
    rfl
  | refused o s h hroom hr =>
    rw [walk_of_refused h hroom hr, perform_tim]
    by_cases ht : isTim env m o = true <;> simp [ht]
  | on o s h hroom hr ih =>
    rw [walk_of_on h hroom hr]
    show (walk env m len _ _).2.out.tim = _
    rw [ih, perform_tim, List.filter_cons]
    generalize (walk env m len (Tlv.after m o) _).1.filter (isTim env m) = ts
    by_cases ht : isTim env m o = true
    · rw [if_pos ht, if_pos ht, List.getLast?_cons]
      cases ts.getLast? with
      | none => rfl
      | some t => rfl
    · rw [if_neg ht, if_neg ht]

/-! ## The record of EDCA -/

theorem take_segment (m : Mem) (o : Nat) {k n : Nat} (h : k ≤ n) :
    (segment m o n).take k = segment m o k := by
  obtain ⟨d, rfl⟩ := Nat.exists_eq_add_of_le h
  rw [segment_add]
  exact List.take_left' (length_segment m o k)

/-- An element of WMM is one of no other kind. -/
theorem act_of_wme (h : IsWme (eidAt m o)) :
    (perform env.Aid m s (s.act env m o)).out.EdcaParm.bValid = true := by
  obtain ⟨hv, hw⟩ := h
  have hsix : ∃ b, (eidAt m o).Octet.take 6 = [0x00, 0x50, 0xf2, 0x02, b, 0x01] ∧
      7 ≤ (eidAt m o).Len := by
    rcases hw with ⟨ht, hl⟩ | ⟨ht, hl⟩
    · exact ⟨0x01, ht, by omega⟩
    · exact ⟨0x00, ht, by omega⟩
  obtain ⟨b, hsix, hlen⟩ := hsix
  have htake : ∀ k ≤ 6, (eidAt m o).Octet.take k
      = ([0x00, 0x50, 0xf2, 0x02, b, 0x01] : Octets).take k := by
    intro k hk
    rw [← hsix, List.take_take, Nat.min_eq_left hk]
  have hralink : ¬ ((eidAt m o).Octet.take 3 = ralinkOui ∧ (eidAt m o).Len = 7) := by
    rw [htake 3 (by decide)]
    exact fun h => absurd h.1 (by simp [ralinkOui])
  have hpreN : ¬ (decide (s.out.HtCapability.len ≠ 0) = false ∧
      (eidAt m o).Octet.take 3 = preNHtOui ∧ 4 ≤ (eidAt m o).Len) := by
    rw [htake 3 (by decide)]
    exact fun h => absurd h.2.1 (by simp [preNHtOui])
  have hwpa : ¬ (ouisAt m o).wpa = true := by
    have hseg : segment m (o + 2) 4 = [0x00, 0x50, 0xf2, 0x02] := by
      have hl : 4 ≤ (m (o + 1)).toNat := by
        have : (eidAt m o).Len = (m (o + 1)).toNat := length_segment _ _ _
        omega
      rw [← take_segment m (o + 2) hl]
      exact htake 4 (by decide)
    simp [ouisAt, hseg, wpaOui]
  unfold Walk.act
  rw [elementAct_vendor hv, vendorAct, if_neg hralink, if_neg hpreN, if_neg hwpa]
  rcases hw with hw | hw
  · rw [if_pos hw]
    rfl
  · have hparm : ¬ ((eidAt m o).Octet.take 6 = wmeParmElem ∧ (eidAt m o).Len = 24) := by
      rw [hw.1]
      exact fun h => absurd h.1 (by decide)
    rw [if_neg hparm, if_pos hw]
    rfl

/-- Every act leaves `bAdd`, and the flag once it is set; without an element of WMM, all of the
record. -/
structure EdcaStep (e : EidStruct) (p p' : EdcaParm) : Prop where
  bAdd : p'.bAdd = p.bAdd
  bValid : p.bValid = true → p'.bValid = true
  none : ¬ IsWme e → p' = p

theorem perform_edca (env : Env) (m : Mem) (o : Nat) (s : Walk) : EdcaStep (eidAt m o) s.out.EdcaParm
    (perform env.Aid m s (s.act env m o)).out.EdcaParm := by
  have hsame : EdcaStep (eidAt m o) s.out.EdcaParm s.out.EdcaParm := ⟨rfl, id, fun _ => rfl⟩
  unfold Walk.act
  refine elementAct_elim (P := fun a => EdcaStep (eidAt m o) s.out.EdcaParm
      (perform env.Aid m s a).out.EdcaParm) hsame (fun _ => hsame) (fun _ _ => hsame)
    (fun _ _ => hsame) (fun _ => hsame) (fun _ _ => hsame) (fun _ => hsame) (fun _ => hsame)
    (fun _ => hsame)
    (fun _ _ => hsame) (fun _ _ => hsame) (fun _ _ _ => hsame) (fun hv => ?_) (fun _ _ => hsame)
  refine vendorAct_elim (P := fun a => EdcaStep (eidAt m o) s.out.EdcaParm
    (perform env.Aid m s a).out.EdcaParm) hsame (fun _ => hsame) (fun _ => hsame)
    (fun _ => hsame) (fun _ => hsame) (fun hw f hf => ?_)
  exact ⟨(hf _).2, fun _ => (hf _).1, fun hno => absurd ⟨hv, hw⟩ hno⟩

theorem walk_edca (env : Env) (m : Mem) (len o : Nat) (s : Walk) :
    (walk env m len o s).2.out.EdcaParm.bAdd = s.out.EdcaParm.bAdd ∧
      (s.out.EdcaParm.bValid = true ∨ (∃ i ∈ (walk env m len o s).1, IsWme (eidAt m i)) →
        (walk env m len o s).2.out.EdcaParm.bValid = true) ∧
      ((∀ i ∈ (walk env m len o s).1, ¬ IsWme (eidAt m i)) →
        (walk env m len o s).2.out.EdcaParm = s.out.EdcaParm) := by
  induction o, s using walk_rule env m len with
  | stop o s hstop =>
    rw [hstop]
    refine ⟨rfl, fun h => ?_, fun _ => rfl⟩
    rcases h with h | ⟨i, hi, -⟩
    · exact h
    · cases hi
  | refused o s h hroom hr =>
    have hstep := perform_edca env m o s
    rw [walk_of_refused h hroom hr]
    refine ⟨hstep.bAdd, fun hw => ?_, fun hno => hstep.none (hno o List.mem_cons_self)⟩
    rcases hw with hw | ⟨i, hi, hw⟩
    · exact hstep.bValid hw
    · rw [List.mem_singleton.mp hi] at hw
      exact act_of_wme hw
  | on o s h hroom hr ih =>
    have hstep := perform_edca env m o s
    rw [walk_of_on h hroom hr]
    refine ⟨ih.1.trans hstep.bAdd, fun hw => ih.2.1 ?_, fun hno => ?_⟩
    · rcases hw with hw | ⟨i, hi, hw⟩
      · exact Or.inl (hstep.bValid hw)
      · rcases List.mem_cons.mp hi with rfl | hi
        · exact Or.inl (act_of_wme hw)
        · exact Or.inr ⟨i, hi, hw⟩
    · exact (ih.2.2 fun i hi => hno i (List.mem_cons_of_mem o hi)).trans
        (hstep.none (hno o List.mem_cons_self))

end Records

/-! ## An open comparison -/

/-- The received bytes, and behind them those the comparison at `o` is open for. -/
def completed (m : Mem) (len o : Nat) (oui : Octets) : Mem :=
  fun i => if i < len then m i else oui.getD (i - o) 0

/-- The received bytes, and behind them none that is in an OUI. -/
def blank (m : Mem) (len : Nat) : Mem := fun i => if i < len then m i else 0xff

section Open

variable {m : Mem} {len o : Nat}

theorem agree_completed (m : Mem) (len o : Nat) (oui : Octets) :
    AgreeBelow len m (completed m len o oui) := fun _ hi => if_pos hi

theorem agree_blank (m : Mem) (len : Nat) : AgreeBelow len m (blank m len) := fun _ hi => if_pos hi

/-- An open comparison can come out right. -/
theorem segment_completed {n : Nat} {oui : Octets} (hoff : oui.length = n) (hn : n ≤ 4)
    (hopen : ¬ OuiDecided m len o n oui) : segment (completed m len o oui) o n = oui := by
  have hlt : len < o + n := Nat.not_le.mp fun h => hopen (Or.inl h)
  refine List.ext_getElem? fun i => ?_
  by_cases hi : i < n
  · have hget : completed m len o oui (o + i) = oui.getD i 0 := by
      unfold completed
      by_cases hin : o + i < len
      · rw [if_pos hin]
        by_contra hne
        exact hopen (Or.inr ⟨i, by omega, hin, hne⟩)
      · rw [if_neg hin, Nat.add_sub_cancel_left]
    rw [getElem?_segment _ hi, hget, List.getD_eq_getElem?_getD,
      List.getElem?_eq_getElem (by omega)]
    rfl
  · rw [List.getElem?_eq_none (by rw [length_segment]; omega), List.getElem?_eq_none (by omega)]

/-- And wrong. -/
theorem segment_blank {n : Nat} {oui : Octets} (hn : 0 < n) (hlt : len < o + n)
    (hlast : oui.getD (n - 1) 0 ≠ 0xff) : segment (blank m len) o n ≠ oui := by
  intro h
  have hget := getElem?_segment (o := o) (blank m len) (Nat.sub_lt hn Nat.one_pos)
  have hff : blank m len (o + (n - 1)) = 0xff := if_neg (by omega)
  rw [h, hff] at hget
  rw [List.getD_eq_getElem?_getD, hget] at hlast
  exact hlast rfl

end Open

/-! ## How much is copied -/

section Copied

variable {env : Env} {m : Mem} {len : Nat}

theorem perform_vieLen_le (aid : Nat) (m : Mem) (s : Walk) (a : Act) :
    s.out.pVIE.len ≤ (perform aid m s a).out.pVIE.len := by
  cases a <;> first | exact Nat.le_refl _ | exact Nat.le_add_right _ _

theorem walk_vieLen_le (env : Env) (m : Mem) (len o : Nat) (s : Walk) :
    s.out.pVIE.len ≤ (walk env m len o s).2.out.pVIE.len := by
  induction o, s using walk_rule env m len with
  | stop o s hstop =>
    rw [hstop]
  | refused o s h hroom hr =>
    rw [walk_of_refused h hroom hr]
    exact perform_vieLen_le _ _ _ _
  | on o s h hroom hr ih =>
    rw [walk_of_on h hroom hr]
    exact (perform_vieLen_le _ _ _ _).trans ih

theorem eidAt_len (m : Mem) (o : Nat) : (eidAt m o).Len = (m (o + 1)).toNat := length_segment _ _ _

/-- Near the end nothing is copied, if the bytes behind it are in no OUI. -/
theorem perform_tail {o : Nat} {s : Walk} (hlen : len < o + 5) (h : Tlv.after m o ≤ len)
    (hff : ∀ i, len ≤ i → m i = 0xff) :
    (perform env.Aid m s (s.act env m o)).out.pVIE.len = s.out.pVIE.len := by
  have hshort : (eidAt m o).Len ≤ 2 := by
    rw [eidAt_len]
    unfold Tlv.after at h
    omega
  have hblank : blank m len = m := by
    funext i
    unfold blank
    split
    · rfl
    · exact (hff i (by omega)).symm
  have hno : ∀ {k n : Nat} {oui : Octets}, 0 < n → len < k + n → oui.getD (n - 1) 0 ≠ 0xff →
      segment m k n ≠ oui := by
    intro k n oui hn hlt hlast
    have hseg := segment_blank (m := m) hn hlt hlast
    rwa [hblank] at hseg
  have hwpa : (ouisAt m o).wpa = false :=
    decide_eq_false (hno (by decide) (by omega) (by decide))
  have hwps : (ouisAt m o).wps = false :=
    decide_eq_false (hno (by decide) (by omega) (by decide))
  have hrsn : (ouisAt m o).rsn = false :=
    decide_eq_false (hno (by decide) (by omega) (by decide))
  unfold Walk.act
  refine elementAct_elim (P := fun a => (perform env.Aid m s a).out.pVIE.len = s.out.pVIE.len) rfl
    (fun _ => rfl) (fun _ _ => rfl) (fun _ _ => rfl) (fun _ => rfl) (fun _ _ => rfl)
    (fun hl => by omega)
    (fun hl => by omega) (fun _ => rfl) (fun _ _ => rfl) (fun _ _ => rfl)
    (fun _ _ hl => by omega) (fun _ => ?_) (fun _ hc => ?_)
  · rw [vendorAct_of_short (by omega), hwpa, hwps]
    rfl
  · rw [hrsn] at hc
    cases hc

theorem walk_tail (hff : ∀ i, len ≤ i → m i = 0xff) (o : Nat) (s : Walk) (hlen : len < o + 5) :
    (walk env m len o s).2.out.pVIE.len = s.out.pVIE.len := by
  induction o, s using walk_rule env m len with
  | stop o s hstop => rw [hstop]
  | refused o s h hroom hr =>
    rw [walk_of_refused h hroom hr]
    exact perform_tail hlen h hff
  | on o s h hroom hr ih =>
    rw [walk_of_on h hroom hr]
    have hnext : len < Tlv.after m o + 5 := by
      unfold Tlv.after
      omega
    exact (ih hnext).trans (perform_tail hlen h hff)

/-- What is copied at an element whose comparison is open, in two walks. -/
theorem open_element (env : Env) {o : Nat} (s : Walk) (h : Tlv.after m o ≤ len)
    (hopen : ¬ Decided m len o) :
    ∃ m₁ m₂, AgreeBelow len m m₁ ∧ AgreeBelow len m m₂ ∧ (∀ i, len ≤ i → m₂ i = 0xff) ∧
      len < o + 7 ∧ ∀ s', Agree s s' →
        s'.act env m₁ o = .copy (eidAt m o).bytes ∧ s'.act env m₂ o = .skip := by
  have hL := eidAt_len m o
  have hend : o + 2 + (m (o + 1)).toNat ≤ len := h
  by_cases hv : m o = ieVendorSpecific ∧ ¬ OuiDecided m len (o + 2) 4 wpaOui
  · obtain ⟨hv, hu⟩ := hv
    have hlt : len < o + 2 + 4 := Nat.not_le.mp fun hle => hu (Or.inl hle)
    refine ⟨completed m len (o + 2) wpaOui, blank m len, agree_completed _ _ _ _, agree_blank _ _,
      fun i hi => if_neg (by omega), by omega, fun s' _ => ?_⟩
    have heid : ∀ m', AgreeBelow len m m' → s'.act env m' o
        = vendorAct (s'.out.HtCapability.len ≠ 0) (eidAt m o) (ouisAt m' o) := by
      intro m' hm'
      unfold Walk.act
      rw [eidAt_of_agree hm' h]
      exact elementAct_vendor hv
    rw [heid _ (agree_completed _ _ _ _), heid _ (agree_blank _ _), vendorAct_of_short (by omega),
      vendorAct_of_short (by omega)]
    have hyes : (ouisAt (completed m len (o + 2) wpaOui) o).wpa = true :=
      decide_eq_true (segment_completed rfl (by decide) hu)
    have hno : (ouisAt (blank m len) o).wpa = false :=
      decide_eq_false (segment_blank (by decide) hlt (by decide))
    have hno' : (ouisAt (blank m len) o).wps = false :=
      decide_eq_false (segment_blank (by decide) hlt (by decide))
    rw [hyes, hno, hno']
    exact ⟨rfl, rfl⟩
  · have hr : m o = ieRsn ∧ ¬ OuiDecided m len (o + 4) 3 rsnOui := by
      by_contra hr
      refine hopen ⟨fun hv' => ?_, fun hr' => ?_⟩
      · by_contra hu
        exact hv ⟨hv', hu⟩
      · by_contra hu
        exact hr ⟨hr', hu⟩
    obtain ⟨hr, hu⟩ := hr
    have hlt : len < o + 4 + 3 := Nat.not_le.mp fun hle => hu (Or.inl hle)
    refine ⟨completed m len (o + 4) rsnOui, blank m len, agree_completed _ _ _ _, agree_blank _ _,
      fun i hi => if_neg (by omega), by omega, fun s' _ => ?_⟩
    have heid : ∀ m', AgreeBelow len m m' → s'.act env m' o
        = if (ouisAt m' o).rsn then .copy (eidAt m o).bytes else .skip := by
      intro m' hm'
      unfold Walk.act
      rw [eidAt_of_agree hm' h]
      exact elementAct_rsn hr
    have hyes : (ouisAt (completed m len (o + 4) rsnOui) o).rsn = true :=
      decide_eq_true (segment_completed rfl (by decide) hu)
    have hno : (ouisAt (blank m len) o).rsn = false :=
      decide_eq_false (segment_blank (by decide) hlt (by decide))
    rw [heid _ (agree_completed _ _ _ _), heid _ (agree_blank _ _), hyes, hno]
    exact ⟨rfl, rfl⟩

theorem perform_le_walk (env : Env) {m : Mem} {len o : Nat} {s : Walk} (h : Tlv.after m o ≤ len)
    (hroom : s.room m o = true) :
    (perform env.Aid m s (s.act env m o)).out.pVIE.len ≤ (walk env m len o s).2.out.pVIE.len := by
  by_cases hr : (perform env.Aid m s (s.act env m o)).refused = true
  · rw [walk_of_refused h hroom hr]
  · rw [walk_of_on h hroom hr]
    exact walk_vieLen_le _ _ _ _ _

/-- **An open comparison shows**: if the walk comes to an element that is not decided, the bytes
behind the message make a difference in what is copied. -/
theorem open_walk (hlen : 0 < len) (o : Nat) (s : Walk) :
    (∃ i ∈ (walk env m len o s).1, ¬ Decided m len i) →
      ∃ m₁ m₂, AgreeBelow len m m₁ ∧ AgreeBelow len m m₂ ∧ ∀ s₁ s₂, Agree s s₁ → Agree s s₂ →
        (walk env m₂ len o s₂).2.out.pVIE.len < (walk env m₁ len o s₁).2.out.pVIE.len := by
  -- the first open element: copied in one walk, skipped in the other, where nothing comes behind it
  have hfirst : ∀ o s, Tlv.after m o ≤ len → s.room m o = true → ¬ Decided m len o →
      ∃ m₁ m₂, AgreeBelow len m m₁ ∧ AgreeBelow len m m₂ ∧ ∀ s₁ s₂, Agree s s₁ → Agree s s₂ →
        (walk env m₂ len o s₂).2.out.pVIE.len < (walk env m₁ len o s₁).2.out.pVIE.len := by
    intro o s h hroom hopen
    obtain ⟨m₁, m₂, hm₁, hm₂, hff, hnear, hacts⟩ := open_element env s h hopen
    refine ⟨m₁, m₂, hm₁, hm₂, fun s₁ s₂ hs₁ hs₂ => ?_⟩
    have hle := perform_le_walk env ((after_le_iff hm₁).mpr h)
      (room_of_agree hm₁ h hs₁ ▸ hroom)
    rw [(hacts s₁ hs₁).1] at hle
    have hgrow : s₁.out.pVIE.len < (walk env m₁ len o s₁).2.out.pVIE.len :=
      Nat.lt_of_lt_of_le (Nat.lt_add_of_pos_right (Nat.succ_pos _)) hle
    have hstay : (walk env m₂ len o s₂).2.out.pVIE.len = s₂.out.pVIE.len := by
      have hafter := (after_le_iff hm₂).mpr h
      have hroom' : s₂.room m₂ o = true := room_of_agree hm₂ h hs₂ ▸ hroom
      by_cases hr : (perform env.Aid m₂ s₂ (s₂.act env m₂ o)).refused = true
      · rw [walk_of_refused hafter hroom' hr, (hacts s₂ hs₂).2]
        rfl
      · rw [walk_of_on hafter hroom' hr, (hacts s₂ hs₂).2]
        refine walk_tail hff _ _ ?_
        unfold Tlv.after
        omega
    rw [hstay, ← hs₂.vieLen, hs₁.vieLen]
    exact hgrow
  induction o, s using walk_rule env m len with
  | stop o s hstop =>
    rw [hstop]
    rintro ⟨i, hi, -⟩
    cases hi
  | refused o s h hroom hr =>
    rw [walk_of_refused h hroom hr]
    rintro ⟨i, hi, hopen⟩
    rw [List.mem_singleton.mp hi] at hopen
    exact hfirst o s h hroom hopen
  | on o s h hroom hr ih =>
    rw [walk_of_on h hroom hr]
    rintro ⟨i, hi, hopen⟩
    by_cases hd : Decided m len o
    · have hrest : i ∈ (walk env m len (Tlv.after m o) (perform env.Aid m s (s.act env m o))).1 := by
        rcases List.mem_cons.mp hi with rfl | hi
        · exact absurd hd hopen
        · exact hi
      obtain ⟨m₁, m₂, hm₁, hm₂, hlt⟩ := ih ⟨i, hrest, hopen⟩
      -- both walks do the same at this element
      have hstep : ∀ m' s', AgreeBelow len m m' → Agree s s' →
          ∃ s'', Agree (perform env.Aid m s (s.act env m o)) s'' ∧
            (walk env m' len o s').2 = (walk env m' len (Tlv.after m o) s'').2 := by
        intro m' s' hm' hs'
        have hbeacon : isBeacon m' = isBeacon m := by
          unfold isBeacon
          rw [hm' 0 hlen]
        have hact := act_of_sameOuis env hm' hbeacon h (hd.sameOuis hm') hs'
        have hnext := perform_agree env.Aid m m' hs' (act_sized s env m o)
        refine ⟨_, hnext, ?_⟩
        rw [walk_of_on ((after_le_iff hm').mpr h) (room_of_agree hm' h hs' ▸ hroom)
          (by rw [hact, ← hnext.refused]; exact hr), hact, after_of_agree hm' h]
      refine ⟨m₁, m₂, hm₁, hm₂, fun s₁ s₂ hs₁ hs₂ => ?_⟩
      obtain ⟨t₁, ht₁, hwalk₁⟩ := hstep m₁ s₁ hm₁ hs₁
      obtain ⟨t₂, ht₂, hwalk₂⟩ := hstep m₂ s₂ hm₂ hs₂
      rw [hwalk₁, hwalk₂]
      exact hlt t₁ t₂ ht₁ ht₂
    · exact hfirst o s h hroom hd

end Copied

end ExtDrv.Rt3370.Sanity
