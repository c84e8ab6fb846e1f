import ExtDrv.Rt3370.PeerAssoc

/-!
# Frames parsed from the received bytes only

For association responses, exactly when this holds; with the beacons, what it comes to for the
management frames. No output array is written behind its end.
-/

namespace ExtDrv.Rt3370.Sanity

open Memory

/-! ## Association responses -/

/-- What the outputs declare. -/
structure AssocSame (o o' : AssocOut) : Prop extends AssocAgree o o' where
  edca : SameRecord EdcaParm.bValid o.EdcaParm o'.EdcaParm

/-- **From the received bytes only**. -/
def AssocIsolated (m : Mem) (len : Nat) : Prop :=
  ∀ m₁ m₂ init₁ init₂, AgreeBelow len m m₁ → AgreeBelow len m m₂ →
    (peerAssocRspSanity m₁ len init₁).1 = (peerAssocRspSanity m₂ len init₂).1 ∧
      ((peerAssocRspSanity m₁ len init₁).1 = true →
        AssocSame (peerAssocRspSanity m₁ len init₁).2 (peerAssocRspSanity m₂ len init₂).2)

/-- The status is success, and the rates are refused, or in the message with no record of EDCA in an
element behind them. -/
structure AssocWithin (m : Mem) (len : Nat) : Prop where
  fixed : 28 ≤ len
  success : le16 m 26 = mlmeSuccess
  rates : (31 ≤ len ∧ m 30 ≠ ieSuppRates) ∨ (32 ≤ len ∧ 12 < (m 31).toNat) ∨
    (32 + (m 31).toNat ≤ len ∧ ∀ o ∈ Tlv.offsets m len (32 + (m 31).toNat), ¬ IsWmeParm (eidAt m o))

section Results

variable {m : Mem} {len : Nat} {init : AssocOut}

theorem peerAssoc_of_failed (h : le16 m 26 ≠ mlmeSuccess) :
    peerAssocRspSanity m len init = (true, assocStart m init) := if_pos h

theorem peerAssoc_of_badRates (h : le16 m 26 = mlmeSuccess)
    (hr : m 30 ≠ ieSuppRates ∨ 12 < (m 31).toNat) :
    (peerAssocRspSanity m len init).1 = false := by
  have hs : ¬ (assocStart m init).Status ≠ mlmeSuccess := not_not.mpr h
  unfold peerAssocRspSanity
  rw [if_neg hs]
  show (if _ then _ else _ : Bool × AssocOut).1 = false
  rw [if_pos hr]

theorem peerAssoc_of_rates (h : le16 m 26 = mlmeSuccess) (hid : m 30 = ieSuppRates)
    (hlen : (m 31).toNat ≤ 12) : peerAssocRspSanity m len init
      = (true, assocElements m len (assocRates m (assocFixed m (assocStart m init)))) := by
  have hs : ¬ (assocStart m init).Status ≠ mlmeSuccess := not_not.mpr h
  have hr : ¬ (m 30 ≠ ieSuppRates ∨ 12 < (m 31).toNat) := by
    rintro (hne | hlong)
    · exact hne hid
    · omega
  unfold peerAssocRspSanity
  rw [if_neg hs]
  exact if_neg hr

end Results

section Isolated

variable {m m' : Mem} {len : Nat}

theorem le16_of_agree (hm : AgreeBelow len m m') {o : Nat} (h : o + 2 ≤ len) :
    le16 m' o = le16 m o := by
  unfold le16
  rw [hm o (by omega), hm (o + 1) (by omega)]

/-- The fixed fields and the rates are of the message. -/
theorem rates_agree (hm : AgreeBelow len m m') (hlen : 32 + (m 31).toNat ≤ len)
    (init init' : AssocOut) :
    AssocAgree (assocRates m (assocFixed m (assocStart m init)))
      (assocRates m' (assocFixed m' (assocStart m' init'))) where
  addr2 := (segment_of_agree hm (by omega)).symm
  capability := (segment_of_agree hm (by omega)).symm
  status := (le16_of_agree hm (by omega)).symm
  aid := fun _ => by
    show le16 m 28 &&& 0x3fff = le16 m' 28 &&& 0x3fff
    rw [le16_of_agree hm (by omega)]
  supRates := by
    have h31 : m' 31 = m 31 := hm 31 (by omega)
    refine (OutBuf.content_fill _ _).trans (Eq.symm ((OutBuf.content_fill _ _).trans ?_))
    rw [h31]
    exact segment_of_agree hm hlen
  extRates := rfl
  ht := rfl
  addHt := rfl
  newExtChannel := rfl
  ckip := rfl

theorem assocElements_of_agree (hm : AgreeBelow len m m') (hlen : 32 ≤ len) (out : AssocOut) :
    assocElements m' len out = assocElements m len out := by
  unfold assocElements
  rw [hm 31 (by omega), Tlv.offsets_congr hm]
  refine List.foldl_ext _ _ _ fun out o ho => ?_
  rw [eidAt_of_agree hm (Tlv.after_le_of_mem ho)]

theorem isolated_of_assocWithin (h : AssocWithin m len) : AssocIsolated m len := by
  have hsuccess : ∀ m', AgreeBelow len m m' → le16 m' 26 = mlmeSuccess :=
    fun m' hm' => (le16_of_agree hm' h.fixed).trans h.success
  intro m₁ m₂ init₁ init₂ hm₁ hm₂
  by_cases hbad : (31 ≤ len ∧ m 30 ≠ ieSuppRates) ∨ (32 ≤ len ∧ 12 < (m 31).toNat)
  · have hfalse : ∀ m', AgreeBelow len m m' → ∀ init, (peerAssocRspSanity m' len init).1 = false := by
      intro m' hm' init
      refine peerAssoc_of_badRates (hsuccess m' hm') ?_
      rcases hbad with ⟨hlen, hid⟩ | ⟨hlen, hlong⟩
      · rw [hm' 30 (by omega)]
        exact Or.inl hid
      · rw [hm' 31 (by omega)]
        exact Or.inr hlong
    refine ⟨(hfalse m₁ hm₁ init₁).trans (hfalse m₂ hm₂ init₂).symm, fun htrue => ?_⟩
    rw [hfalse m₁ hm₁ init₁] at htrue
    cases htrue
  · have hrates : 32 + (m 31).toNat ≤ len ∧
        ∀ o ∈ Tlv.offsets m len (32 + (m 31).toNat), ¬ IsWmeParm (eidAt m o) := by
      rcases h.rates with hr | hr | hr
      · exact absurd (Or.inl hr) hbad
      · exact absurd (Or.inr hr) hbad
      · exact hr
    obtain ⟨hlen, hwme⟩ := hrates
    have hid : m 30 = ieSuppRates := by
      by_contra hid
      exact hbad (Or.inl ⟨by omega, hid⟩)
    have hshort : (m 31).toNat ≤ 12 := by
      by_contra hlong
      exact hbad (Or.inr ⟨by omega, Nat.not_le.mp hlong⟩)
    -- the outputs of a completion are those of the elements of the message
    have hout : ∀ m', AgreeBelow len m m' → ∀ init, peerAssocRspSanity m' len init
        = (true, assocElements m len (assocRates m' (assocFixed m' (assocStart m' init)))) := by
      intro m' hm' init
      rw [peerAssoc_of_rates (hsuccess m' hm') (by rw [hm' 30 (by omega), hid])
        (by rw [hm' 31 (by omega)]; exact hshort), assocElements_of_agree hm' (by omega)]
    have hedca : ∀ m' init,
        (assocElements m len (assocRates m' (assocFixed m' (assocStart m' init)))).EdcaParm.bValid
          = false := by
      intro m' init
      unfold assocElements
      rw [(foldl_run _ _).none hwme]
      rfl
    have hm₁₂ : AgreeBelow len m₁ m₂ := fun i hi => (hm₂ i hi).trans (hm₁ i hi).symm
    have hlen₁ : 32 + (m₁ 31).toNat ≤ len := by
      rwa [hm₁ 31 (by omega)]
    rw [hout m₁ hm₁, hout m₂ hm₂]
    refine ⟨rfl, fun _ => ⟨foldl_agree _ (rates_agree hm₁₂ hlen₁ init₁ init₂), ?_, fun hv => ?_⟩⟩
    · rw [hedca m₁ init₁, hedca m₂ init₂]
    · rw [hedca m₁ init₁] at hv
      cases hv

/-- Two outputs that differ in a length and in a flag that no element sets. -/
def assocInit (len : Nat) (bAdd : Bool) : AssocOut :=
  let buf : OutBuf := ⟨0, fun _ => 0⟩
  { Addr2 := []
    CapabilityInfo := []
    Status := 0
    Aid := 0
    SupRate := ⟨len, fun _ => 0⟩
    ExtRate := buf
    HtCapability := buf
    AddHtInfo := buf
    NewExtChannelOffset := 0
    EdcaParm := { BeaconOut.zero.EdcaParm with bAdd := bAdd }
    ExtCapInfo := 0
    CkipFlag := 0 }

/-- An accepted response without success shows the old length of the rates. -/
theorem success_of_isolated (h : AssocIsolated m len) (hm : AgreeBelow len m m') :
    le16 m' 26 = mlmeSuccess := by
  by_contra hfail
  have hsame := (h m' m' (assocInit 0 false) (assocInit 1 false) hm hm).2
  rw [peerAssoc_of_failed hfail, peerAssoc_of_failed hfail] at hsame
  have hlens := congrArg List.length (hsame rfl).supRates
  rw [content_length, content_length] at hlens
  cases hlens

/-- The received bytes, and one value for all that follow. -/
def filled (m : Mem) (len : Nat) (x : BitVec 8) : Mem := fun i => if i < len then m i else x

theorem agree_filled (m : Mem) (len : Nat) (x : BitVec 8) : AgreeBelow len m (filled m len x) :=
  fun _ hi => if_pos hi

theorem filled_of_ge {x : BitVec 8} {i : Nat} (hi : len ≤ i) : filled m len x i = x :=
  if_neg (Nat.not_lt.mpr hi)

theorem fixed_of_isolated (h : AssocIsolated m len) : 28 ≤ len := by
  by_contra hshort
  have hs := success_of_isolated h (agree_filled m len 1)
  unfold le16 mlmeSuccess at hs
  rw [filled_of_ge (show len ≤ 27 by omega)] at hs
  have hhigh := congrArg (BitVec.extractLsb' 8 8) hs
  rw [BitVec.extractLsb'_append_eq_left] at hhigh
  exact absurd hhigh (by decide)

/-- The rates of a completion with ones are good where the received part of them is. -/
theorem ones_good (hid : ¬ (31 ≤ len ∧ m 30 ≠ ieSuppRates))
    (hshort : ¬ (32 ≤ len ∧ 12 < (m 31).toNat)) :
    filled m len 1 30 = ieSuppRates ∧ (filled m len 1 31).toNat ≤ 12 := by
  constructor
  · by_cases h30 : 30 < len
    · rw [agree_filled m len 1 30 h30]
      by_contra hne
      exact hid ⟨by omega, hne⟩
    · exact filled_of_ge (by omega)
  · by_cases h31 : 31 < len
    · rw [agree_filled m len 1 31 h31]
      by_contra hlong
      exact hshort ⟨by omega, by omega⟩
    · rw [filled_of_ge (by omega)]
      decide

/-- Those of one with `0xff` are not, unless their length was received. -/
theorem ratesLen_received (h : AssocIsolated m len)
    (hones : filled m len 1 30 = ieSuppRates ∧ (filled m len 1 31).toNat ≤ 12) : 32 ≤ len := by
  by_contra hlt
  have hone := @peerAssoc_of_rates _ len (assocInit 0 false)
    (success_of_isolated h (agree_filled m len 1)) hones.1 hones.2
  have hff : (peerAssocRspSanity (filled m len 0xff) len (assocInit 0 false)).1 = false := by
    refine peerAssoc_of_badRates (success_of_isolated h (agree_filled m len 0xff)) (Or.inr ?_)
    rw [filled_of_ge (by omega)]
    decide
  have hsame := (h _ _ (assocInit 0 false) (assocInit 0 false) (agree_filled m len 1)
    (agree_filled m len 0xff)).1
  rw [hone, hff] at hsame
  cases hsame

/-- An isolated response with the header of good rates. -/
structure GoodRates (m : Mem) (len : Nat) : Prop where
  isolated : AssocIsolated m len
  received : 32 ≤ len
  id : m 30 = ieSuppRates
  short : (m 31).toNat ≤ 12

/-- Every completion is accepted, with its own rates, and shows the same. -/
theorem GoodRates.same (h : GoodRates m len) {m₁ m₂ : Mem} (init₁ init₂ : AssocOut)
    (hm₁ : AgreeBelow len m m₁) (hm₂ : AgreeBelow len m m₂) :
    AssocSame (assocElements m₁ len (assocRates m₁ (assocFixed m₁ (assocStart m₁ init₁))))
      (assocElements m₂ len (assocRates m₂ (assocFixed m₂ (assocStart m₂ init₂)))) := by
  have hout : ∀ m' init, AgreeBelow len m m' → peerAssocRspSanity m' len init
      = (true, assocElements m' len (assocRates m' (assocFixed m' (assocStart m' init)))) := by
    intro m' init hm'
    have hlen := h.received
    refine peerAssoc_of_rates (success_of_isolated h.isolated hm') ?_ ?_
    · rw [hm' 30 (by omega)]
      exact h.id
    · rw [hm' 31 (by omega)]
      exact h.short
  have hs := (h.isolated m₁ m₂ init₁ init₂ hm₁ hm₂).2
  rw [hout m₁ init₁ hm₁, hout m₂ init₂ hm₂] at hs
  exact hs rfl

/-- Zeros and ones behind what was received are different rates. -/
theorem GoodRates.within (h : GoodRates m len) : 32 + (m 31).toNat ≤ len := by
  have hlen := h.received
  by_contra hlt
  have hcontent : ∀ m' init, AgreeBelow len m m' →
      (assocElements m' len (assocRates m' (assocFixed m' (assocStart m' init)))).SupRate.content
        = segment m' 32 (m 31).toNat := by
    intro m' init hm'
    unfold assocElements
    rw [(foldl_run _ _).supRates]
    refine (OutBuf.content_fill _ _).trans ?_
    rw [hm' 31 (by omega)]
  have hs := (h.same (assocInit 0 false) (assocInit 0 false) (agree_filled m len 0)
    (agree_filled m len 1)).supRates
  rw [hcontent _ _ (agree_filled m len 0), hcontent _ _ (agree_filled m len 1)] at hs
  have hlast : (m 31).toNat - 1 < (m 31).toNat := by omega
  have hget := congrArg (fun bs => bs[(m 31).toNat - 1]?) hs
  rw [getElem?_segment _ hlast, getElem?_segment _ hlast, filled_of_ge (by omega),
    filled_of_ge (by omega)] at hget
  exact absurd hget (by decide)

/-- With WMM parameters the flag of the outputs would show what it was. -/
theorem GoodRates.no_wmeParm (h : GoodRates m len) {o : Nat}
    (ho : o ∈ Tlv.offsets m len (32 + (m 31).toNat)) : ¬ IsWmeParm (eidAt m o) := by
  intro hw
  have hself : AgreeBelow len m m := fun _ _ => rfl
  have hedca := (h.same (assocInit 0 true) (assocInit 0 false) hself hself).edca
  have hrun := fun init => foldl_run (m := m) (Tlv.offsets m len (32 + (m 31).toNat))
    (assocRates m (assocFixed m (assocStart m init)))
  have hadd := congrArg EdcaParm.bAdd (hedca.2 ((hrun _).bValid (Or.inr ⟨o, ho, hw⟩)))
  exact Bool.noConfusion ((hrun _).bAdd.symm.trans (hadd.trans (hrun _).bAdd))

theorem within_of_assocIsolated (h : AssocIsolated m len) : AssocWithin m len := by
  refine ⟨fixed_of_isolated h, success_of_isolated h fun _ _ => rfl, ?_⟩
  by_contra hrates
  obtain ⟨hid, hshort, hrest⟩ : ¬ (31 ≤ len ∧ m 30 ≠ ieSuppRates) ∧
      ¬ (32 ≤ len ∧ 12 < (m 31).toNat) ∧ ¬ (32 + (m 31).toNat ≤ len ∧
        ∀ o ∈ Tlv.offsets m len (32 + (m 31).toNat), ¬ IsWmeParm (eidAt m o)) := by
    simpa only [not_or] using hrates
  have hones := ones_good hid hshort
  have hlen := ratesLen_received h hones
  rw [agree_filled m len 1 30 (by omega), agree_filled m len 1 31 (by omega)] at hones
  have hgood : GoodRates m len := ⟨h, hlen, hones.1, hones.2⟩
  exact hrest ⟨hgood.within, fun o ho => hgood.no_wmeParm ho⟩

theorem assocIsolated_iff (m : Mem) (len : Nat) : AssocIsolated m len ↔ AssocWithin m len :=
  ⟨within_of_assocIsolated, isolated_of_assocWithin⟩

end Isolated

/-! ## What is written -/

/-- Nothing is written behind an output array. -/
structure AssocInBounds (o o' : AssocOut) : Prop where
  supRates : OutBuf.Within 12 o.SupRate o'.SupRate
  extRates : OutBuf.Within 12 o.ExtRate o'.ExtRate
  ht : OutBuf.Within 26 o.HtCapability o'.HtCapability
  addHt : OutBuf.Within 22 o.AddHtInfo o'.AddHtInfo

theorem assocElement_inBounds {init o : AssocOut} (e : EidStruct) (h : AssocInBounds init o) :
    AssocInBounds init (assocElement o e) := by
  unfold assocElement
  split_ifs with _ hext _ hht _ haddHt
  · exact { h with extRates := h.extRates.fill hext }
  · exact h
  · exact { h with ht := h.ht.fill (Nat.le_of_eq (length_take_of_le hht)) }
  · exact h
  · exact { h with addHt := h.addHt.fill (Nat.le_of_eq (length_take_of_le haddHt)) }
  · exact h
  all_goals exact { h with }

theorem foldl_inBounds {m : Mem} {init : AssocOut} (os : List Nat) {o : AssocOut}
    (h : AssocInBounds init o) :
    AssocInBounds init (os.foldl (fun out i => assocElement out (eidAt m i)) o) := by
  induction os generalizing o with
  | nil => exact h
  | cons i os ih => exact ih (assocElement_inBounds (eidAt m i) h)

/-- **In bounds**, accepted or not. -/
theorem assoc_inBounds (m : Mem) (len : Nat) (init : AssocOut) :
    AssocInBounds init (peerAssocRspSanity m len init).2 := by
  have hstart : AssocInBounds init (assocFixed m (assocStart m init)) :=
    ⟨fun _ _ => rfl, fun _ _ => rfl, fun _ _ => rfl, fun _ _ => rfl⟩
  unfold peerAssocRspSanity
  dsimp only
  split
  · exact { hstart with }
  · split
    · exact hstart
    · rename_i hrates
      have hlen : (m 31).toNat ≤ 12 := Nat.not_lt.mp fun hlong => hrates (Or.inr hlong)
      refine foldl_inBounds _ { hstart with supRates := hstart.supRates.fill ?_ }
      rwa [length_segment]

/-! ## Management frames -/

/-- **Exactly when** a beacon or probe response, and an association response, is parsed from the
received bytes only; in bounds it is always. -/
theorem receivedOnly_iff (env : Env) (m : Mem) (len : Nat) :
    (BeaconIsolated env m len ↔ BeaconRefused env m len ∨ WithinMessage env m len) ∧
      (AssocIsolated m len ↔ AssocWithin m len) ∧
      (∀ init, InBounds init (peerBeaconAndProbeRspSanity env m len init).2) ∧
      ∀ init, AssocInBounds init (peerAssocRspSanity m len init).2 :=
  ⟨beaconIsolated_iff env m len, assocIsolated_iff m len, beacon_inBounds env m len,
    assoc_inBounds m len⟩

/-- An association response that ends behind its fixed fields. -/
def shortResponse : Mem := fun i => if i = 0 then 0x10 else 0

/-- It is refused or accepted by the bytes behind it. -/
theorem receivedOnly_broken : ¬ ∀ (env : Env) (m : Mem) (len : Nat),
    BeaconIsolated env m len ∧ AssocIsolated m len ∧
      (∀ init, InBounds init (peerBeaconAndProbeRspSanity env m len init).2) ∧
      ∀ init, AssocInBounds init (peerAssocRspSanity m len init).2 := by
  intro h
  have hsame := ((h ⟨true, 1, [], 1, 1⟩ shortResponse 30).2.1 (filled shortResponse 30 0)
    (filled shortResponse 30 1) (assocInit 0 false) (assocInit 0 false)
    (agree_filled _ _ _) (agree_filled _ _ _)).1
  have hzeros : (peerAssocRspSanity (filled shortResponse 30 0) 30 (assocInit 0 false)).1
      = false := peerAssoc_of_badRates rfl (Or.inl (by decide))
  have hones : (peerAssocRspSanity (filled shortResponse 30 1) 30 (assocInit 0 false)).1
      = true := by
    rw [peerAssoc_of_rates rfl rfl (by decide)]
  rw [hzeros, hones] at hsame
  cases hsame

end ExtDrv.Rt3370.Sanity
