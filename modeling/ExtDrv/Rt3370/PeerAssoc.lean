import ExtDrv.Rt3370.BeaconIsolated

/-!
# The sanity check of association responses

`PeerAssocRspSanity` takes the supported rates from their fixed place without a look at `MsgLen`,
and walks over the elements behind them. A response with another status than success is accepted
before the rates are set.
-/

namespace ExtDrv.Rt3370.Sanity

open Memory

structure AssocOut where
  Addr2 : Octets
  CapabilityInfo : Octets
  Status : BitVec 16
  Aid : BitVec 16
  SupRate : OutBuf
  ExtRate : OutBuf
  HtCapability : OutBuf
  AddHtInfo : OutBuf
  NewExtChannelOffset : BitVec 8
  EdcaParm : EdcaParm
  ExtCapInfo : BitVec 8
  CkipFlag : BitVec 8

def le16 (m : Mem) (o : Nat) : BitVec 16 := m (o + 1) ++ m o

def mlmeSuccess : BitVec 16 := 0

/-- The outputs with a default, and those from the fixed fields. -/
def assocStart (m : Mem) (init : AssocOut) : AssocOut :=
  { init with
    Addr2 := segment m 10 6
    CapabilityInfo := segment m 24 2
    Status := le16 m 26
    ExtRate := { init.ExtRate with len := 0 }
    HtCapability := { init.HtCapability with len := 0 }
    AddHtInfo := { init.AddHtInfo with len := 0 }
    NewExtChannelOffset := 0xff
    EdcaParm := { init.EdcaParm with bValid := false }
    CkipFlag := 0 }

/-- The WME parameter element, with its fixed length. -/
def IsWmeParm (e : EidStruct) : Prop :=
  e.Eid = ieVendorSpecific ∧ e.Octet.take 6 = wmeParmElem ∧ e.Len = 24

instance (e : EidStruct) : Decidable (IsWmeParm e) := by
  unfold IsWmeParm
  infer_instance

def assocElement (out : AssocOut) (e : EidStruct) : AssocOut :=
  if e.Eid = ieExtSuppRates then
    if e.Len ≤ 12 then { out with ExtRate := out.ExtRate.fill e.Octet } else out
  else if e.Eid = ieHtCap ∨ e.Eid = ieHtCap2 then
    if 26 ≤ e.Len then { out with HtCapability := out.HtCapability.fill (e.Octet.take 26) }
    else out
  else if e.Eid = ieAddHt ∨ e.Eid = ieAddHt2 then
    if 22 ≤ e.Len then { out with AddHtInfo := out.AddHtInfo.fill (e.Octet.take 22) } else out
  else if e.Eid = ieSecondaryChOffset then
    if e.Len = 1 then { out with NewExtChannelOffset := e.octet 0 } else out
  else if IsWmeParm e then { out with EdcaParm := out.EdcaParm.wmeParm e }
  else if e.Eid = ieExtCapability then
    if 1 ≤ e.Len then { out with ExtCapInfo := e.octet 0 } else out
  else out

def assocElements (m : Mem) (len : Nat) (out : AssocOut) : AssocOut :=
  (Tlv.offsets m len (32 + (m 31).toNat)).foldl (fun out o => assocElement out (eidAt m o)) out

/-- The outputs that come with the supported rates. -/
def assocFixed (m : Mem) (out : AssocOut) : AssocOut :=
  { out with
    Aid := le16 m 28 &&& 0x3fff
    SupRate := { out.SupRate with len := (m 31).toNat } }

def assocRates (m : Mem) (out : AssocOut) : AssocOut :=
  { out with SupRate := out.SupRate.fill (segment m 32 (m 31).toNat) }

def peerAssocRspSanity (m : Mem) (len : Nat) (init : AssocOut) : Bool × AssocOut :=
  let out := assocStart m init
  if out.Status ≠ mlmeSuccess then (true, out)
  else
    let out := assocFixed m out
    if m 30 ≠ ieSuppRates ∨ 12 < (m 31).toNat then (false, out)
    else (true, assocElements m len (assocRates m out))

/-! ## One element -/

/-- What the outputs declare, but for the record of EDCA. -/
structure AssocAgree (o o' : AssocOut) : Prop where
  addr2 : o.Addr2 = o'.Addr2
  capability : o.CapabilityInfo = o'.CapabilityInfo
  status : o.Status = o'.Status
  aid : o.Status = mlmeSuccess → o.Aid = o'.Aid
  supRates : o.SupRate.content = o'.SupRate.content
  extRates : o.ExtRate.content = o'.ExtRate.content
  ht : o.HtCapability.content = o'.HtCapability.content
  addHt : o.AddHtInfo.content = o'.AddHtInfo.content
  newExtChannel : o.NewExtChannelOffset = o'.NewExtChannelOffset
  ckip : o.CkipFlag = o'.CkipFlag

/-- **One element** leads two outputs to the same. -/
theorem assocElement_agree {o o' : AssocOut} (h : AssocAgree o o') (e : EidStruct) :
    AssocAgree (assocElement o e) (assocElement o' e) := by
  have hfill : ∀ (b b' : OutBuf) (bs : Octets), (b.fill bs).content = (b'.fill bs).content :=
    fun b b' bs => (b.content_fill bs).trans (b'.content_fill bs).symm
  unfold assocElement
  split_ifs
  · exact { h with extRates := hfill _ _ _ }
  · exact h
  · exact { h with ht := hfill _ _ _ }
  · exact h
  · exact { h with addHt := hfill _ _ _ }
  · exact h
  · exact { h with newExtChannel := rfl }
  · exact h
  · exact { h with }
  · exact { h with }
  · exact h
  · exact h

/-- What an element makes of the record of EDCA, and the rates it leaves. -/
structure AssocStep (e : EidStruct) (o o' : AssocOut) : Prop where
  supRates : o'.SupRate = o.SupRate
  bAdd : o'.EdcaParm.bAdd = o.EdcaParm.bAdd
  bValid : o.EdcaParm.bValid = true ∨ IsWmeParm e → o'.EdcaParm.bValid = true
  none : ¬ IsWmeParm e → o'.EdcaParm = o.EdcaParm

theorem assocElement_step (o : AssocOut) (e : EidStruct) : AssocStep e o (assocElement o e) := by
  by_cases hw : IsWmeParm e
  · have hact : assocElement o e = { o with EdcaParm := o.EdcaParm.wmeParm e } := by
      unfold assocElement
      rw [hw.1, if_neg (by decide), if_neg (by decide), if_neg (by decide), if_neg (by decide),
        if_pos hw]
    rw [hact]
    exact ⟨rfl, rfl, fun _ => rfl, fun hno => absurd hw hno⟩
  · have hsame : ∀ {o' : AssocOut}, o'.SupRate = o.SupRate → o'.EdcaParm = o.EdcaParm →
        AssocStep e o o' := by
      intro o' hs he
      exact ⟨hs, by rw [he], fun h => he ▸ h.resolve_right hw, fun _ => he⟩
    unfold assocElement
    rw [if_neg hw]
    split_ifs <;> exact hsame rfl rfl

/-! ## The elements -/

section Elements

variable {m : Mem}

theorem foldl_agree (os : List Nat) {o o' : AssocOut} (h : AssocAgree o o') :
    AssocAgree (os.foldl (fun out i => assocElement out (eidAt m i)) o)
      (os.foldl (fun out i => assocElement out (eidAt m i)) o') := by
  induction os generalizing o o' with
  | nil => exact h
  | cons i os ih => exact ih (assocElement_agree h (eidAt m i))

/-- The elements, of which none is the WME parameter element, or some are. -/
structure AssocRun (m : Mem) (os : List Nat) (o o' : AssocOut) : Prop where
  supRates : o'.SupRate = o.SupRate
  bAdd : o'.EdcaParm.bAdd = o.EdcaParm.bAdd
  bValid : o.EdcaParm.bValid = true ∨ (∃ i ∈ os, IsWmeParm (eidAt m i)) →
    o'.EdcaParm.bValid = true
  none : (∀ i ∈ os, ¬ IsWmeParm (eidAt m i)) → o'.EdcaParm = o.EdcaParm

theorem foldl_run (os : List Nat) (o : AssocOut) :
    AssocRun m os o (os.foldl (fun out i => assocElement out (eidAt m i)) o) := by
  induction os generalizing o with
  | nil =>
    refine ⟨rfl, rfl, fun h => ?_, fun _ => rfl⟩
    rcases h with h | ⟨i, hi, -⟩
    · exact h
    · cases hi
  | cons i os ih =>
    have hstep := assocElement_step o (eidAt m i)
    have hrun := ih (assocElement o (eidAt m i))
    refine ⟨hrun.supRates.trans hstep.supRates, hrun.bAdd.trans hstep.bAdd, fun h => hrun.bValid ?_,
      fun hno => ?_⟩
    · rcases h with h | ⟨j, hj, hw⟩
      · exact Or.inl (hstep.bValid (Or.inl h))
      · rcases List.mem_cons.mp hj with rfl | hj
        · exact Or.inl (hstep.bValid (Or.inr hw))
        · exact Or.inr ⟨j, hj, hw⟩
    · exact (hrun.none fun j hj => hno j (List.mem_cons_of_mem i hj)).trans
        (hstep.none (hno i List.mem_cons_self))

end Elements

end ExtDrv.Rt3370.Sanity
