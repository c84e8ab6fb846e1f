import ExtDrv.Rt3370.Dls

/-!
# The two tables of direct links

A link in the MAC table belongs to a valid DLS entry, or a queued message is going to take it away.
What breaks this is a step of one of a few kinds. The changes a handler is made of keep it.
-/

namespace ExtDrv.Rt3370.Dls

open Mac Function

/-! ## What is wanted -/

/-- The address of the direct link at a place of the MAC table. -/
def linked (t : MacTable) (w : Wcid) : Option (Bytes 6) :=
  if (t.Content w).EntryType = .dls then some (t.Content w).Addr else none

/-- `MacTabMatchWCID` designates a direct link with the entry's address. -/
def Held (s : State) (i : DlsIdx) : Prop :=
  ∃ w : Wcid, w.val = (s.DLSEntry i).MacTabMatchWCID ∧
    linked s.MacTab w = some (s.DLSEntry i).MacAddr

structure Agree (s : State) : Prop where
  finished : ∀ i, (s.DLSEntry i).Valid = true → (s.DLSEntry i).Status = dlsFinish → Held s i
  noOrphan : ∀ w a, linked s.MacTab w = some a →
    ∃ i, (s.DLSEntry i).Valid = true ∧ (s.DLSEntry i).MacAddr = a

/-- The station is running, and once the messages are handled the tables agree. -/
def Sound (s : Option State) : Prop := ∃ s', s = some s' ∧ (s'.queue = [] → Agree s')

/-! ## Steps that go wrong -/

/-- A tear-down of the link to `a` is queued: the message's entry has this address now. -/
def Dying (s : State) (a : Bytes 6) : Prop :=
  ∃ i reason, DlsMsg.tearDown i reason ∈ s.queue ∧ (s.DLSEntry i).MacAddr = a

def NoLink (s : State) (a : Bytes 6) : Prop := ∀ w, linked s.MacTab w ≠ some a

/-- A queued tear-down has nothing to do for `a`. -/
structure Gone (s : State) (a : Bytes 6) : Prop where
  noLink : NoLink s a
  unfinished : ∀ j, (s.DLSEntry j).Valid = true → (s.DLSEntry j).Status = dlsFinish →
    (s.DLSEntry j).MacAddr ≠ a

/-- The entry can be finished: it has its link, and no tear-down is to come that takes the link
and leaves the entry. -/
structure Settled (s : State) (i : DlsIdx) : Prop where
  held : Held s i ∨ (1 ≤ i.val ∧ Dying s (s.DLSEntry i).MacAddr)
  stays : i.val < 1 → ¬ Dying s (s.DLSEntry i).MacAddr

/-- The entry may be taken for another link. -/
def Free (s : State) (i : DlsIdx) : Prop :=
  Dying s (s.DLSEntry i).MacAddr → Gone s (s.DLSEntry i).MacAddr

/-- The message gets into the queue, or need not. -/
def Posted (s : State) (room : Nat) (a : Bytes 6) : Prop :=
  s.queue.length < room ∨ Dying s a ∨ NoLink s a

def CarefulOid (s : State) (ui : DlsUi) (room : Nat) : Option (DlsIdx × OidCase) → Prop
  | some (i, .tearDown) => Posted s room (s.DLSEntry i).MacAddr
  | some (i, .setUp) => ui.Status ≠ dlsFinish ∧ Free s i ∧
      ∀ j, (s.DLSEntry j).Valid = true → (s.DLSEntry j).MacAddr ≠ ui.MacAddr
  | some (_, .updateMac) => False
  | _ => True

structure CarefulReq (cfg : Config) (s : State) (r : PeerReq) : Prop where
  found : ∀ i, findEntry s r.SA = some i → cfg.wpa = false → Settled s i
  taken : ∀ i, findEntry s r.SA = none → freeEntry s = some i → Free s i

structure CarefulRsp (cfg : Config) (s : State) (r : PeerRsp) (keySent : DlsIdx → Bool)
    (room : Nat) (i : DlsIdx) : Prop where
  finish : r.StatusCode = mlmeSuccess → cfg.wpa = false → i.val < 1 → ¬ Dying s r.SA
  noKey : r.StatusCode = mlmeSuccess → cfg.wpa = true → keySent i = false →
    s.queue.length < room ∨ Dying s r.SA
  failure : r.StatusCode ≠ mlmeSuccess → Dying s r.SA ∨ NoLink s r.SA

/-- The link's life-time ends with this second. -/
def expires (e : DlsEntry) : Bool := countsDown e && decide (e.CountDownTimer - 1 = 0)

/-- The step is of none of the kinds that go wrong. -/
def Careful (cfg : Config) : Option State → Event → Prop
  | some s, .setDls ui room =>
      cfg.bDLSCapable && cfg.infraOn → CarefulOid s ui room (oidEntry s ui)
  | some s, .peerReq r granted =>
      granted && cfg.infraOn && cfg.bWmmCapable && cfg.bDLSCapable → CarefulReq cfg s r
  | some s, .peerRsp r keySent room => cfg.bDLSCapable && cfg.infraOn →
      ∀ i, entryOf s r.SA i → CarefulRsp cfg s r keySent room i
  | some s, .handle granted => ∀ i reason rest, s.queue = .tearDown i reason :: rest →
      granted = true ∨ Dying { s with queue := rest } (s.DLSEntry i).MacAddr ∨
        Gone s (s.DLSEntry i).MacAddr
  | some s, .timeOut i _ => (s.DLSEntry i).Timer = true → cfg.adapterByte = false
  | some s, .second room => cfg.bDLSCapable && cfg.infraOn →
      s.queue.length + (List.finRange maxNumOfDlsEntry).countP (fun i => expires (s.DLSEntry i))
        ≤ room
  | _, _ => True

/-! ## The MAC table, as far as direct links go -/

section

variable {t t' : MacTable} {w : Wcid} {pAddr : Bytes 6}

theorem linked_some {a : Bytes 6} (h : linked t w = some a) :
    (t.Content w).EntryType = .dls ∧ (t.Content w).Addr = a := by
  unfold linked at h
  by_cases hd : (t.Content w).EntryType = .dls
  · rw [if_pos hd] at h
    exact ⟨hd, Option.some.inj h⟩
  · rw [if_neg hd] at h
    cases h

theorem linked_of {a : Bytes 6} (hd : (t.Content w).EntryType = .dls) (ha : (t.Content w).Addr = a) :
    linked t w = some a := by
  rw [linked, if_pos hd, ha]

theorem used_of_linked {a : Bytes 6} (h : linked t w = some a) : w ∈ t.used := by
  rw [mem_used, (linked_some h).1]
  nofun

/-- The walk finds a link to the address whenever there is one. -/
theorem dlsLookup_spec (hk : t.links.Keyed t.key) (pAddr : Bytes 6) :
    ∃ r, dlsEntryTableLookup t pAddr = some r ∧ (∀ w, r = some w → linked t w = some pAddr) ∧
      (r = none → ∀ w, linked t w ≠ some pAddr) := by
  obtain ⟨l, hl, hmem⟩ := hk (macAddrHashIndex pAddr)
  have hlen : l.length ≤ maxLenOfMacTable := hl.length_le.trans_eq (Fintype.card_fin _)
  refine ⟨_, Chain.search_fst hl hlen none, fun w hw => ?_, fun hnone w hw => ?_⟩
  · have hfound := List.find?_some hw
    rw [decide_eq_true_iff] at hfound
    exact linked_of hfound.1 hfound.2
  · have haddr := (linked_some hw).2
    have hin : w ∈ l := (hmem w).mpr (haddr ▸ key_of_used (used_of_linked hw))
    have hneg := List.find?_eq_none.mp hnone w hin
    exact hneg (decide_eq_true (linked_some hw))

theorem dlsInsert_spec (pAddr : Bytes 6) (h : Good t) (hsize : t.Size < maxLenOfMacTable)
    (hv : t.vacancy true = some w) (i : DlsIdx) :
    ∃ t', macTableInsertEntry t true pAddr (i + minNetDeviceForDls) = some t' ∧ Good t' ∧
      t'.Content = update t.Content w ⟨pAddr, w, .dls⟩ := by
  obtain ⟨t', ht', hgood⟩ := h.insert true pAddr (i + minNetDeviceForDls)
  refine ⟨t', ht', hgood, ?_⟩
  have hdls : minNetDeviceForDls ≤ i + minNetDeviceForDls := Nat.le_add_left ..
  simp only [macTableInsertEntry, if_neg (Nat.not_le.mpr hsize), hv] at ht'
  obtain ⟨links, -, rfl⟩ := Option.map_eq_some_iff.mp ht'
  simp only [MacTable.fill, if_pos hdls]

theorem not_used_of_vacancy (hv : t.vacancy true = some w) : w ∉ t.used := by
  have hfound := List.find?_some hv
  simp only [MacTable.isEntryNone, Bool.and_eq_true, decide_eq_true_iff] at hfound
  rw [mem_used, not_not]
  exact hfound.2

theorem content_of_delete (hd : (t.Content w).EntryType ≠ .none)
    (h : macTableDeleteEntry t w (t.Content w).Addr = some t') :
    t'.Content = update t.Content w { t.Content w with EntryType := .none } := by
  rw [macTableDeleteEntry, dif_pos w.isLt] at h
  dsimp only [Fin.eta] at h
  rw [if_pos ⟨hd, rfl⟩] at h
  obtain ⟨links, -, rfl⟩ := Option.map_eq_some_iff.mp h
  rfl

/-- What the deletion of a link leaves. -/
structure Unlinked (t t' : MacTable) (wcid : Nat) (pAddr : Bytes 6) : Prop where
  good : Good t'
  used : t'.used ⊆ t.used
  links : ∀ w, linked t' w
    = if w.val = wcid ∧ 0 < wcid ∧ linked t w = some pAddr then none else linked t w
  /-- An entry that is no link is not one of the removed. -/
  plain : ∀ w ∈ t'.used, linked t' w = none → linked t w = none

theorem Unlinked.refl (h : Good t) {wcid : Nat}
    (hnot : ∀ w : Wcid, w.val = wcid → 0 < wcid → linked t w ≠ some pAddr) :
    Unlinked t t wcid pAddr where
  good := h
  used := subset_rfl
  links := fun w => (if_neg fun hw => hnot w hw.1 hw.2.1 hw.2.2).symm
  plain := fun _ _ hw => hw

/-- A link is removed where it is, and to the address that is given. -/
theorem dlsDelete_spec (h : Good t) (wcid : Nat) (pAddr : Bytes 6) :
    ∃ t', macTableDeleteDlsEntry t wcid pAddr = some t' ∧ Unlinked t t' wcid pAddr := by
  rw [macTableDeleteDlsEntry]
  by_cases hvalid : 0 < wcid ∧ wcid < maxLenOfMacTable
  · obtain ⟨w, rfl⟩ : ∃ w : Wcid, w.val = wcid := ⟨⟨wcid, hvalid.2⟩, rfl⟩
    rw [if_pos hvalid]
    by_cases hin : (t.Content w).EntryType ≠ .none ∧ (t.Content w).Addr = pAddr
    · obtain ⟨hused, rfl⟩ := hin
      obtain ⟨t', hdelete, hdeleted⟩ := h.delete (mem_used.mpr hused)
      have hcontent := content_of_delete hused hdelete
      have hself : linked t' w = none := by
        rw [linked, hcontent, update_self, if_neg EntryType.noConfusion]
      have hother (v : Wcid) (hv : v ≠ w) : linked t' v = linked t v := by
        rw [linked, linked, hcontent, update_of_ne hv]
      refine ⟨t', hdelete, hdeleted.good, ?_, fun v => ?_, fun v hv hnone => ?_⟩
      · rw [hdeleted.used]
        exact Finset.erase_subset ..
      · by_cases hv : v = w
        · subst hv
          rw [hself]
          by_cases hd : (t.Content v).EntryType = .dls
          · rw [if_pos ⟨rfl, hvalid.1, linked_of hd rfl⟩]
          · rw [linked, if_neg hd, ite_self]
        · rw [if_neg fun hw => hv (Fin.ext hw.1)]
          exact hother v hv
      · rw [hdeleted.used, Finset.mem_erase] at hv
        rw [← hother v hv.1]
        exact hnone
    · refine ⟨t, ?_, Unlinked.refl h fun v hv _ hlink => hin ?_⟩
      · rw [macTableDeleteEntry, dif_pos w.isLt]
        exact if_neg hin
      · obtain rfl := Fin.ext hv
        refine ⟨?_, (linked_some hlink).2⟩
        rw [(linked_some hlink).1]
        decide
  · rw [if_neg hvalid]
    exact ⟨t, rfl, Unlinked.refl h fun v hv hpos _ => hvalid ⟨hpos, hv ▸ v.isLt⟩⟩

/-- Beside the direct links there is only the entry of the access point. -/
structure Placed (t : MacTable) : Prop where
  good : Good t
  ap : ∀ w ∈ t.used, linked t w = none → w = bssidWcid
  place : ∀ w a, linked t w = some a → 0 < w.val

theorem Unlinked.placed {wcid : Nat} (h : Unlinked t t' wcid pAddr) (hp : Placed t) : Placed t' where
  good := h.good
  ap := fun w hw hnone => hp.ap w (h.used hw) (h.plain w hw hnone)
  place := by
    intro w a hw
    rw [h.links] at hw
    split at hw
    · cases hw
    · exact hp.place w a hw

/-- Where the links are named by the DLS entries there is room for one more. -/
theorem Placed.room (hp : Placed t) (f : DlsIdx → Nat)
    (howned : ∀ w a, linked t w = some a → ∃ i, f i = w.val) :
    t.Size < maxLenOfMacTable ∧ ∃ w, t.vacancy true = some w := by
  let g : DlsIdx → Wcid := fun i => ⟨f i % maxLenOfMacTable, Nat.mod_lt _ (by decide)⟩
  have hsub : t.used ⊆ insert bssidWcid (Finset.univ.image g) := by
    intro w hw
    rw [Finset.mem_insert]
    cases hl : linked t w with
    | none => exact Or.inl (hp.ap w hw hl)
    | some a =>
      obtain ⟨i, hi⟩ := howned w a hl
      refine Or.inr (Finset.mem_image.mpr ⟨i, Finset.mem_univ i, Fin.ext ?_⟩)
      show f i % maxLenOfMacTable = w.val
      rw [hi, Nat.mod_eq_of_lt w.isLt]
  have hcard : t.used.card ≤ 5 := by
    have himage : (Finset.univ.image g).card ≤ 4 :=
      Finset.card_image_le.trans_eq (Fintype.card_fin _)
    have hle := (Finset.card_le_card hsub).trans (Finset.card_insert_le ..)
    omega
  refine ⟨hp.good.size ▸ Nat.lt_of_le_of_lt hcard (by decide), ?_⟩
  cases hv : t.vacancy true with
  | some w => exact ⟨w, rfl⟩
  | none =>
    exfalso
    have hall : (Finset.univ.filter fun w : Wcid => 2 ≤ w.val) ⊆ t.used := by
      intro w hw
      have hnone := List.find?_eq_none.mp hv w (List.mem_finRange w)
      rw [mem_used]
      intro hfree
      refine hnone ?_
      simp only [if_true, MacTable.isEntryNone, hfree, decide_true, Bool.and_true, decide_eq_true_iff]
      exact (Finset.mem_filter.mp hw).2
    have hmany : (Finset.univ.filter fun w : Wcid => 2 ≤ w.val).card = 30 := by decide
    have hle := Finset.card_le_card hall
    omega

end

/-! ## The invariant -/

/-- **The tables**: a link has its entry, or is going to be torn down, and a finished entry its
link. The entries `p` leaves out may be finished without one. -/
structure InvOf (p : DlsIdx → Prop) (s : State) : Prop where
  placed : Placed s.MacTab
  owned : ∀ w a, linked s.MacTab w = some a → ∃ i, (s.DLSEntry i).MacTabMatchWCID = w.val ∧
    (s.DLSEntry i).MacAddr = a ∧ ((s.DLSEntry i).Valid = true ∨ Dying s a)
  finished : ∀ i, p i → (s.DLSEntry i).Valid = true → (s.DLSEntry i).Status = dlsFinish →
    Settled s i
  unique : ∀ i j, (s.DLSEntry i).Valid = true → (s.DLSEntry j).Valid = true →
    (s.DLSEntry i).MacAddr = (s.DLSEntry j).MacAddr → i = j

def Inv : State → Prop := InvOf fun _ => True

theorem not_dying_of_empty {s : State} (hq : s.queue = []) (a : Bytes 6) : ¬ Dying s a := by
  rintro ⟨i, reason, hmem, -⟩
  rw [hq] at hmem
  cases hmem

theorem InvOf.weaken {p p' : DlsIdx → Prop} {s : State} (h : InvOf p s) (hp : ∀ i, p' i → p i) :
    InvOf p' s :=
  { h with finished := fun i hi => h.finished i (hp i hi) }

/-- With nothing queued the tables agree. -/
theorem Inv.agree {s : State} (h : Inv s) (hq : s.queue = []) : Agree s where
  finished := fun i hv hf =>
    (h.finished i trivial hv hf).held.resolve_right fun hd => not_dying_of_empty hq _ hd.2
  noOrphan := fun w a hw => by
    obtain ⟨i, -, ha, hv⟩ := h.owned w a hw
    exact ⟨i, hv.resolve_right (not_dying_of_empty hq a), ha⟩

theorem Start.inv {s : State} (h : Start s) : Inv s := by
  have hnone (w : Wcid) (a : Bytes 6) : linked s.MacTab w ≠ some a := by
    intro hw
    have hclient := (h.ap w (used_of_linked hw)).2
    rw [(linked_some hw).1] at hclient
    cases hclient
  refine ⟨⟨h.good, fun w hw _ => (h.ap w hw).1, fun w a hw => (hnone w a hw).elim⟩,
    fun w a hw => (hnone w a hw).elim, fun i _ hv => ?_, fun i _ hv => ?_⟩
  · rw [h.invalid i] at hv
    cases hv
  · rw [h.invalid i] at hv
    cases hv

/-! ## One change at a time -/

section

variable {p p' : DlsIdx → Prop} {s s' : State} {i : DlsIdx}

theorem Held.same (h : Held s i) (ht : s'.MacTab = s.MacTab)
    (he : s'.DLSEntry i = s.DLSEntry i) : Held s' i := by
  unfold Held
  rw [ht, he]
  exact h

/-- The tables are the same but for what the states of the entries are. -/
structure Similar (s s' : State) : Prop where
  MacTab : s'.MacTab = s.MacTab
  Valid : ∀ i, (s'.DLSEntry i).Valid = (s.DLSEntry i).Valid
  MacAddr : ∀ i, (s'.DLSEntry i).MacAddr = (s.DLSEntry i).MacAddr
  wcid : ∀ i, (s'.DLSEntry i).MacTabMatchWCID = (s.DLSEntry i).MacTabMatchWCID
  tearDown : ∀ i reason, DlsMsg.tearDown i reason ∈ s'.queue ↔ DlsMsg.tearDown i reason ∈ s.queue

theorem Similar.dying (h : Similar s s') (a : Bytes 6) : Dying s' a ↔ Dying s a := by
  unfold Dying
  simp only [h.tearDown, h.MacAddr]

theorem Similar.held (h : Similar s s') (i : DlsIdx) : Held s' i ↔ Held s i := by
  unfold Held
  simp only [h.MacTab, h.wcid, h.MacAddr]

theorem Similar.settled (h : Similar s s') (hs : Settled s i) : Settled s' i where
  held := by
    rw [h.held, h.dying, h.MacAddr]
    exact hs.held
  stays := by
    rw [h.dying, h.MacAddr]
    exact hs.stays

/-- **States of entries**: only who is finished matters. -/
theorem InvOf.similar (h : InvOf p s) (hsim : Similar s s')
    (hfin : ∀ i, p' i → (s.DLSEntry i).Valid = true → (s'.DLSEntry i).Status = dlsFinish →
      Settled s i) : InvOf p' s' where
  placed := hsim.MacTab ▸ h.placed
  owned := by
    intro w a hw
    rw [hsim.MacTab] at hw
    obtain ⟨i, hi, ha, hv⟩ := h.owned w a hw
    refine ⟨i, ?_, ?_, ?_⟩
    · rw [hsim.wcid, hi]
    · rw [hsim.MacAddr, ha]
    · rw [hsim.Valid, hsim.dying]
      exact hv
  finished := by
    intro i hp hv hf
    rw [hsim.Valid] at hv
    exact hsim.settled (hfin i hp hv hf)
  unique := by
    intro i j hi hj
    rw [hsim.Valid] at hi hj
    rw [hsim.MacAddr, hsim.MacAddr]
    exact h.unique i j hi hj

/-- The entry is given up. -/
structure Abandoned (i : DlsIdx) (s s' : State) : Prop where
  MacTab : s'.MacTab = s.MacTab
  invalid : (s'.DLSEntry i).Valid = false
  MacAddr : (s'.DLSEntry i).MacAddr = (s.DLSEntry i).MacAddr
  wcid : (s'.DLSEntry i).MacTabMatchWCID = (s.DLSEntry i).MacTabMatchWCID
  others : ∀ j, j ≠ i → s'.DLSEntry j = s.DLSEntry j
  queued : ∀ j reason, DlsMsg.tearDown j reason ∈ s.queue → DlsMsg.tearDown j reason ∈ s'.queue
  only : ∀ j reason, DlsMsg.tearDown j reason ∈ s'.queue →
    DlsMsg.tearDown j reason ∈ s.queue ∨ j = i

theorem Abandoned.macAddr (h : Abandoned i s s') (j : DlsIdx) :
    (s'.DLSEntry j).MacAddr = (s.DLSEntry j).MacAddr := by
  by_cases hj : j = i
  · rw [hj, h.MacAddr]
  · rw [h.others j hj]

theorem Abandoned.dying (h : Abandoned i s s') {a : Bytes 6} (hd : Dying s a) : Dying s' a := by
  obtain ⟨j, reason, hmem, ha⟩ := hd
  exact ⟨j, reason, h.queued j reason hmem, by rw [h.macAddr, ha]⟩

theorem Abandoned.of_dying (h : Abandoned i s s') {a : Bytes 6} (hd : Dying s' a) :
    Dying s a ∨ (s.DLSEntry i).MacAddr = a := by
  obtain ⟨j, reason, hmem, ha⟩ := hd
  rw [h.macAddr] at ha
  rcases h.only j reason hmem with hold | rfl
  · exact Or.inl ⟨j, reason, hold, ha⟩
  · exact Or.inr ha

/-- **Giving up**: the link is left to a message, if there is a link. -/
theorem InvOf.abandon (h : InvOf p s) (hab : Abandoned i s s')
    (hv : (s.DLSEntry i).Valid = true)
    (hmsg : Dying s' (s.DLSEntry i).MacAddr ∨ NoLink s (s.DLSEntry i).MacAddr) : InvOf p s' where
  placed := hab.MacTab ▸ h.placed
  owned := by
    intro w a hw
    rw [hab.MacTab] at hw
    obtain ⟨k, hk, ha, hvk⟩ := h.owned w a hw
    by_cases hki : k = i
    · subst hki
      refine ⟨k, by rw [hab.wcid, hk], by rw [hab.MacAddr, ha], Or.inr ?_⟩
      subst ha
      exact hmsg.resolve_right fun hno => hno w hw
    · rw [← hab.others k hki] at hk ha hvk
      exact ⟨k, hk, ha, hvk.imp_right hab.dying⟩
  finished := by
    intro j hp hvj hf
    have hji : j ≠ i := by
      rintro rfl
      rw [hab.invalid] at hvj
      cases hvj
    rw [hab.others j hji] at hvj hf
    obtain ⟨hheld, hstays⟩ := h.finished j hp hvj hf
    refine ⟨?_, ?_⟩
    · rw [hab.others j hji]
      exact hheld.imp (fun hw => hw.same hab.MacTab (hab.others j hji)) (And.imp_right hab.dying)
    · intro hj hd
      rw [hab.others j hji] at hd
      rcases hab.of_dying hd with hold | haddr
      · exact hstays hj hold
      · exact hji (h.unique j i hvj hv haddr.symm)
  unique := by
    intro j k hj hk heq
    have hne (m : DlsIdx) (hm : (s'.DLSEntry m).Valid = true) : m ≠ i := by
      rintro rfl
      rw [hab.invalid] at hm
      cases hm
    have hji := hne j hj
    have hki := hne k hk
    rw [hab.others j hji] at hj heq
    rw [hab.others k hki] at hk heq
    exact h.unique j k hj hk heq

/-- An entry that is not valid is taken for a link to `a`. -/
structure Taken (i : DlsIdx) (a : Bytes 6) (s s' : State) : Prop where
  MacTab : s'.MacTab = s.MacTab
  MacAddr : (s'.DLSEntry i).MacAddr = a
  others : ∀ j, j ≠ i → s'.DLSEntry j = s.DLSEntry j
  tearDown : ∀ i reason, DlsMsg.tearDown i reason ∈ s'.queue ↔ DlsMsg.tearDown i reason ∈ s.queue

/-- The messages that named the old address are of no use, and the others stay. -/
theorem Taken.dying {a b : Bytes 6} (h : Taken i a s s') (hfree : Free s i) (hd : Dying s b) :
    Dying s' b ∨ Gone s b := by
  obtain ⟨j, reason, hmem, rfl⟩ := hd
  by_cases hj : j = i
  · subst hj
    exact Or.inr (hfree ⟨j, reason, hmem, rfl⟩)
  · exact Or.inl ⟨j, reason, (h.tearDown j reason).mpr hmem, by rw [h.others j hj]⟩

theorem Taken.of_dying {a b : Bytes 6} (h : Taken i a s s') (hd : Dying s' b) :
    Dying s b ∨ b = a := by
  obtain ⟨j, reason, hmem, rfl⟩ := hd
  by_cases hj : j = i
  · subst hj
    exact Or.inr h.MacAddr
  · exact Or.inl ⟨j, reason, (h.tearDown j reason).mp hmem, by rw [h.others j hj]⟩

/-- **A new use** of an entry, for a station that has none -/
theorem InvOf.take {a : Bytes 6} (h : InvOf p s) (htaken : Taken i a s s')
    (hv : (s.DLSEntry i).Valid = false) (hfree : Free s i)
    (hnew : ∀ j, (s.DLSEntry j).Valid = true → (s.DLSEntry j).MacAddr ≠ a)
    (hfin : p i → (s'.DLSEntry i).Status ≠ dlsFinish) : InvOf p s' where
  placed := htaken.MacTab ▸ h.placed
  owned := by
    intro w b hw
    rw [htaken.MacTab] at hw
    have hnogone (hg : Gone s b) : False := hg.noLink w hw
    obtain ⟨k, hk, rfl, hvk⟩ := h.owned w b hw
    by_cases hki : k = i
    · subst hki
      have hd := hvk.resolve_left (by rw [hv]; nofun)
      exact (hnogone (hfree hd)).elim
    · refine ⟨k, by rw [htaken.others k hki, hk], by rw [htaken.others k hki], ?_⟩
      rw [htaken.others k hki]
      refine hvk.imp_right fun hd => ?_
      exact (htaken.dying hfree hd).resolve_right hnogone
  finished := by
    intro j hp hvj hf
    have hji : j ≠ i := by
      rintro rfl
      exact hfin hp hf
    rw [htaken.others j hji] at hvj hf
    obtain ⟨hheld, hstays⟩ := h.finished j hp hvj hf
    refine ⟨?_, ?_⟩
    · rw [htaken.others j hji]
      refine hheld.imp (fun hw => hw.same htaken.MacTab (htaken.others j hji)) ?_
      refine And.imp_right fun hd => ?_
      exact (htaken.dying hfree hd).resolve_right fun hg => hg.unfinished j hvj hf rfl
    · intro hj hd
      rw [htaken.others j hji] at hd
      rcases htaken.of_dying hd with hold | haddr
      · exact hstays hj hold
      · exact hnew j hvj haddr
  unique := by
    intro j k hj hk heq
    by_cases hji : j = i
    · by_cases hki : k = i
      · rw [hji, hki]
      · rw [hji, htaken.MacAddr, htaken.others k hki] at heq
        rw [htaken.others k hki] at hk
        exact (hnew k hk heq.symm).elim
    · rw [htaken.others j hji] at hj heq
      by_cases hki : k = i
      · rw [hki, htaken.MacAddr] at heq
        exact (hnew j hj heq).elim
      · rw [htaken.others k hki] at hk heq
        exact h.unique j k hj hk heq

/-- A link is put into the MAC table for a valid entry, or is there. -/
structure Inserted (i : DlsIdx) (s s' : State) : Prop where
  others : ∀ j, j ≠ i → s'.DLSEntry j = s.DLSEntry j
  Valid : (s'.DLSEntry i).Valid = (s.DLSEntry i).Valid
  MacAddr : (s'.DLSEntry i).MacAddr = (s.DLSEntry i).MacAddr
  Status : (s'.DLSEntry i).Status = (s.DLSEntry i).Status
  queue : s'.queue = s.queue
  held : Held s' i ∨ Dying s' (s.DLSEntry i).MacAddr

theorem dying_congr (hq : s'.queue = s.queue)
    (ha : ∀ j, (s'.DLSEntry j).MacAddr = (s.DLSEntry j).MacAddr) (a : Bytes 6) :
    Dying s' a ↔ Dying s a := by
  unfold Dying
  simp only [hq, ha]

/-- The link was there: only the rates are set. -/
theorem InvOf.insertFound {w : Wcid} (h : InvOf p s) (hv : (s.DLSEntry i).Valid = true)
    (hw : linked s.MacTab w = some (s.DLSEntry i).MacAddr) (caps : Wcid → Option PeerCaps) :
    InvOf p { s with caps := caps } ∧ Inserted i s { s with caps := caps } := by
  refine ⟨h.similar ⟨rfl, fun _ => rfl, fun _ => rfl, fun _ => rfl, fun _ _ => Iff.rfl⟩ h.finished,
    fun _ _ => rfl, rfl, rfl, rfl, rfl, ?_⟩
  obtain ⟨k, hk, ha, hvk⟩ := h.owned w _ hw
  refine hvk.imp (fun hvk => ?_) fun hd => hd
  obtain rfl := h.unique k i hvk hv ha
  exact ⟨w, hk.symm, hw⟩

/-- What an insertion at the free place `w` leaves of the two tables. -/
structure NewLink (i : DlsIdx) (w : Wcid) (s s' : State) : Prop where
  entry : s'.DLSEntry i = { s.DLSEntry i with MacTabMatchWCID := w.val }
  others : ∀ j, j ≠ i → s'.DLSEntry j = s.DLSEntry j
  linked : linked s'.MacTab w = some (s.DLSEntry i).MacAddr
  kept : ∀ v, v ≠ w → Dls.linked s'.MacTab v = Dls.linked s.MacTab v
  used : ∀ v, v ≠ w → v ∈ s'.MacTab.used → v ∈ s.MacTab.used
  queue : s'.queue = s.queue

namespace NewLink

variable {w : Wcid}

theorem macAddr (h : NewLink i w s s') (j : DlsIdx) :
    (s'.DLSEntry j).MacAddr = (s.DLSEntry j).MacAddr := by
  by_cases hj : j = i
  · rw [hj, h.entry]
  · rw [h.others j hj]

theorem valid (h : NewLink i w s s') (j : DlsIdx) :
    (s'.DLSEntry j).Valid = (s.DLSEntry j).Valid := by
  by_cases hj : j = i
  · rw [hj, h.entry]
  · rw [h.others j hj]

theorem status (h : NewLink i w s s') (j : DlsIdx) :
    (s'.DLSEntry j).Status = (s.DLSEntry j).Status := by
  by_cases hj : j = i
  · rw [hj, h.entry]
  · rw [h.others j hj]

theorem dying (h : NewLink i w s s') (a : Bytes 6) : Dying s' a ↔ Dying s a :=
  dying_congr h.queue h.macAddr a

theorem held (h : NewLink i w s s') : Held s' i :=
  ⟨w, by rw [h.entry], by rw [h.linked, h.entry]⟩

/-- The place is no station's but the access point's, and its link is none of it. -/
theorem placed (h : NewLink i w s s') (hgood : Good s'.MacTab) (hp : Placed s.MacTab)
    (hpos : 0 < w.val) : Placed s'.MacTab where
  good := hgood
  ap := by
    intro v hused hnone
    have hvw : v ≠ w := by
      rintro rfl
      rw [h.linked] at hnone
      cases hnone
    rw [h.kept v hvw] at hnone
    exact hp.ap v (h.used v hvw hused) hnone
  place := by
    intro v a hl
    by_cases hvw : v = w
    · exact hvw ▸ hpos
    · rw [h.kept v hvw] at hl
      exact hp.place v a hl

/-- The new link is the entry's, and the others are whose they were. -/
theorem owned (h : NewLink i w s s') (hinv : InvOf p s) (hv : (s.DLSEntry i).Valid = true)
    (hno : NoLink s (s.DLSEntry i).MacAddr) (v : Wcid) (a : Bytes 6)
    (hl : Dls.linked s'.MacTab v = some a) :
    ∃ k, (s'.DLSEntry k).MacTabMatchWCID = v.val ∧ (s'.DLSEntry k).MacAddr = a ∧
      ((s'.DLSEntry k).Valid = true ∨ Dying s' a) := by
  by_cases hvw : v = w
  · subst hvw
    rw [h.linked] at hl
    obtain rfl := Option.some.inj hl
    exact ⟨i, by rw [h.entry], h.macAddr i, Or.inl (by rw [h.valid, hv])⟩
  · rw [h.kept v hvw] at hl
    obtain ⟨k, hk, ha, hvk⟩ := hinv.owned v a hl
    have hki : k ≠ i := by
      rintro rfl
      subst ha
      exact hno v hl
    rw [← h.others k hki] at hk ha hvk
    exact ⟨k, hk, ha, hvk.imp_right (h.dying a).mpr⟩

/-- The entries that were settled are. -/
theorem settled (h : NewLink i w s s') (hfree : w ∉ s.MacTab.used) {j : DlsIdx}
    (hj : Settled s j) : Settled s' j := by
  obtain ⟨hheldj, hstays⟩ := hj
  constructor
  · by_cases hji : j = i
    · exact Or.inl (hji ▸ h.held)
    · rw [h.dying, h.macAddr]
      refine hheldj.imp_left ?_
      rintro ⟨v, hwv, hl⟩
      have hvw : v ≠ w := by
        rintro rfl
        exact hfree (used_of_linked hl)
      exact ⟨v, by rw [h.others j hji, hwv], by rw [h.kept v hvw, h.others j hji, hl]⟩
  · rw [h.dying, h.macAddr]
    exact hstays

end NewLink

/-- The link is new, at a place that was free. -/
theorem InvOf.insertNew {w : Wcid} {t : MacTable} (h : InvOf p s)
    (caps : Wcid → Option PeerCaps) (hv : (s.DLSEntry i).Valid = true)
    (hno : NoLink s (s.DLSEntry i).MacAddr) (hfree : w ∉ s.MacTab.used) (hpos : 0 < w.val)
    (hgood : Good t)
    (hcontent : t.Content = update s.MacTab.Content w ⟨(s.DLSEntry i).MacAddr, w, .dls⟩)
    (hs' : s' = { ({ s with MacTab := t }.setEntry i
      { s.DLSEntry i with MacTabMatchWCID := w.val }) with caps := caps }) :
    InvOf p s' ∧ Inserted i s s' := by
  have hentry : s'.DLSEntry = update s.DLSEntry i { s.DLSEntry i with MacTabMatchWCID := w.val } := by
    rw [hs']
    rfl
  have htab : s'.MacTab = t := by
    rw [hs']
    rfl
  have hnew : NewLink i w s s' := by
    constructor
    case entry => rw [hentry, update_self]
    case others =>
      intro j hj
      rw [hentry, update_of_ne hj]
    case linked => rw [htab, linked, hcontent, update_self, if_pos rfl]
    case kept =>
      intro v hvw
      rw [htab, linked, linked, hcontent, update_of_ne hvw]
    case used =>
      intro v hvw hused
      rw [mem_used] at hused ⊢
      rwa [htab, hcontent, update_of_ne hvw] at hused
    case queue =>
      rw [hs']
      rfl
  constructor
  · constructor
    case placed => exact hnew.placed (htab ▸ hgood) h.placed hpos
    case owned => exact hnew.owned h hv hno
    case finished =>
      intro j hp hvj hf
      rw [hnew.valid] at hvj
      rw [hnew.status] at hf
      exact hnew.settled hfree (h.finished j hp hvj hf)
    case unique =>
      intro j k hj hk heq
      rw [hnew.valid] at hj hk
      rw [hnew.macAddr, hnew.macAddr] at heq
      exact h.unique j k hj hk heq
  · exact
      { others := hnew.others, Valid := hnew.valid i, MacAddr := hnew.macAddr i,
        Status := hnew.status i, queue := hnew.queue, held := Or.inl hnew.held }

/-- **Insertion** for a valid entry: there is room. -/
theorem InvOf.insertPeer (h : InvOf p s) (hv : (s.DLSEntry i).Valid = true) {a : Bytes 6}
    (ha : (s.DLSEntry i).MacAddr = a) (caps : PeerCaps) :
    ∃ s', insertPeer s a i caps = some s' ∧ InvOf p s' ∧ Inserted i s s' := by
  subst ha
  obtain ⟨hsize, w, hw⟩ := h.placed.room (fun i => (s.DLSEntry i).MacTabMatchWCID) fun w a hl => by
    obtain ⟨k, hk, -⟩ := h.owned w a hl
    exact ⟨k, hk⟩
  obtain ⟨r, hlookup, hfound, hno⟩ := dlsLookup_spec h.placed.good.chains (s.DLSEntry i).MacAddr
  cases r with
  | some v =>
    refine ⟨_, ?_, h.insertFound hv (hfound v rfl) (update s.caps v (some caps))⟩
    rw [Dls.insertPeer, macTableInsertDlsEntry, if_neg (Nat.not_le.mpr hsize), hlookup]
    rfl
  | none =>
    obtain ⟨t, hinsert, hgood, hcontent⟩ :=
      dlsInsert_spec (s.DLSEntry i).MacAddr h.placed.good hsize hw i
    have haid : (t.Content w).Aid = w.val := by rw [hcontent, update_self]
    have hpos : 0 < w.val := by
      have hge := List.find?_some hw
      simp only [if_true, Bool.and_eq_true, decide_eq_true_iff] at hge
      exact Nat.lt_of_lt_of_le Nat.two_pos hge.1
    refine ⟨_, ?_, h.insertNew (update s.caps w (some caps)) hv (hno rfl) (not_used_of_vacancy hw)
      hpos hgood hcontent rfl⟩
    rw [Dls.insertPeer, macTableInsertDlsEntry, if_neg (Nat.not_le.mpr hsize), hlookup]
    dsimp only [Option.bind_some]
    rw [hw]
    dsimp only
    rw [hinsert, ← haid]
    rfl

/-- The link of an entry is taken out of the MAC table, and the entry may end with it. -/
structure Dropped (i : DlsIdx) (s s' : State) : Prop where
  links : Unlinked s.MacTab s'.MacTab (s.DLSEntry i).MacTabMatchWCID (s.DLSEntry i).MacAddr
  others : ∀ j, j ≠ i → s'.DLSEntry j = s.DLSEntry j
  MacAddr : (s'.DLSEntry i).MacAddr = (s.DLSEntry i).MacAddr
  wcid : (s'.DLSEntry i).MacTabMatchWCID = (s.DLSEntry i).MacTabMatchWCID
  queue : s'.queue = s.queue

theorem Dropped.macAddr (h : Dropped i s s') (j : DlsIdx) :
    (s'.DLSEntry j).MacAddr = (s.DLSEntry j).MacAddr := by
  by_cases hj : j = i
  · rw [hj, h.MacAddr]
  · rw [h.others j hj]

theorem Dropped.dying (h : Dropped i s s') (a : Bytes 6) : Dying s' a ↔ Dying s a :=
  dying_congr h.queue h.macAddr a

/-- A link that is left is not the entry's. -/
theorem Dropped.linked (h : Dropped i s s') (hp : Placed s.MacTab) {w : Wcid} {a : Bytes 6}
    (hl : linked s'.MacTab w = some a) : Dls.linked s.MacTab w = some a ∧
      ∀ k, (s.DLSEntry k).MacTabMatchWCID = w.val → (s.DLSEntry k).MacAddr = a → k ≠ i := by
  rw [h.links.links] at hl
  split at hl
  · cases hl
  · rename_i hnot
    refine ⟨hl, ?_⟩
    rintro k hw ha rfl
    exact hnot ⟨hw.symm, hw ▸ hp.place w a hl, ha ▸ hl⟩

/-- The links to other stations stay. -/
theorem Dropped.held (h : Dropped i s s') {j : DlsIdx}
    (hne : (s.DLSEntry j).MacAddr ≠ (s.DLSEntry i).MacAddr) (hheld : Held s j) : Held s' j := by
  have hji : j ≠ i := by
    rintro rfl
    exact hne rfl
  obtain ⟨w, hw, hl⟩ := hheld
  refine ⟨w, by rw [h.others j hji, hw], ?_⟩
  rw [h.others j hji, h.links.links, if_neg, hl]
  rintro ⟨-, -, hother⟩
  rw [hl] at hother
  exact hne (Option.some.inj hother)

theorem Dropped.settled (h : Dropped i s s') {j : DlsIdx}
    (hne : (s.DLSEntry j).MacAddr ≠ (s.DLSEntry i).MacAddr) (hs : Settled s j) : Settled s' j where
  held := by
    rw [h.macAddr, h.dying]
    exact hs.held.imp_left (h.held hne)
  stays := by
    rw [h.macAddr, h.dying]
    exact hs.stays

/-- **The end of a valid entry** and of its link -/
theorem InvOf.drop (h : InvOf p s) (hdrop : Dropped i s s') (hv : (s.DLSEntry i).Valid = true)
    (hinvalid : (s'.DLSEntry i).Valid = false) : InvOf p s' where
  placed := hdrop.links.placed h.placed
  owned := by
    intro w a hl
    obtain ⟨hold, hnot⟩ := hdrop.linked h.placed hl
    obtain ⟨k, hk, ha, hvk⟩ := h.owned w a hold
    have hki := hnot k hk ha
    rw [← hdrop.others k hki] at hk ha hvk
    exact ⟨k, hk, ha, hvk.imp_right (hdrop.dying a).mpr⟩
  finished := by
    intro j hp hvj hf
    have hji : j ≠ i := by
      rintro rfl
      rw [hinvalid] at hvj
      cases hvj
    rw [hdrop.others j hji] at hvj hf
    exact hdrop.settled (fun ha => hji (h.unique j i hvj hv ha)) (h.finished j hp hvj hf)
  unique := by
    intro j k hj hk heq
    have hne (m : DlsIdx) (hm : (s'.DLSEntry m).Valid = true) : m ≠ i := by
      rintro rfl
      rw [hinvalid] at hm
      cases hm
    have hji := hne j hj
    have hki := hne k hk
    rw [hdrop.others j hji] at hj heq
    rw [hdrop.others k hki] at hk heq
    exact h.unique j k hj hk heq

theorem deleteMac_dropped (hp : Placed s.MacTab) (i : DlsIdx) :
    ∃ s', s.deleteMac i = some s' ∧ Dropped i s s' ∧ s'.DLSEntry = s.DLSEntry := by
  obtain ⟨t, hdelete, hlinks⟩ :=
    dlsDelete_spec hp.good (s.DLSEntry i).MacTabMatchWCID (s.DLSEntry i).MacAddr
  refine ⟨{ s with MacTab := t }, ?_, ⟨hlinks, fun _ _ => rfl, rfl, rfl, rfl⟩, rfl⟩
  rw [State.deleteMac, hdelete]
  rfl

theorem dropEntry_dropped (hp : Placed s.MacTab) (i : DlsIdx) :
    ∃ s', dropEntry s i = some s' ∧ Dropped i s s' ∧ (s'.DLSEntry i).Valid = false := by
  obtain ⟨s', hs', hdrop, hentry⟩ := deleteMac_dropped (i := i)
    (s := s.setEntry i { s.DLSEntry i with Status := dlsNone, Valid := false, Timer := false }) hp
  have hself : s'.DLSEntry i
      = { s.DLSEntry i with Status := dlsNone, Valid := false, Timer := false } := by
    rw [hentry, setEntry_self]
  have hlinks := hdrop.links
  rw [setEntry_self] at hlinks
  refine ⟨s', hs', ⟨hlinks, fun j hj => ?_, by rw [hself], by rw [hself], hdrop.queue⟩,
    by rw [hself]⟩
  rw [hentry, setEntry_of_ne hj]

end

end ExtDrv.Rt3370.Dls
