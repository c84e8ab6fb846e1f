import ExtDrv.Rt3370.PeerBeacon

/-!
# Two walks over one message

Two walks over messages that agree in the received bytes, with any bytes behind them and any
output structures, do the same as long as the comparisons with an OUI are
decided by the received bytes. What they declare stays equal but for the two records that
are apart: that of the TIM, which follows a byte of its element, and that of EDCA, of which an
element leaves a part.
-/

namespace ExtDrv.Rt3370.Sanity

open Memory

/-! ## Output arrays -/

namespace OutBuf

theorem content_fill (b : OutBuf) (bs : Octets) : (b.fill bs).content = bs :=
  segment_store_self b.bytes 0 bs

theorem content_append (b : OutBuf) (bs : Octets) :
    (b.append bs).content = b.content ++ bs :=
  segment_store_append b.bytes b.len bs

theorem bytes_write (b : OutBuf) {bs : Octets} {n : Nat} (h : bs.length = n) :
    segment (b.write bs).bytes 0 n = bs := by
  subst h
  exact segment_store_self b.bytes 0 bs

/-- Nothing is written from `cap` on. -/
def Within (cap : Nat) (b b' : OutBuf) : Prop := ∀ a, cap ≤ a → b'.bytes a = b.bytes a

theorem Within.rfl {cap : Nat} {b : OutBuf} : Within cap b b := fun _ _ => Eq.refl _

theorem store_of_ge {m : Mem} {o a : Nat} {bs : Octets} (h : o + bs.length ≤ a) :
    store m o bs a = m a := by
  unfold store
  rw [if_neg (by omega)]

theorem Within.fill {cap : Nat} {b b' : OutBuf} {bs : Octets} (h : Within cap b b')
    (hbs : bs.length ≤ cap) : Within cap b (b'.fill bs) :=
  fun a ha => (store_of_ge (by omega)).trans (h a ha)

theorem Within.write {cap : Nat} {b b' : OutBuf} {bs : Octets} (h : Within cap b b')
    (hbs : bs.length ≤ cap) : Within cap b (b'.write bs) :=
  fun a ha => (store_of_ge (by omega)).trans (h a ha)

theorem Within.append {cap : Nat} {b b' : OutBuf} {bs : Octets} (h : Within cap b b')
    (hbs : b'.len + bs.length ≤ cap) : Within cap b (b'.append bs) :=
  fun a ha => (store_of_ge (by omega)).trans (h a ha)

end OutBuf

/-! ## Acts of an element -/

section Acts

variable {env : Env} {isBeacon ssidSeen htSeen : Bool} {o : Nat} {e : EidStruct} {c : Ouis}

/-- The kinds of which a bad element ends the walk. -/
def IsChecked (e : EidStruct) : Prop :=
  e.Eid ∈ [ieSsid, ieSuppRates, ieDsParm, ieCfParm, ieIbssParm]

/-- The acts an element may lead to. -/
theorem elementAct_elim {P : Act → Prop} (skip : P .skip) (refuse : IsChecked e → P .refuse)
    (ssid : e.Eid = ieSsid → e.Len ≤ 32 → P (.ssid e.Octet))
    (supRates : e.Eid = ieSuppRates → e.Len ≤ 12 → P (.supRates e.Octet))
    (extRates : e.Len ≤ 12 → P (.extRates e.Octet))
    (dsParm : e.Eid = ieDsParm → ∀ channel, P (.dsParm channel))
    (htCap : 26 ≤ e.Len → P (.htCap (e.Octet.take 26) e.bytes))
    (addHt : 22 ≤ e.Len → P (.addHt (e.Octet.take 22) e.bytes)) (scalar : ∀ f, P (.scalar f))
    (tim : e.Eid = ieTim → env.infraOn = true ∧ isBeacon = true → P (.tim o))
    (cfParm : ∀ p, p.bValid = true → P (.cfParm p))
    (qbssLoad : ∀ p, p.bValid = true → e.Len = 5 → P (.qbssLoad p e.bytes))
    (vendor : e.Eid = ieVendorSpecific → P (vendorAct htSeen e c))
    (rsn : e.Eid = ieRsn → c.rsn = true → P (.copy e.bytes)) :
    P (elementAct env isBeacon ssidSeen htSeen o e c) := by
  unfold elementAct
  have hrefuse : ∀ {i : BitVec 8}, i ∈ [ieSsid, ieSuppRates, ieDsParm, ieCfParm, ieIbssParm] →
      e.Eid = i → P .refuse := fun hi h => refuse (show e.Eid ∈ _ from h ▸ hi)
  refine iteInduction (fun h => iteInduction (fun _ => skip) fun _ =>
    iteInduction (ssid h) fun _ => hrefuse (by decide) h) fun _ => ?_
  refine iteInduction (fun h => iteInduction (supRates h) fun _ => hrefuse (by decide) h)
    fun _ => ?_
  refine iteInduction (fun _ => iteInduction htCap fun _ => skip) fun _ => ?_
  refine iteInduction (fun _ => iteInduction addHt fun _ => skip) fun _ => ?_
  refine iteInduction (fun _ => iteInduction (fun _ => scalar _) fun _ => skip) fun _ => ?_
  refine iteInduction (fun h => iteInduction (fun _ => dsParm h _) fun _ =>
    hrefuse (by decide) h) fun _ => ?_
  refine iteInduction (fun h => iteInduction (fun _ => cfParm _ rfl) fun _ =>
    hrefuse (by decide) h) fun _ => ?_
  refine iteInduction (fun h => iteInduction (fun _ => scalar _) fun _ =>
    hrefuse (by decide) h) fun _ => ?_
  refine iteInduction (fun h => iteInduction (tim h) fun _ => skip) fun _ => ?_
  refine iteInduction (fun _ => iteInduction (fun _ => scalar _) fun _ => skip) fun _ => ?_
  refine iteInduction vendor fun _ => ?_
  refine iteInduction (fun _ => iteInduction extRates fun _ => skip) fun _ => ?_
  refine iteInduction (fun _ => iteInduction (fun _ => scalar _) fun _ => skip) fun _ => ?_
  refine iteInduction (fun _ => iteInduction (fun _ => skip) fun _ => scalar _) fun _ => ?_
  refine iteInduction (fun _ => iteInduction (fun _ => scalar _) fun _ => skip) fun _ => ?_
  refine iteInduction (fun h => iteInduction (rsn h) fun _ => skip) fun _ => ?_
  refine iteInduction (fun _ => iteInduction (qbssLoad _ rfl) fun _ => skip) fun _ => ?_
  exact iteInduction (fun _ => iteInduction (fun _ => scalar _) fun _ => skip) fun _ => skip

/-- The element is one of WMM. -/
def IsWme (e : EidStruct) : Prop :=
  e.Eid = ieVendorSpecific ∧
    ((e.Octet.take 6 = wmeParmElem ∧ e.Len = 24) ∨ (e.Octet.take 6 = wmeInfoElem ∧ e.Len = 7))

instance (e : EidStruct) : Decidable (IsWme e) := by
  unfold IsWme
  infer_instance

theorem vendorAct_elim {P : Act → Prop} (skip : P .skip) (scalar : ∀ f, P (.scalar f))
    (preNHtCap : 30 ≤ e.Len → P (.preNHtCap ((e.Octet.drop 4).take 26)))
    (preNAddHt : 26 ≤ e.Len → P (.preNAddHt ((e.Octet.drop 4).take 22)))
    (copy : c.wpa = true ∨ c.wps = true → P (.copy e.bytes))
    (edca : (e.Octet.take 6 = wmeParmElem ∧ e.Len = 24) ∨
      (e.Octet.take 6 = wmeInfoElem ∧ e.Len = 7) →
        ∀ f, (∀ p, (f p).bValid = true ∧ (f p).bAdd = p.bAdd) → P (.edca f)) :
    P (vendorAct htSeen e c) := by
  unfold vendorAct
  refine iteInduction (fun _ => scalar _) fun _ => ?_
  refine iteInduction (fun _ => iteInduction (fun h => preNHtCap h.2) fun _ =>
    iteInduction (fun h => preNAddHt h.2) fun _ => skip) fun _ => ?_
  refine iteInduction (fun h => copy (Or.inl h)) fun _ => ?_
  refine iteInduction (fun h => edca (Or.inl h) _ fun _ => ⟨rfl, rfl⟩) fun _ => ?_
  refine iteInduction (fun h => edca (Or.inr h) _ fun _ => ⟨rfl, rfl⟩) fun _ => ?_
  exact iteInduction (fun h => copy (Or.inr h)) fun _ => skip

/-- The bytes of an act are as many as its arrays take; `n` are those of the element. -/
def Act.Sized (n : Nat) : Act → Prop
  | .ssid bs => bs.length ≤ 32
  | .supRates bs => bs.length ≤ 12
  | .extRates bs => bs.length ≤ 12
  | .htCap bs ie => bs.length = 26 ∧ ie.length = n
  | .preNHtCap bs => bs.length = 26
  | .addHt bs ie => bs.length = 22 ∧ ie.length = n
  | .preNAddHt bs => bs.length = 22
  | .copy ie => ie.length = n
  | .qbssLoad _ ie => ie.length = n
  | _ => True

theorem length_bytes (e : EidStruct) : e.bytes.length = e.Len + 2 := rfl

theorem length_take_of_le {n : Nat} {bs : Octets} (h : n ≤ bs.length) :
    (bs.take n).length = n := by
  rw [List.length_take, Nat.min_eq_left h]

theorem vendorAct_sized : (vendorAct htSeen e c).Sized (e.Len + 2) := by
  refine vendorAct_elim trivial (fun _ => trivial) (fun h => ?_) (fun h => ?_)
    (fun _ => length_bytes e) (fun _ _ _ => trivial)
  · have hlen : 30 ≤ e.Octet.length := h
    exact length_take_of_le (by rw [List.length_drop]; omega)
  · have hlen : 26 ≤ e.Octet.length := h
    exact length_take_of_le (by rw [List.length_drop]; omega)

theorem elementAct_sized :
    (elementAct env isBeacon ssidSeen htSeen o e c).Sized (e.Len + 2) :=
  elementAct_elim trivial (fun _ => trivial) (fun _ h => h) (fun _ h => h) (fun h => h)
    (fun _ _ => trivial)
    (fun h => ⟨length_take_of_le h, length_bytes e⟩)
    (fun h => ⟨length_take_of_le h, length_bytes e⟩) (fun _ => trivial) (fun _ _ => trivial)
    (fun _ _ => trivial) (fun _ _ _ => length_bytes e) (fun _ => vendorAct_sized)
    (fun _ _ => length_bytes e)

/-- Only the comparisons of the element's kind matter. -/
theorem elementAct_congr {c' : Ouis}
    (hvendor : e.Eid = ieVendorSpecific → c'.wpa = c.wpa ∧ c'.wps = c.wps)
    (hrsn : e.Eid = ieRsn → c'.rsn = c.rsn) :
    elementAct env isBeacon ssidSeen htSeen o e c'
      = elementAct env isBeacon ssidSeen htSeen o e c := by
  have hv : ∀ rest : Act, (if e.Eid = ieVendorSpecific then vendorAct htSeen e c' else rest)
      = if e.Eid = ieVendorSpecific then vendorAct htSeen e c else rest := by
    intro rest
    split
    · rename_i h
      unfold vendorAct
      rw [(hvendor h).1, (hvendor h).2]
    · rfl
  have hr : ∀ rest : Act, (if e.Eid = ieRsn then if c'.rsn then .copy e.bytes else .skip else rest)
      = if e.Eid = ieRsn then if c.rsn then .copy e.bytes else .skip else rest := by
    intro rest
    split
    · rename_i h
      rw [hrsn h]
    · rfl
  unfold elementAct
  rw [hv, hr]

end Acts

/-! ## States that declare the same -/

/-- A record is declared by its flag. -/
def SameRecord {α : Type} (valid : α → Bool) (p p' : α) : Prop :=
  valid p = valid p' ∧ (valid p = true → p = p')

/-- An array of fixed length is declared by one of two lengths. -/
def SameHt (o o' : BeaconOut) : Prop :=
  o.HtCapability.len = o'.HtCapability.len ∧ o.PreNHtCapabilityLen = o'.PreNHtCapabilityLen ∧
    (o.HtCapability.len ≠ 0 ∨ o.PreNHtCapabilityLen ≠ 0 →
      segment o.HtCapability.bytes 0 26 = segment o'.HtCapability.bytes 0 26)

/-- What two walks over one message have in common. -/
structure Agree (s s' : Walk) : Prop where
  refused : s.refused = s'.refused
  ssidSeen : s.ssidSeen = s'.ssidSeen
  ratesSeen : s.ratesSeen = s'.ratesSeen
  channelSeen : s.channelSeen = s'.channelSeen
  ctrl : s.CtrlChannel = s'.CtrlChannel
  header : s.out.header = s'.out.header
  ssid : s.ssidSeen = true → s.out.Ssid.content = s'.out.Ssid.content
  supRates : s.ratesSeen = true → s.out.SupRate.content = s'.out.SupRate.content
  extRates : s.out.ExtRate.content = s'.out.ExtRate.content
  channel : s.channelSeen = true → s.out.Channel = s'.out.Channel
  scalars : s.out.scalars = s'.out.scalars
  ht : SameHt s.out s'.out
  addHt : s.out.AddHtInfo.content = s'.out.AddHtInfo.content
  vie : s.out.pVIE.content = s'.out.pVIE.content
  cfParm : SameRecord CfParm.bValid s.out.CfParm s'.out.CfParm
  qbssLoad : SameRecord QbssLoadParm.bValid s.out.QbssLoad s'.out.QbssLoad

theorem content_length (b : OutBuf) : b.content.length = b.len := length_segment _ _ _

theorem Agree.vieLen {s s' : Walk} (h : Agree s s') : s.out.pVIE.len = s'.out.pVIE.len := by
  rw [← content_length, ← content_length, h.vie]

theorem content_append_congr {b b' : OutBuf} (h : b.content = b'.content) (bs : Octets) :
    (b.append bs).content = (b'.append bs).content := by
  rw [OutBuf.content_append, OutBuf.content_append, h]

/-- **One act**: two states that have all this in common still have it after the same act. -/
theorem perform_agree (aid : Nat) (m m' : Mem) {n : Nat} {s s' : Walk} (h : Agree s s') {a : Act}
    (ha : a.Sized n) : Agree (perform aid m s a) (perform aid m' s' a) := by
  have hfill : ∀ (b b' : OutBuf) (bs : Octets), (b.fill bs).content = (b'.fill bs).content :=
    fun b b' bs => (b.content_fill bs).trans (b'.content_fill bs).symm
  have hht : ∀ (b b' : OutBuf) {bs : Octets}, bs.length = 26 →
      segment (b.write bs).bytes 0 26 = segment (b'.write bs).bytes 0 26 :=
    fun b b' _ hbs => (b.bytes_write hbs).trans (b'.bytes_write hbs).symm
  cases a with
  | skip => exact h
  | refuse => exact { h with refused := rfl }
  | ssid bs => exact { h with ssidSeen := rfl, ssid := fun _ => hfill _ _ bs }
  | supRates bs => exact { h with ratesSeen := rfl, supRates := fun _ => hfill _ _ bs }
  | extRates bs => exact { h with extRates := hfill _ _ bs }
  | dsParm channel => exact { h with channelSeen := rfl, channel := fun _ => rfl }
  | htCap bs ie =>
    exact { h with
      ht := ⟨rfl, rfl, fun _ => hht _ _ ha.1⟩
      vie := content_append_congr h.vie ie }
  | preNHtCap bs => exact { h with ht := ⟨h.ht.1, rfl, fun _ => hht _ _ ha⟩ }
  | addHt bs ie =>
    exact { h with
      ctrl := rfl
      addHt := hfill _ _ bs
      vie := content_append_congr h.vie ie }
  | preNAddHt bs => exact { h with addHt := hfill _ _ bs }
  | copy ie => exact { h with vie := content_append_congr h.vie ie }
  | scalar f => exact { h with scalars := congrArg f h.scalars }
  | tim o => exact { h with }
  | cfParm p => exact { h with cfParm := ⟨rfl, fun _ => rfl⟩ }
  | qbssLoad p ie =>
    exact { h with
      vie := content_append_congr h.vie ie
      qbssLoad := ⟨rfl, fun _ => rfl⟩ }
  | edca f => exact { h with }

/-! ## Messages with the same received bytes -/

def AgreeBelow (len : Nat) (m m' : Mem) : Prop := ∀ i < len, m' i = m i

/-- The received bytes decide a comparison: it does not go behind them, or differs in them. -/
def OuiDecided (m : Mem) (len o n : Nat) (oui : Octets) : Prop :=
  o + n ≤ len ∨ ∃ i < 3, o + i < len ∧ m (o + i) ≠ oui.getD i 0

/-- The received bytes decide what is made of the element at `o`. -/
structure Decided (m : Mem) (len o : Nat) : Prop where
  vendor : m o = ieVendorSpecific → OuiDecided m len (o + 2) 4 wpaOui
  rsn : m o = ieRsn → OuiDecided m len (o + 4) 3 rsnOui

section Same

variable {m m' : Mem} {len o : Nat}

theorem segment_of_agree (h : AgreeBelow len m m') {n : Nat} (hn : o + n ≤ len) :
    segment m' o n = segment m o n :=
  segment_congr fun i hi => h (o + i) (by omega)

theorem after_le_iff (h : AgreeBelow len m m') : Tlv.after m' o ≤ len ↔ Tlv.after m o ≤ len := by
  unfold Tlv.after
  by_cases ho : o + 1 < len
  · rw [h (o + 1) ho]
  · constructor <;> intro hle <;> omega

theorem after_of_agree (h : AgreeBelow len m m') (hle : Tlv.after m o ≤ len) :
    Tlv.after m' o = Tlv.after m o := by
  unfold Tlv.after at hle ⊢
  rw [h (o + 1) (by omega)]

theorem eidAt_of_agree (h : AgreeBelow len m m') (hle : Tlv.after m o ≤ len) :
    eidAt m' o = eidAt m o := by
  unfold Tlv.after at hle
  unfold eidAt
  rw [h o (by omega), h (o + 1) (by omega), segment_of_agree h (by omega)]

/-- A decided comparison comes out the same. -/
theorem segment_eq_of_decided (h : AgreeBelow len m m') {n : Nat} {oui oui' : Octets}
    (hn : 3 ≤ n) (hd : OuiDecided m len o n oui) (hsame : ∀ i < 3, oui'.getD i 0 = oui.getD i 0) :
    segment m' o n = oui' ↔ segment m o n = oui' := by
  rcases hd with hin | ⟨i, hi, hlen, hne⟩
  · rw [segment_of_agree h hin]
  · have hget : ∀ m'' : Mem, m'' (o + i) = m (o + i) → segment m'' o n ≠ oui' := by
      intro m'' hm hseg
      apply hne
      rw [← hsame i hi, ← hseg, ← hm, List.getD_eq_getElem?_getD,
        getElem?_segment m'' (show i < n by omega)]
      rfl
    exact iff_of_false (hget m' (h _ hlen)) (hget m rfl)

/-- The comparisons that matter come out the same. -/
structure SameOuis (m m' : Mem) (o : Nat) : Prop where
  vendor : m o = ieVendorSpecific →
    (ouisAt m' o).wpa = (ouisAt m o).wpa ∧ (ouisAt m' o).wps = (ouisAt m o).wps
  rsn : m o = ieRsn → (ouisAt m' o).rsn = (ouisAt m o).rsn

theorem SameOuis.rfl : SameOuis m m o := ⟨fun _ => ⟨Eq.refl _, Eq.refl _⟩, fun _ => Eq.refl _⟩

theorem Decided.sameOuis (hd : Decided m len o) (h : AgreeBelow len m m') :
    SameOuis m m' o := by
  refine ⟨fun hv => ⟨?_, ?_⟩, fun hr => ?_⟩
  · exact decide_eq_decide.mpr
      (segment_eq_of_decided h (by decide) (hd.vendor hv) fun _ _ => rfl)
  · exact decide_eq_decide.mpr
      (segment_eq_of_decided h (by decide) (hd.vendor hv) (by decide))
  · exact decide_eq_decide.mpr
      (segment_eq_of_decided h (by decide) (hd.rsn hr) fun _ _ => rfl)

/-- **One element** leads to the same act. -/
theorem act_of_sameOuis (env : Env) {s s' : Walk} (h : AgreeBelow len m m')
    (hbeacon : isBeacon m' = isBeacon m) (hle : Tlv.after m o ≤ len) (ho : SameOuis m m' o)
    (hs : Agree s s') : s'.act env m' o = s.act env m o := by
  unfold Walk.act
  rw [hbeacon, eidAt_of_agree h hle, ← hs.ssidSeen, ← hs.ht.1]
  exact elementAct_congr ho.vendor ho.rsn

end Same

/-! ## Two walks -/

theorem act_sized (s : Walk) (env : Env) (m : Mem) (o : Nat) :
    (s.act env m o).Sized ((eidAt m o).Len + 2) :=
  elementAct_sized

theorem room_of_agree {m m' : Mem} {len o : Nat} {s s' : Walk} (h : AgreeBelow len m m')
    (hle : Tlv.after m o ≤ len) (hs : Agree s s') : s'.room m' o = s.room m o := by
  unfold Tlv.after at hle
  unfold Walk.room
  rw [h (o + 1) (by omega), hs.vieLen]

theorem walk_of_gt {env : Env} {m : Mem} {len o : Nat} {s : Walk}
    (h : ¬ Tlv.after m o ≤ len) : walk env m len o s = ([], s) := by
  rw [walk, if_neg h]

theorem walk_of_full {env : Env} {m : Mem} {len o : Nat} {s : Walk}
    (h : Tlv.after m o ≤ len) (hroom : ¬ s.room m o = true) : walk env m len o s = ([], s) := by
  rw [walk, if_pos h, if_neg hroom]

theorem walk_of_refused {env : Env} {m : Mem} {len o : Nat} {s : Walk}
    (h : Tlv.after m o ≤ len) (hroom : s.room m o = true)
    (hr : (perform env.Aid m s (s.act env m o)).refused = true) :
    walk env m len o s = ([o], perform env.Aid m s (s.act env m o)) := by
  rw [walk, if_pos h, if_pos hroom]
  exact if_pos hr

theorem walk_of_on {env : Env} {m : Mem} {len o : Nat} {s : Walk}
    (h : Tlv.after m o ≤ len) (hroom : s.room m o = true)
    (hr : ¬ (perform env.Aid m s (s.act env m o)).refused = true) :
    walk env m len o s
      = (o :: (walk env m len (Tlv.after m o) (perform env.Aid m s (s.act env m o))).1,
        (walk env m len (Tlv.after m o) (perform env.Aid m s (s.act env m o))).2) := by
  rw [walk, if_pos h, if_pos hroom]
  exact if_neg hr

/-- **The walk rule**: what holds of the end of the walk and is carried from behind an element to
the element, holds of the walk. -/
theorem walk_rule (env : Env) (m : Mem) (len : Nat) {P : Nat → Walk → Prop}
    (stop : ∀ o s, walk env m len o s = ([], s) → P o s)
    (refused : ∀ o s, Tlv.after m o ≤ len → s.room m o = true →
      (perform env.Aid m s (s.act env m o)).refused = true → P o s)
    (on : ∀ o s, Tlv.after m o ≤ len → s.room m o = true →
      ¬ (perform env.Aid m s (s.act env m o)).refused = true →
        P (Tlv.after m o) (perform env.Aid m s (s.act env m o)) → P o s)
    (o : Nat) (s : Walk) : P o s := by
  induction o, s using walk.induct env m len with
  | case1 o s h hroom s' hr => exact refused o s h hroom hr
  | case2 o s h hroom s' hr ih => exact on o s h hroom hr ih
  | case3 o s h hroom => exact stop o s (walk_of_full h hroom)
  | case4 o s h => exact stop o s (walk_of_gt h)

/-- **Two walks** over one message, with the comparisons the same, come to the same elements, and
have all this in common in the end. -/
theorem walk_agree {env : Env} {m m' : Mem} {len : Nat} (hm : AgreeBelow len m m')
    (hbeacon : isBeacon m' = isBeacon m) (o : Nat) (s : Walk) :
    (∀ i ∈ (walk env m len o s).1, SameOuis m m' i) → ∀ s', Agree s s' →
      (walk env m' len o s').1 = (walk env m len o s).1 ∧
        Agree (walk env m len o s).2 (walk env m' len o s').2 := by
  induction o, s using walk_rule env m len with
  | stop o s hstop =>
    intro _ s' hs
    have hstop' : walk env m' len o s' = ([], s') := by
      by_cases h : Tlv.after m o ≤ len
      · by_cases hroom : s.room m o = true
        · -- the walk did not stop here
          by_cases hr : (perform env.Aid m s (s.act env m o)).refused = true
          · rw [walk_of_refused h hroom hr] at hstop
            cases hstop
          · rw [walk_of_on h hroom hr] at hstop
            cases hstop
        · refine walk_of_full ((after_le_iff hm).mpr h) ?_
          rwa [room_of_agree hm h hs]
      · exact walk_of_gt fun h' => h ((after_le_iff hm).mp h')
    rw [hstop, hstop']
    exact ⟨rfl, hs⟩
  | refused o s h hroom hr =>
    intro hd s' hs
    rw [walk_of_refused h hroom hr] at hd ⊢
    have hact := act_of_sameOuis env hm hbeacon h (hd o List.mem_cons_self) hs
    have hnext := perform_agree env.Aid m m' hs (act_sized s env m o)
    rw [walk_of_refused ((after_le_iff hm).mpr h) (room_of_agree hm h hs ▸ hroom)
      (by rw [hact, ← hnext.refused]; exact hr), hact]
    exact ⟨rfl, hnext⟩
  | on o s h hroom hr ih =>
    intro hd s' hs
    rw [walk_of_on h hroom hr] at hd ⊢
    have hact := act_of_sameOuis env hm hbeacon h (hd o List.mem_cons_self) hs
    have hnext := perform_agree env.Aid m m' hs (act_sized s env m o)
    obtain ⟨hvisits, hend⟩ := ih (fun i hi => hd i (List.mem_cons_of_mem o hi)) _ hnext
    rw [walk_of_on ((after_le_iff hm).mpr h) (room_of_agree hm h hs ▸ hroom)
      (by rw [hact, ← hnext.refused]; exact hr), hact, after_of_agree hm h]
    exact ⟨by rw [hvisits], hend⟩

end ExtDrv.Rt3370.Sanity
