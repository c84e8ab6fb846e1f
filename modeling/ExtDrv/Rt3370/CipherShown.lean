import ExtDrv.Rt3370.CipherParse

/-!
# Ciphers as the element shows them

When `BssCipherParse` makes of a security element what the element says, in every entry that holds
it as the only one.
-/

namespace ExtDrv.Rt3370.Bss.SecurityElement

open Memory

variable {e : SecurityElement}

/-! ## The pairwise ciphers -/

theorem mem_types {ss : List Suite} {t : BitVec 8} : t ∈ ss.map Suite.suiteType ↔ Lists ss t := by
  simp [Lists]

theorem lists_of_advertises {t : BitVec 8} (h : e.Advertises t) : Lists e.pairs t := by
  obtain ⟨s, hs, -, ht⟩ := h
  exact ⟨s, hs, ht⟩

theorem strongestType_iff :
    strongestType (e.pairs.map Suite.suiteType) = e.strongest ↔ e.PairRight := by
  have h4 : 4#8 ∈ e.pairs.map Suite.suiteType ↔ Lists e.pairs 4#8 := mem_types
  have h2 : 2#8 ∈ e.pairs.map Suite.suiteType ↔ Lists e.pairs 2#8 := mem_types
  have ha4 : e.Advertises 4#8 → Lists e.pairs 4#8 := lists_of_advertises
  have ha2 : e.Advertises 2#8 → Lists e.pairs 2#8 := lists_of_advertises
  unfold strongestType strongest PairRight
  rw [if_congr h4 rfl rfl, if_congr h2 rfl rfl]
  by_cases hl4 : Lists e.pairs 4#8
  · by_cases hadv : e.Advertises 4#8
    · simp [hl4, hadv]
    · by_cases hadv2 : e.Advertises 2#8 <;> simp [hl4, hadv, hadv2]
  · have hadv : ¬ e.Advertises 4#8 := fun h => hl4 (ha4 h)
    by_cases hl2 : Lists e.pairs 2#8
    · by_cases hadv2 : e.Advertises 2#8 <;> simp [hl4, hl2, hadv, hadv2]
    · have hadv2 : ¬ e.Advertises 2#8 := fun h => hl2 (ha2 h)
      simp [hl4, hl2, hadv, hadv2]

/-- What the last pairwise suite leaves as the second strongest cipher. -/
theorem aux_last_iff {ss : List Suite} {s : Suite} (hpairs : e.pairs = ss ++ [s]) :
    (if cipherRank (strongestType (ss.map Suite.suiteType)) < cipherRank (tmpCipher s.suiteType)
        then strongestType (ss.map Suite.suiteType) else tmpCipher s.suiteType)
        = e.secondStrongest ↔
      s.suiteType ≠ 1#8 ∧ s.suiteType ≠ 5#8 ∧
      (s.suiteType = 4#8 → ¬ Lists ss 4#8 ∧ (Lists ss 2#8 → e.Advertises 4#8 ∧ e.Advertises 2#8)) ∧
      (s.suiteType = 2#8 → Lists ss 4#8 ∨ Lists ss 2#8 → e.Advertises 4#8 ∧ e.Advertises 2#8) ∧
      (s.suiteType ≠ 4#8 → s.suiteType ≠ 2#8 → ¬ (e.Advertises 4#8 ∧ e.Advertises 2#8)) := by
  have h4 : 4#8 ∈ ss.map Suite.suiteType ↔ Lists ss 4#8 := mem_types
  have h2 : 2#8 ∈ ss.map Suite.suiteType ↔ Lists ss 2#8 := mem_types
  have hlisted : ∀ t, e.Advertises t → Lists ss t ∨ s.suiteType = t := by
    intro t ht
    obtain ⟨s', hs', hs't⟩ := lists_of_advertises ht
    rw [hpairs, List.mem_append, List.mem_singleton] at hs'
    rcases hs' with hs' | rfl
    · exact Or.inl ⟨s', hs', hs't⟩
    · exact Or.inr hs't
  have ha4 := hlisted 4#8
  have ha2 := hlisted 2#8
  obtain ⟨t, ht⟩ : ∃ t, s.suiteType = t := ⟨_, rfl⟩
  rw [ht] at ha4 ha2 ⊢
  rw [(strongestType_append _ _).2]
  unfold secondStrongest
  by_cases h1 : t = 1#8 ∨ t = 5#8
  · rw [if_pos h1]
    refine iff_of_false ?_ fun h => h1.elim h.1 h.2.1
    split <;> decide
  rw [if_neg h1]
  have hne1 : t ≠ 1#8 := fun h => h1 (Or.inl h)
  have hne5 : t ≠ 5#8 := fun h => h1 (Or.inr h)
  by_cases ht2 : t = 2#8
  · subst ht2
    rw [if_pos rfl, if_congr (or_congr h4 h2) rfl rfl]
    by_cases hl : Lists ss 4#8 ∨ Lists ss 2#8
    · by_cases hadv : e.Advertises 4#8 ∧ e.Advertises 2#8 <;> simp [hl, hadv]
    · have hadv : ¬ e.Advertises 4#8 := fun h => (ha4 h).elim (fun h => hl (Or.inl h)) (by decide)
      simp [hl, hadv]
  rw [if_neg ht2]
  by_cases ht4 : t = 4#8
  · subst ht4
    unfold strongestType
    rw [if_pos rfl, if_congr h4 rfl rfl, if_congr h2 rfl rfl]
    by_cases hl4 : Lists ss 4#8
    · by_cases hadv : e.Advertises 4#8 ∧ e.Advertises 2#8 <;> simp [hl4, hadv]
    · by_cases hl2 : Lists ss 2#8
      · by_cases hadv : e.Advertises 4#8 ∧ e.Advertises 2#8 <;> simp [hl4, hl2, hadv]
      · have hadv : ¬ e.Advertises 2#8 := fun h => (ha2 h).elim hl2 (by decide)
        simp [hl4, hl2, hadv]
  · rw [if_neg ht4]
    have hne2 : t ≠ 2#8 := ht2
    have hne4 : t ≠ 4#8 := ht4
    by_cases hadv : e.Advertises 4#8 ∧ e.Advertises 2#8
    · simp [hadv, hne1, hne5, hne2, hne4]
    · simp only [if_neg hadv, true_iff]
      exact ⟨hne1, hne5, fun h => absurd h hne4, fun h => absurd h hne2, fun _ _ => hadv⟩

/-- **The second strongest cipher**, after all suites. -/
theorem pairAux_iff {s : CipherSuite} (hs : s.PairCipher = .encryptionDisabled)
    (hs' : s.PairCipherAux = .encryptionDisabled) :
    ((e.pairs.map Suite.suiteType).foldl CipherSuite.pair s).PairCipherAux = e.secondStrongest
      ↔ e.AuxRight := by
  rcases List.eq_nil_or_concat e.pairs with hnil | ⟨ss, l, hpairs⟩
  · have hnone : ¬ e.Advertises 4#8 := by
      intro h
      obtain ⟨s, hmem, -⟩ := h
      rw [hnil] at hmem
      exact List.not_mem_nil hmem
    have hright : e.AuxRight := by
      intro ss s hpairs
      rw [hnil] at hpairs
      exact absurd hpairs.symm (by simp)
    rw [hnil]
    unfold secondStrongest
    rw [if_neg (fun h => hnone h.1)]
    exact iff_of_true hs' hright
  · rw [List.concat_eq_append] at hpairs
    have hright : e.AuxRight ↔ _ := ⟨fun h => h ss l hpairs, fun h ss' l' hpairs' => by
      have heq := List.append_inj' (hpairs.symm.trans hpairs') rfl
      obtain ⟨rfl, hl⟩ := heq
      obtain rfl := List.singleton_inj.mp hl
      exact h⟩
    rw [hright, ← aux_last_iff hpairs, hpairs, List.map_append, List.map_cons, List.map_nil,
      CipherSuite.foldl_pair_aux _ _ hs]

/-! ## What is shown -/

/-- The group cipher that the parse finds by the type alone. -/
theorem group_cipher (t : BitVec 8) :
    (noSuite.group t).GroupCipher
      = if t = 1#8 then .groupWep40Enabled
        else if t = 5#8 then .groupWep104Enabled
        else if t = 2#8 then .encryption2Enabled
        else if t = 4#8 then .encryption3Enabled
        else .encryptionDisabled := by
  have hgroup : noSuite.group t
      = if t = 1#8 then { noSuite with GroupCipher := .groupWep40Enabled }
        else if t = 5#8 then { noSuite with GroupCipher := .groupWep104Enabled }
        else if t = 2#8 then { noSuite with GroupCipher := .encryption2Enabled }
        else if t = 4#8 then { noSuite with GroupCipher := .encryption3Enabled }
        else noSuite := rfl
  rw [hgroup]
  split_ifs <;> rfl

theorem group_pair (t : BitVec 8) : (noSuite.group t).PairCipher = .encryptionDisabled := by
  unfold CipherSuite.group
  split_ifs <;> rfl

theorem group_pairAux (t : BitVec 8) : (noSuite.group t).PairCipherAux = .encryptionDisabled := by
  unfold CipherSuite.group
  split_ifs <;> rfl

theorem paired_group (e : SecurityElement) :
    (e.paired noSuite).GroupCipher = (noSuite.group e.group.suiteType).GroupCipher :=
  CipherSuite.foldl_pair_group _ _

theorem paired_pair_iff : (e.paired noSuite).PairCipher = e.strongest ↔ e.PairRight := by
  rw [← strongestType_iff, paired, CipherSuite.foldl_pair_cipher _ (group_pair _)]

theorem paired_pairAux_iff : (e.paired noSuite).PairCipherAux = e.secondStrongest ↔ e.AuxRight :=
  pairAux_iff (group_pair _) (group_pairAux _)

/-- The group cipher is that of the element, where the OUI is the format's or the type is none that
the driver knows. -/
theorem group_iff :
    (noSuite.group e.group.suiteType).GroupCipher = e.groupCipher ↔
      e.group.Own e.protocol ∨ e.group.suiteType ∉ [1#8, 2#8, 4#8, 5#8] := by
  rw [group_cipher]
  unfold groupCipher
  by_cases hown : e.group.Own e.protocol
  · simp [hown]
  · simp only [hown, not_false_eq_true, if_true, false_or, List.mem_cons, List.not_mem_nil, or_false]
    split_ifs <;> simp_all

@[simp] theorem mixed_group (s : CipherSuite) : s.mixed.GroupCipher = s.GroupCipher := by
  unfold CipherSuite.mixed
  split <;> rfl

@[simp] theorem mixed_pair (s : CipherSuite) : s.mixed.PairCipher = s.PairCipher := by
  unfold CipherSuite.mixed
  split <;> rfl

@[simp] theorem mixed_pairAux (s : CipherSuite) : s.mixed.PairCipherAux = s.PairCipherAux := by
  unfold CipherSuite.mixed
  split <;> rfl

@[simp] theorem mixed_capability (s : CipherSuite) : s.mixed.RsnCapability = s.RsnCapability := by
  unfold CipherSuite.mixed
  split <;> rfl

/-! ## A `WPA` element -/

/-- The mode for the type `t` of a first AKM suite. -/
def wpaMode (t : BitVec 8) : Option AuthMode :=
  if t = 1#8 then some .wpa else if t = 2#8 then some .wpaPsk else some .openSystem

/-- An entry without a mode gets that of the suite. -/
theorem wpaAuth_open {s : Security} (hs : s.AuthMode = some .openSystem) (t : BitVec 8) :
    s.wpaAuth t = { s with AuthMode := wpaMode t } := by
  have hauth : ∀ mode, s.auth mode = { s with AuthMode := mode } := by
    intro mode
    rw [Security.auth, if_pos hs]
  have hmode : s.wpaAuth t
      = if t = 1#8 then s.auth (some .wpa) else if t = 2#8 then s.auth (some .wpaPsk) else s := rfl
  rw [hmode, wpaMode]
  split_ifs
  · exact hauth _
  · exact hauth _
  · rw [← hs]

theorem shown_wpa_iff (hp : e.protocol = .wpa) (privacy : Bool) (t : BitVec 8) {sec : Security}
    (hsec : sec = (let s := ({ Security.default privacy with
        WPA := e.paired noSuite }.wpaAuth t).wpaWepStatus false
      { s with WPA := s.WPA.mixed })) :
    e.Shown sec ↔
      (e.group.Own .wpa ∨ e.group.suiteType ∉ [1#8, 2#8, 4#8, 5#8]) ∧ e.PairRight ∧ e.AuxRight ∧
        wpaMode t = e.mode 0 ∧ some .openSystem = e.mode 1 := by
  rw [wpaAuth_open rfl] at hsec
  have hsuite : e.suiteOf sec = (e.paired noSuite).mixed := by
    rw [suiteOf, hp, hsec]
    rfl
  have hauth : sec.AuthMode = wpaMode t := by rw [hsec]; rfl
  have haux : sec.AuthModeAux = some .openSystem := by rw [hsec]; rfl
  rw [← paired_pair_iff, ← paired_pairAux_iff, ← hp, ← group_iff, ← paired_group, ← hauth, ← haux]
  constructor
  · intro h
    have hg := h.group
    have hpair := h.pair
    have hpairAux := h.pairAux
    rw [hsuite] at hg hpair hpairAux
    simp only [mixed_group, mixed_pair, mixed_pairAux] at hg hpair hpairAux
    exact ⟨hg, hpair, hpairAux, h.auth, h.authAux⟩
  · intro h
    obtain ⟨hg, hpair, hpairAux, hauth, haux⟩ := h
    constructor
    case group => rw [hsuite, mixed_group, hg]
    case pair => rw [hsuite, mixed_pair, hpair]
    case pairAux => rw [hsuite, mixed_pairAux, hpairAux]
    case auth => exact hauth
    case authAux => exact haux
    case capability =>
      intro hrsn
      rw [hp] at hrsn
      cases hrsn

/-- The first AKM suite gives its mode. -/
theorem wpaMode_iff {s : Suite} :
    wpaMode s.suiteType = akmMode .wpa s ↔ s.Own .wpa ∨ s.suiteType ∉ [1#8, 2#8] := by
  unfold wpaMode akmMode
  by_cases hown : s.Own .wpa
  · simp [hown]
  · simp only [hown, false_and, if_false, false_or, List.mem_cons, List.not_mem_nil, or_false]
    split_ifs <;> simp_all

/-- No second mode is found. -/
theorem open_iff {s : Suite} :
    some .openSystem = akmMode .wpa s ↔ ¬ (s.Own .wpa ∧ s.suiteType ∈ [1#8, 2#8]) := by
  unfold akmMode
  by_cases hown : s.Own .wpa
  · simp only [hown, true_and, List.mem_cons, List.not_mem_nil, or_false]
    split_ifs <;> simp_all
  · simp [hown]

/-! ## An `RSN` element -/

/-- The mode for the type `t` of an AKM suite. -/
def rsnMode (t : BitVec 8) : Option AuthMode :=
  if t = 0#8 then some .wpaNone
  else if t = 1#8 then some .wpa2
  else if t = 2#8 then some .wpa2Psk
  else none

theorem rsnAuth_open {s : Security} (hs : s.AuthMode = some .openSystem) (t : BitVec 8) :
    s.rsnAuth t = { s with AuthMode := rsnMode t } := by
  have hauth : ∀ mode, s.auth mode = { s with AuthMode := mode } := by
    intro mode
    rw [Security.auth, if_pos hs]
  have hmode : s.rsnAuth t
      = if t = 0#8 then s.auth (some .wpaNone)
        else if t = 1#8 then s.auth (some .wpa2)
        else if t = 2#8 then s.auth (some .wpa2Psk)
        else s.auth none := rfl
  rw [hmode, rsnMode]
  split_ifs <;> exact hauth _

theorem akmMode_own {s : Suite} (h : s.Own .rsn) : akmMode .rsn s = rsnMode s.suiteType := by
  simp [akmMode, rsnMode, h]

/-- An AKM suite of the format has a mode. -/
theorem akmMode_rsn_ne (s : Suite) : akmMode .rsn s ≠ some .openSystem := by
  unfold akmMode
  dsimp only
  split_ifs <;> simp

theorem shown_rsn_iff (hp : e.protocol = .rsn) (hown : e.group.Own .rsn) (privacy : Bool)
    (mode : Option AuthMode) (capability : Nat) {sec : Security}
    (hsec : sec = (let s := Security.rsnWepStatus { Security.default privacy with
        AuthMode := mode
        WPA2 := e.paired noSuite } false
      { s with WPA2 := { s.WPA2 with RsnCapability := capability }.mixed })) :
    e.Shown sec ↔
      e.PairRight ∧ e.AuxRight ∧ mode = e.mode 0 ∧ some .openSystem = e.mode 1 ∧
        capability = number e.tail := by
  have hsuite : e.suiteOf sec
      = CipherSuite.mixed { e.paired noSuite with RsnCapability := capability } := by
    rw [suiteOf, hp, hsec]
    rfl
  have hauth : sec.AuthMode = mode := by rw [hsec]; rfl
  have haux : sec.AuthModeAux = some .openSystem := by rw [hsec]; rfl
  have hcap : sec.WPA2.RsnCapability = capability := by
    have h := congrArg CipherSuite.RsnCapability hsuite
    rw [suiteOf, hp, mixed_capability] at h
    exact h
  have hgroup : (e.paired noSuite).GroupCipher = e.groupCipher := by
    rw [paired_group, group_iff, hp]
    exact Or.inl hown
  rw [← paired_pair_iff, ← paired_pairAux_iff, ← hauth, ← haux, ← hcap]
  constructor
  · intro h
    have hpair := h.pair
    have hpairAux := h.pairAux
    rw [hsuite] at hpair hpairAux
    rw [mixed_pair] at hpair
    rw [mixed_pairAux] at hpairAux
    exact ⟨hpair, hpairAux, h.auth, h.authAux, h.capability hp⟩
  · intro h
    obtain ⟨hpair, hpairAux, hauth, haux, hcap⟩ := h
    constructor
    case group => rw [hsuite, mixed_group]; exact hgroup
    case pair => rw [hsuite, mixed_pair]; exact hpair
    case pairAux => rw [hsuite, mixed_pairAux]; exact hpairAux
    case auth => exact hauth
    case authAux => exact haux
    case capability => exact fun _ => hcap

/-- A group cipher that the driver does not know ends the parse. -/
theorem shown_foreign_iff (hp : e.protocol = .rsn) (hown : ¬ e.group.Own .rsn) (privacy : Bool) :
    e.Shown (.default privacy) ↔
      ¬ e.Advertises 4#8 ∧ ¬ e.Advertises 2#8 ∧ e.akms = [] ∧ number e.tail = 0 := by
  constructor
  · intro h
    have hpair := h.pair
    have hauth := h.auth
    have hcap := h.capability hp
    have h4 : ¬ e.Advertises 4#8 := by
      intro hadv
      rw [suiteOf, hp, strongest, if_pos hadv] at hpair
      cases hpair
    have h2 : ¬ e.Advertises 2#8 := by
      intro hadv
      rw [suiteOf, hp, strongest, if_neg h4, if_pos hadv] at hpair
      cases hpair
    refine ⟨h4, h2, ?_, hcap.symm⟩
    cases hakms : e.akms with
    | nil => rfl
    | cons s ss =>
        have hmode : e.mode 0 = akmMode .rsn s := by simp [mode, hakms, hp]
        rw [hmode] at hauth
        exact absurd hauth.symm (akmMode_rsn_ne s)
  · intro h
    obtain ⟨h4, h2, hakms, htail⟩ := h
    have hmode : ∀ i, e.mode i = some .openSystem := by
      intro i
      simp [mode, hakms]
    constructor
    case group => simp [suiteOf, hp, groupCipher, hown, Security.default, noSuite]
    case pair => simp [suiteOf, hp, strongest, h4, h2, Security.default, noSuite]
    case pairAux => simp [suiteOf, hp, secondStrongest, h4, Security.default, noSuite]
    case auth => rw [hmode]; rfl
    case authAux => rw [hmode]; rfl
    case capability => intro _; rw [htail]; rfl

/-! ## Every entry and one entry -/

/-- The element alone in `VarIEs`, the rest of which holds `b`. -/
def alone (e : SecurityElement) (b : BitVec 8) : Mem := store (fun _ => b) 0 e.bytes

theorem alone_onlyAt (e : SecurityElement) (b : BitVec 8) :
    e.OnlyAt (e.alone b) e.bytes.length 0 := by
  have hspells : Spells (e.alone b) 0 e.bytes := spells_store _ _ _
  have hl := laid hspells
  have hafter : Tlv.after (e.alone b) 0 = e.bytes.length := by
    rw [Tlv.after, hl.len, bytes, List.length_cons, List.length_cons]
    omega
  have hoffsets : Tlv.offsets (e.alone b) e.bytes.length 0 = [0] := by
    rw [Tlv.offsets_of_le (Nat.le_of_eq hafter), hafter, Tlv.offsets_of_gt]
    unfold Tlv.after
    omega
  constructor
  case whole =>
    refine .element (Nat.le_of_eq hafter) ?_
    rw [hafter]
    exact .done
  case mem => rw [hoffsets]; exact List.mem_singleton_self 0
  case spells => exact hspells
  case others =>
    intro i hi hne
    rw [hoffsets] at hi
    exact absurd (List.mem_singleton.mp hi) hne

/-- Behind the element. -/
theorem alone_behind (e : SecurityElement) (b : BitVec 8) {i : Nat} (hi : e.bytes.length ≤ i) :
    e.alone b i = b := by
  unfold alone store
  rw [if_neg (by omega)]

theorem length_bytes (e : SecurityElement) : e.bytes.length = e.body.length + 2 := rfl

/-- The type of the first AKM suite is where the parse of a `WPA` element looks for it. -/
theorem firstAkm {m : Mem} {o : Nat} (hp : e.protocol = .wpa) (h : Spells m o e.bytes) {s : Suite}
    {ss : List Suite} (hakms : e.akms = s :: ss) :
    m (o + 14 + 4 * e.pairs.length + 5) = s.suiteType := by
  have hl := (laid h).akms
  have hlen : e.protocol.head.length = 6 := by rw [hp]; rfl
  rw [hlen, hakms, List.flatMap_cons, spells_append] at hl
  have htype := (Suite.spells hl.1).2
  rwa [show o + 10 + 6 + 4 * e.pairs.length + 3 = o + 14 + 4 * e.pairs.length + 5 by omega] at htype

theorem conforms_wpa_iff (hp : e.protocol = .wpa) :
    e.Conforms ↔
      (e.group.Own .wpa ∨ e.group.suiteType ∉ [1#8, 2#8, 4#8, 5#8]) ∧ e.PairRight ∧ e.AuxRight ∧
        (∃ s ss, e.akms = s :: ss ∧ (s.Own .wpa ∨ s.suiteType ∉ [1#8, 2#8]) ∧
          ∀ s' ∈ ss.head?, ¬ (s'.Own .wpa ∧ s'.suiteType ∈ [1#8, 2#8])) := by
  have hshown : ∀ {vie : Mem} {len o : Nat} (privacy : Bool), e.OnlyAt vie len o → ∀ {t},
      vie (o + 14 + 4 * e.pairs.length + 5) = t →
      (e.Shown ((bssCipherParse privacy false len).run vie).1 ↔
        (e.group.Own .wpa ∨ e.group.suiteType ∉ [1#8, 2#8, 4#8, 5#8]) ∧ e.PairRight ∧
          e.AuxRight ∧ wpaMode t = e.mode 0 ∧ some .openSystem = e.mode 1) := by
    intro vie len o privacy honly t ht
    refine shown_wpa_iff hp privacy t ?_
    rw [bssCipherParse_only honly]
    simp only [hp]
    exact parseWpa_run hp honly.spells _ ht
  have hmodes : ∀ {s ss}, e.akms = s :: ss →
      ((wpaMode s.suiteType = e.mode 0 ∧ some .openSystem = e.mode 1) ↔
        (s.Own .wpa ∨ s.suiteType ∉ [1#8, 2#8]) ∧
          ∀ s' ∈ ss.head?, ¬ (s'.Own .wpa ∧ s'.suiteType ∈ [1#8, 2#8])) := by
    intro s ss hakms
    have h0 : e.mode 0 = akmMode .wpa s := by simp [mode, hakms, hp]
    rw [h0, wpaMode_iff]
    refine and_congr_right fun _ => ?_
    cases ss with
    | nil => simp [mode, hakms]
    | cons s' ss =>
        have h1 : e.mode 1 = akmMode .wpa s' := by simp [mode, hakms, hp]
        rw [h1, open_iff]
        simp
  constructor
  · intro h
    cases hakms : e.akms with
    | nil =>
        -- behind the element stands the type of an AKM suite that the element does not have
        have hbehind : e.alone 1 (0 + 14 + 4 * e.pairs.length + 5) = 1 := by
          refine alone_behind e 1 ?_
          have htail := e.tail_ok
          rw [hp] at htail
          have hlen : e.protocol.head.length = 6 := by rw [hp]; rfl
          rw [length_bytes, length_body, hlen, hakms, List.length_nil]
          rcases htail with htail | htail <;> omega
        have hone := ((hshown true (alone_onlyAt e 1) hbehind).mp (h _ _ _ _ (alone_onlyAt e 1)))
        have hmode := hone.2.2.2.1
        simp [wpaMode, mode, hakms] at hmode
    | cons s ss =>
        have honly := alone_onlyAt e 0
        have hone := (hshown true honly (firstAkm hp honly.spells hakms)).mp (h _ _ _ _ honly)
        obtain ⟨hgroup, hpair, haux, hmode⟩ := hone
        have hright := (hmodes hakms).mp hmode
        exact ⟨hgroup, hpair, haux, s, ss, rfl, hright⟩
  · intro h vie len o privacy honly
    obtain ⟨hgroup, hpair, haux, s, ss, hakms, hright⟩ := h
    rw [hshown privacy honly (firstAkm hp honly.spells hakms)]
    exact ⟨hgroup, hpair, haux, (hmodes hakms).mpr hright⟩

/-- The AKM suites of an `RSN` element, one after the other in memory. -/
theorem akmsAt {m : Mem} {o : Nat} (hp : e.protocol = .rsn) (h : Spells m o e.bytes) :
    Spells m (o + 12 + 4 * e.pairs.length) (e.akms.flatMap Suite.bytes) := by
  have hl := (laid h).akms
  have hlen : e.protocol.head.length = 2 := by rw [hp]; rfl
  rwa [hlen, show o + 10 + 2 + 4 * e.pairs.length = o + 12 + 4 * e.pairs.length by omega] at hl

theorem tailAt {m : Mem} {o : Nat} (hp : e.protocol = .rsn) (h : Spells m o e.bytes) :
    Spells m (o + 12 + 4 * e.pairs.length + 4 * e.akms.length) e.tail := by
  have hl := (laid h).tail
  have hlen : e.protocol.head.length = 2 := by rw [hp]; rfl
  rwa [hlen, show o + 10 + 2 + 4 * e.pairs.length + 4 * e.akms.length
    = o + 12 + 4 * e.pairs.length + 4 * e.akms.length by omega] at hl

theorem two_le_tail (hp : e.protocol = .rsn) : 2 ≤ e.tail.length := by
  have htail := e.tail_ok
  rw [hp] at htail
  rcases htail with htail | htail <;> omega

/-- What the parse shows when the walk over the AKM suites ends with `mode` at `o'`. -/
theorem shown_walk_iff (hp : e.protocol = .rsn) (hown : e.group.Own .rsn) {vie : Mem}
    {len o : Nat} (privacy : Bool) (honly : e.OnlyAt vie len o) {mode : Option AuthMode}
    {o' : Nat} (hwalk : ∀ s : Security, s.AuthMode = some .openSystem →
      (akmSuites e.akms.length (o + 12 + 4 * e.pairs.length) s).run vie
        = ({ s with AuthMode := mode }, o')) :
    e.Shown ((bssCipherParse privacy false len).run vie).1 ↔
      e.PairRight ∧ e.AuxRight ∧ mode = e.mode 0 ∧ some .openSystem = e.mode 1 ∧
        (word o').run vie = number e.tail := by
  refine shown_rsn_iff hp hown privacy mode _ ?_
  rw [bssCipherParse_only honly]
  simp only [hp]
  exact parseRsn_run hp honly.spells _ hown (hwalk _ rfl)

/-- The walk stops at a suite that is not the format's. -/
theorem akmSuites_foreign {m : Mem} {o n : Nat} (h : (Reads.cells [o, o + 1, o + 2]).run m ≠ rsnOui)
    (s : Security) : (akmSuites n o s).run m = (s, o) := by
  cases n with
  | zero => rfl
  | succ n =>
      rw [akmSuites, Reads.run_bind, if_pos h]
      rfl

theorem akmSuites_own {m : Mem} {o n : Nat} (h : (Reads.cells [o, o + 1, o + 2]).run m = rsnOui)
    (s : Security) :
    (akmSuites (n + 1) o s).run m = (akmSuites n (o + (n + 1) * 4) (s.rsnAuth (m (o + 3)))).run m := by
  rw [akmSuites, Reads.run_bind, h, if_neg (fun hne => hne rfl), Reads.run_bind]
  rfl

theorem cells_own {m : Mem} {o : Nat} {s : Suite} (h : Spells m o s.bytes) :
    (Reads.cells [o, o + 1, o + 2]).run m = List.ofFn s.OUI := by
  rw [Reads.run_cells]
  exact (Suite.spells h).1

theorem four_of_le {l : List (BitVec 8)} (h : 4 ≤ l.length) :
    ∃ a b c d rest, l = a :: b :: c :: d :: rest := by
  rcases l with - | ⟨a, - | ⟨b, - | ⟨c, - | ⟨d, rest⟩⟩⟩⟩
  · exact absurd h (by simp)
  · exact absurd h (by simp)
  · exact absurd h (by simp)
  · exact absurd h (by simp)
  · exact ⟨a, b, c, d, rest, rfl⟩

section Walk

variable {m : Mem} {o : Nat} {s : Suite} {ss : List Suite} {sec : Security}

/-- The walk over no AKM suite. -/
theorem walk_none (hakms : e.akms = []) (hsec : sec.AuthMode = some .openSystem) :
    (akmSuites e.akms.length o sec).run m = ({ sec with AuthMode := some .openSystem }, o) := by
  rw [hakms, List.length_nil, akmSuites, ← hsec]
  rfl

/-- The first AKM suite is not the format's. -/
theorem walk_foreign (hakms : e.akms = s :: ss) (h : Spells m o (e.akms.flatMap Suite.bytes))
    (hs : ¬ s.Own .rsn) (hsec : sec.AuthMode = some .openSystem) :
    (akmSuites e.akms.length o sec).run m = ({ sec with AuthMode := some .openSystem }, o) := by
  rw [hakms, List.flatMap_cons, spells_append] at h
  have hne : (Reads.cells [o, o + 1, o + 2]).run m ≠ rsnOui := by
    rw [cells_own h.1]
    exact hs
  rw [akmSuites_foreign hne, ← hsec]

/-- Behind the first AKM suite the walk goes on after the list. -/
theorem walk_first (hakms : e.akms = s :: ss) (h : Spells m o (e.akms.flatMap Suite.bytes))
    (hs : s.Own .rsn) (hsec : sec.AuthMode = some .openSystem) :
    (akmSuites e.akms.length o sec).run m
      = (akmSuites ss.length (o + 4 * e.akms.length)
          { sec with AuthMode := rsnMode s.suiteType }).run m := by
  rw [hakms, List.flatMap_cons, spells_append] at h
  rw [hakms, List.length_cons, akmSuites_own ((cells_own h.1).trans hs), (Suite.spells h.1).2,
    rsnAuth_open hsec, Nat.mul_comm]

end Walk

/-- Behind the AKM suites stand the capabilities, and no third byte of the OUI: a count of so many
PMKIDs has no room. -/
theorem tail_foreign (hp : e.protocol = .rsn) {o : Nat}
    (ho : o = 0 + 12 + 4 * e.pairs.length + 4 * e.akms.length) :
    (Reads.cells [o, o + 1, o + 2]).run (e.alone 0) ≠ rsnOui := by
  have honly := alone_onlyAt e 0
  have htail := tailAt hp honly.spells
  rw [← ho] at htail
  have hlen : e.protocol.head.length = 2 := by rw [hp]; rfl
  have hfits := e.fits
  have hthird : e.alone 0 (o + 2) ≠ 0xac#8 := by
    have hok := e.tail_ok
    rw [hp] at hok
    rcases hok with hok | hok
    · rw [alone_behind e 0 (by rw [length_bytes, length_body]; omega)]
      decide
    · obtain ⟨c0, c1, lo, hi, rest, htl⟩ := four_of_le (show 4 ≤ e.tail.length by omega)
      rw [htl] at htail hok
      obtain ⟨-, -, hlo, -⟩ := htail
      rw [show o + 1 + 1 = o + 2 by omega] at hlo
      rw [hlo]
      intro hac
      have hcount : number (lo :: hi :: rest) = hi.toNat * 256 + lo.toNat := rfl
      rw [List.drop_succ_cons, List.drop_succ_cons, List.drop_zero, hcount, hac] at hok
      have hac' : (0xac#8).toNat = 172 := rfl
      have hroom : (c0 :: c1 :: 0xac#8 :: hi :: rest).length ≤ 255 := by
        rw [← hac, ← htl]
        omega
      rw [hac'] at hok
      omega
  rw [Reads.run_cells]
  intro heq
  exact hthird (List.cons.inj (List.cons.inj (List.cons.inj heq).2).2).1

theorem conforms_rsn_iff (hp : e.protocol = .rsn) :
    e.Conforms ↔
      (e.group.Own .rsn ∧ e.PairRight ∧ e.AuxRight ∧
          (e.akms = [] ∨ ∃ s, e.akms = [s] ∧ s.Own .rsn)) ∨
        (¬ e.group.Own .rsn ∧ ¬ e.Advertises 4#8 ∧ ¬ e.Advertises 2#8 ∧ e.akms = [] ∧
          number e.tail = 0) := by
  by_cases hown : e.group.Own .rsn
  · simp only [hown, true_and, not_true, false_and, or_false]
    constructor
    · intro h
      have honly := alone_onlyAt e 0
      have hsuites := akmsAt hp honly.spells
      have hshown := h _ _ _ true honly
      cases hakms : e.akms with
      | nil =>
          have hone := (shown_walk_iff hp hown true honly fun _ => walk_none hakms).mp hshown
          exact ⟨hone.1, hone.2.1, Or.inl rfl⟩
      | cons s ss =>
          have hmode : e.mode 0 = akmMode .rsn s := by simp [mode, hakms, hp]
          have hsOwn : s.Own .rsn := by
            by_contra hforeign
            have hone := (shown_walk_iff hp hown true honly fun _ =>
              walk_foreign hakms hsuites hforeign).mp hshown
            exact akmMode_rsn_ne s (hmode.symm.trans hone.2.2.1.symm)
          cases ss with
          | nil =>
              have hone := (shown_walk_iff hp hown true honly fun _ hsec =>
                walk_first hakms hsuites hsOwn hsec).mp hshown
              exact ⟨hone.1, hone.2.1, Or.inr ⟨s, rfl, hsOwn⟩⟩
          | cons s' ss =>
              have hone := (shown_walk_iff hp hown true honly fun _ hsec =>
                (walk_first hakms hsuites hsOwn hsec).trans
                  (akmSuites_foreign (tail_foreign hp rfl) _)).mp hshown
              have hsecond : e.mode 1 = akmMode .rsn s' := by simp [mode, hakms, hp]
              exact absurd (hsecond.symm.trans hone.2.2.2.1.symm) (akmMode_rsn_ne s')
    · intro h vie len o privacy honly
      obtain ⟨hpair, haux, hakms⟩ := h
      have htail := tailAt hp honly.spells
      have hnumber := word_number htail (two_le_tail hp)
      rcases hakms with hakms | ⟨s, hakms, hsOwn⟩
      · have hmode : ∀ i, some .openSystem = e.mode i := by
          intro i
          simp [mode, hakms]
        rw [hakms, List.length_nil] at hnumber
        exact (shown_walk_iff hp hown privacy honly fun _ => walk_none hakms).mpr
          ⟨hpair, haux, hmode 0, hmode 1, hnumber⟩
      · have hsuites := akmsAt hp honly.spells
        have h0 : rsnMode s.suiteType = e.mode 0 := by
          rw [← akmMode_own hsOwn]
          simp [mode, hakms, hp]
        have h1 : some .openSystem = e.mode 1 := by simp [mode, hakms]
        exact (shown_walk_iff hp hown privacy honly fun _ hsec =>
          walk_first hakms hsuites hsOwn hsec).mpr ⟨hpair, haux, h0, h1, hnumber⟩
  · simp only [hown, false_and, false_or, not_false_eq_true, true_and]
    have hshown : ∀ {vie : Mem} {len o : Nat} (privacy : Bool), e.OnlyAt vie len o →
        ((bssCipherParse privacy false len).run vie).1 = .default privacy := by
      intro vie len o privacy honly
      rw [bssCipherParse_only honly]
      simp only [hp]
      exact parseRsn_foreign hp honly.spells _ hown
    rw [← shown_foreign_iff hp hown true]
    constructor
    · intro h
      have hone := h _ _ _ true (alone_onlyAt e 0)
      rwa [hshown true (alone_onlyAt e 0)] at hone
    · intro h vie len o privacy honly
      rw [hshown privacy honly, shown_foreign_iff hp hown]
      exact (shown_foreign_iff hp hown true).mp h

/-- **Ciphers as the element shows them.** -/
theorem conforms_iff (e : SecurityElement) : e.Conforms ↔ e.Right := by
  unfold Right
  cases hp : e.protocol with
  | wpa => exact conforms_wpa_iff hp
  | rsn => exact conforms_rsn_iff hp

/-- An `RSN` element: the group cipher TKIP, the pairwise ciphers CCMP, TKIP and WEP, and two AKM
suites. -/
def twoAkms : SecurityElement where
  protocol := .rsn
  group := ⟨rsnSuite, 2⟩
  pairs := [⟨rsnSuite, 4⟩, ⟨rsnSuite, 2⟩, ⟨rsnSuite, 1⟩]
  akms := [⟨rsnSuite, 1⟩, ⟨rsnSuite, 2⟩]
  tail := [0, 0]
  tail_ok := Or.inl rfl
  fits := by decide

theorem twoAkms_broken : ¬ twoAkms.Conforms := by
  rw [conforms_rsn_iff rfl]
  intro h
  rcases h with h | h
  · have hlast := h.2.2.1 [⟨rsnSuite, 4⟩, ⟨rsnSuite, 2⟩] ⟨rsnSuite, 1⟩ rfl
    exact hlast.1 rfl
  · exact absurd h.2.2.2.1 (by decide)

end ExtDrv.Rt3370.Bss.SecurityElement
