import ExtDrv.Rt3370.BssTable

/-!
# Joining by BSSID

`CntlOidRTBssidProc` (`sta/connect.c`): the network with the BSSID that was set is looked for in
`ScanTab`; where it is there and fits, it is copied into `SsidBssTab` and joined, else a scan or an
ad-hoc network is started. The entry is looked at before the index is known to be one.
-/

namespace ExtDrv.Rt3370.Bss

open Memory

/-- `BSS_NOT_FOUND`. -/
def bssNotFound : Nat := 0xFFFFFFFF

/-- `StaCfg.BssType`. -/
inductive StaBssType
  | bssAdhoc
  | bssInfra
  | bssAny
  | bssMonitor
  deriving DecidableEq

/-- States of the control machine. -/
inductive CntlState
  | idle
  | waitDisassoc
  | waitJoin
  | waitStart
  | waitOidListScan
  deriving DecidableEq

/-- What is given to `MlmeEnqueue`. -/
inductive MlmeReq
  | scan (Ssid : List (BitVec 8)) (BssType : StaBssType)
  | start (Ssid : List (BitVec 8))
  | disassoc (Addr : Bytes 6)
  | join (BssIdx : Nat)

/-- What the routine reads and writes. `BssEntry` of `ScanTab` at an index that is none of the
table is what the memory there holds. -/
structure Cntl where
  ScanTab : BssTable
  pool : Pool
  -- `MlmeAux`
  auxBssid : Bytes 6
  auxBssType : StaBssType
  auxChannel : Nat
  auxSsid : Mem
  auxSsidLen : Nat
  AutoReconnectSsid : Mem
  AutoReconnectSsidLen : Nat
  BssIdx : Nat
  SsidBssTab : BssTable
  -- `StaCfg`
  BssType : StaBssType
  AuthMode : Rt3370.AuthMode
  WepStatus : Rt3370.WepStatus
  WpaSupplicantUP : BitVec 8
  bNotFirstScan : Bool
  LastScanTime : BitVec 32
  PairCipher : Rt3370.WepStatus
  GroupCipher : Rt3370.WepStatus
  RsnCapability : Nat
  bMixCipher : Bool
  -- `CommonCfg`
  Bssid : Bytes 6
  Channel : Nat
  -- `OpStatusFlags`
  infraOn : Bool
  adhocOn : Bool
  CurrState : CntlState

/-- The state the routine leaves, what it has enqueued, and the entries of `ScanTab` it has read. -/
structure Handled where
  cntl : Cntl
  queue : List MlmeReq
  reads : List Nat

/-! ## The routine -/

/-- `SSID_EQUAL`. -/
def ssidEqual (ssid1 : Mem) (len1 : Nat) (ssid2 : Mem) (len2 : Nat) : Bool :=
  decide (len1 = len2) && decide (segment ssid1 0 len1 = segment ssid2 0 len1)

/-- The index of an entry that does not fit is replaced. -/
def Cntl.checkEntry (s : Cntl) (pInBss : BssEntry) (BssIdx : Nat) : Nat :=
  let BssIdx :=
    if ssidEqual s.auxSsid s.auxSsidLen pInBss.Ssid pInBss.SsidLen = false then bssNotFound
    else BssIdx
  if s.AuthMode.toNat ≤ AuthMode.autoSwitch.toNat then
    if s.WepStatus ≠ pInBss.security.WepStatus then bssNotFound else BssIdx
  else
    if some s.AuthMode ≠ pInBss.security.AuthMode ∧ some s.AuthMode ≠ pInBss.security.AuthModeAux
    then bssNotFound
    else BssIdx

/-- The entries `BssTableSearch` reads. -/
def searchReads (tab : BssTable) (BssIdx : Nat) : List Nat := List.range (min tab.BssNr (BssIdx + 1))

/-- Nothing to join. -/
def Cntl.notFound (s : Cntl) (now : BitVec 32) : Cntl × List MlmeReq :=
  if s.BssType = .bssInfra ∨ s.bNotFirstScan = false then
    ({ s with
        bNotFirstScan := decide (s.BssType = .bssAdhoc) || s.bNotFirstScan
        CurrState := .waitOidListScan
        LastScanTime := now },
      [.scan (segment s.auxSsid 0 s.auxSsidLen) .bssAny])
  else
    ({ s with CurrState := .waitStart }, [.start (segment s.auxSsid 0 (min s.auxSsidLen 32))])

/-- `LinkDown` of an ad-hoc network, as far as the routine goes on to read it. -/
def Cntl.linkDown (s : Cntl) : Cntl :=
  if s.BssType = .bssMonitor then s
  else
    let (pool, ScanTab) := bssTableDeleteEntry (s.pool, s.ScanTab) s.Bssid s.Channel
    { s with
      pool := pool
      ScanTab := ScanTab
      adhocOn := false
      bNotFirstScan := decide (s.BssType = .bssAdhoc) && s.bNotFirstScan }

/-- The pairwise and the group cipher of one of the suites of the network. -/
def Cntl.suite (s : Cntl) (suite : CipherSuite) : Cntl :=
  { s with
    GroupCipher := suite.GroupCipher
    PairCipher :=
      if s.WepStatus = suite.PairCipher then suite.PairCipher
      else if suite.PairCipherAux ≠ .encryptionDisabled then suite.PairCipherAux
      -- no second one: the station goes down to TKIP
      else .encryption2Enabled }

/-- The ciphers are set to those of the network. -/
def Cntl.ciphers (s : Cntl) (pInBss : BssEntry) : Cntl :=
  let s := { s with
    PairCipher := s.WepStatus
    GroupCipher := if s.WpaSupplicantUP = 0 then s.WepStatus else s.GroupCipher }
  let s :=
    if s.AuthMode = .wpa ∨ s.AuthMode = .wpaPsk then s.suite pInBss.security.WPA
    else if s.AuthMode = .wpa2 ∨ s.AuthMode = .wpa2Psk then
      { s.suite pInBss.security.WPA2 with RsnCapability := pInBss.security.WPA2.RsnCapability }
    else s
  { s with bMixCipher := decide (s.PairCipher ≠ s.GroupCipher) }

/-- The entry becomes the target. -/
def Cntl.aim (s : Cntl) (pInBss : BssEntry) : Cntl :=
  { s with
    AutoReconnectSsid := store (store s.AutoReconnectSsid 0 (List.replicate 32 0)) 0
      (segment pInBss.Ssid 0 pInBss.SsidLen)
    AutoReconnectSsidLen := pInBss.SsidLen
    BssIdx := 0
    SsidBssTab := { s.SsidBssTab with
      BssNr := 1
      BssEntry := Function.update s.SsidBssTab.BssEntry 0 pInBss } }

/-- No active association: the target is joined at once. -/
def Cntl.joinTarget (s : Cntl) : Cntl × List MlmeReq :=
  let s := if s.adhocOn then s.linkDown else s
  let s := s.ciphers (s.SsidBssTab.BssEntry 0)
  ({ s with CurrState := .waitJoin }, [.join s.BssIdx])

def Cntl.found (s : Cntl) (pInBss : BssEntry) : Cntl × List MlmeReq :=
  let s := s.aim pInBss
  if s.infraOn then ({ s with CurrState := .waitDisassoc }, [.disassoc s.Bssid])
  else s.joinTarget

/-- What the user wants is recorded. -/
def Cntl.ask (s : Cntl) (pOidBssid : Bytes 6) : Cntl :=
  { s with auxBssid := pOidBssid, auxBssType := s.BssType }

/-- The index after the checks, and the entries read for it. `WPA_SUPPLICANT_ENABLE_WPS` leaves the
checks out. -/
def Cntl.search (s : Cntl) (pOidBssid : Bytes 6) : Nat × List Nat :=
  let BssIdx := (bssTableSearch s.ScanTab pOidBssid s.auxChannel).getD bssNotFound
  let reads := searchReads s.ScanTab BssIdx
  if s.WpaSupplicantUP &&& 0x80 ≠ 0 then (BssIdx, reads)
  else (s.checkEntry (s.ScanTab.BssEntry BssIdx) BssIdx, reads ++ [BssIdx])

def Cntl.follow (s : Cntl) (now : BitVec 32) (BssIdx : Nat) (reads : List Nat) : Handled :=
  if BssIdx = bssNotFound then ⟨(s.notFound now).1, (s.notFound now).2, reads⟩
  else
    let pInBss := s.ScanTab.BssEntry BssIdx
    ⟨(s.found pInBss).1, (s.found pInBss).2, reads ++ [BssIdx]⟩

/-- `CntlOidRTBssidProc`. `now` is what a scan would take for its time. -/
def cntlOidRTBssidProc (s : Cntl) (pOidBssid : Bytes 6) (now : BitVec 32) : Handled :=
  let s := s.ask pOidBssid
  s.follow now (s.search pOidBssid).1 (s.search pOidBssid).2

/-! ## What is wanted -/

/-- The entry has the BSSID, in the band of the channel. -/
def Cntl.InBand (s : Cntl) (pOidBssid : Bytes 6) (e : BssEntry) : Prop :=
  e.Bssid = pOidBssid ∧ (e.Channel ≤ 14 ↔ s.auxChannel ≤ 14)

/-- The SSID is the one asked for. -/
def Cntl.Named (s : Cntl) (e : BssEntry) : Prop :=
  s.auxSsidLen = e.SsidLen ∧ segment s.auxSsid 0 s.auxSsidLen = segment e.Ssid 0 s.auxSsidLen

/-- The security is that of the station. -/
def Cntl.Secured (s : Cntl) (e : BssEntry) : Prop :=
  if s.AuthMode.toNat ≤ AuthMode.autoSwitch.toNat then s.WepStatus = e.security.WepStatus
  else some s.AuthMode = e.security.AuthMode ∨ some s.AuthMode = e.security.AuthModeAux

def Cntl.Fits (s : Cntl) (e : BssEntry) : Prop := s.Named e ∧ s.Secured e

/-- One of the first `BssNr` entries. -/
def Cntl.Matches (s : Cntl) (pOidBssid : Bytes 6) (i : Nat) : Prop :=
  i < s.ScanTab.BssNr ∧ s.InBand pOidBssid (s.ScanTab.BssEntry i) ∧ s.Fits (s.ScanTab.BssEntry i)

/-- Only entries of the table are read, a join is enqueued if and only if one matches, and then of
a copy of it; otherwise a scan or an ad-hoc network is started. -/
structure PicksMatch (s : Cntl) (pOidBssid : Bytes 6) (r : Handled) : Prop where
  reads : ∀ i ∈ r.reads, i < s.ScanTab.BssNr
  join : (∃ BssIdx, .join BssIdx ∈ r.queue) ↔ ∃ i, s.Matches pOidBssid i
  target : ∀ BssIdx, .join BssIdx ∈ r.queue → BssIdx < r.cntl.SsidBssTab.BssNr ∧
    ∃ i, s.Matches pOidBssid i ∧ r.cntl.SsidBssTab.BssEntry BssIdx = s.ScanTab.BssEntry i
  other : (∀ BssIdx, .join BssIdx ∉ r.queue) →
    (∃ Ssid BssType, .scan Ssid BssType ∈ r.queue) ∨ ∃ Ssid, .start Ssid ∈ r.queue

/-- The table has the BSSID in the band, and if an entry matches, the first with the BSSID does. -/
def FirstFits (s : Cntl) (pOidBssid : Bytes 6) : Prop :=
  ∃ i, i < s.ScanTab.BssNr ∧ s.InBand pOidBssid (s.ScanTab.BssEntry i) ∧
    (∀ j, j < i → ¬ s.InBand pOidBssid (s.ScanTab.BssEntry j)) ∧
    ((∃ j, s.Matches pOidBssid j) → s.Fits (s.ScanTab.BssEntry i))

/-! ## The parts -/

variable (s : Cntl) (e : BssEntry)

instance : Decidable (s.Named e) := inferInstanceAs (Decidable (_ ∧ _))

instance : Decidable (s.Secured e) := inferInstanceAs (Decidable (ite _ _ _))

instance : Decidable (s.Fits e) := inferInstanceAs (Decidable (_ ∧ _))

theorem ssidEqual_iff : ssidEqual s.auxSsid s.auxSsidLen e.Ssid e.SsidLen = true ↔ s.Named e := by
  rw [ssidEqual, Bool.and_eq_true, decide_eq_true_iff, decide_eq_true_iff, Cntl.Named]

/-- The checks replace the index of an entry that does not fit. -/
theorem checkEntry_eq (i : Nat) : s.checkEntry e i = if s.Fits e then i else bssNotFound := by
  have hname : (if ssidEqual s.auxSsid s.auxSsidLen e.Ssid e.SsidLen = false then bssNotFound
      else i) = if s.Named e then i else bssNotFound := by
    rw [← ite_not]
    refine if_congr ?_ rfl rfl
    rw [Bool.not_eq_false, ssidEqual_iff]
  have hsecure : s.checkEntry e i
      = if s.Secured e then (if s.Named e then i else bssNotFound) else bssNotFound := by
    rw [← hname, Cntl.checkEntry]
    by_cases hmode : s.AuthMode.toNat ≤ AuthMode.autoSwitch.toNat
    · simp [Cntl.Secured, hmode]
    · simp [Cntl.Secured, hmode, ← not_or]
  rw [hsecure]
  by_cases hnamed : s.Named e <;> by_cases hsecured : s.Secured e <;>
    simp [Cntl.Fits, hnamed, hsecured]

theorem linkDown_target : (s.linkDown).SsidBssTab = s.SsidBssTab ∧ s.linkDown.BssIdx = s.BssIdx := by
  unfold Cntl.linkDown
  split <;> exact ⟨rfl, rfl⟩

theorem ciphers_target :
    (s.ciphers e).SsidBssTab = s.SsidBssTab ∧ (s.ciphers e).BssIdx = s.BssIdx := by
  unfold Cntl.ciphers Cntl.suite
  dsimp only
  split
  · exact ⟨rfl, rfl⟩
  · split <;> exact ⟨rfl, rfl⟩

theorem joinTarget_joins :
    s.joinTarget.2 = [.join s.BssIdx] ∧ s.joinTarget.1.SsidBssTab = s.SsidBssTab := by
  obtain ⟨s', hs', htab, hidx⟩ : ∃ s', (if s.adhocOn then s.linkDown else s) = s' ∧
      s'.SsidBssTab = s.SsidBssTab ∧ s'.BssIdx = s.BssIdx := by
    split
    · exact ⟨_, rfl, linkDown_target s⟩
    · exact ⟨s, rfl, rfl, rfl⟩
  obtain ⟨htab', hidx'⟩ := ciphers_target s' (s'.SsidBssTab.BssEntry 0)
  simp only [Cntl.joinTarget, hs']
  exact ⟨by rw [hidx', hidx], htab'.trans htab⟩

/-- An entry that is found is joined. -/
theorem found_joins (hinfra : s.infraOn = false) : (s.found e).2 = [.join 0] ∧
    (s.found e).1.SsidBssTab.BssNr = 1 ∧ (s.found e).1.SsidBssTab.BssEntry 0 = e := by
  have hfound : s.found e = (s.aim e).joinTarget := if_neg (by simp [Cntl.aim, hinfra])
  obtain ⟨hqueue, htab⟩ := joinTarget_joins (s.aim e)
  rw [hfound, htab]
  refine ⟨hqueue, rfl, ?_⟩
  exact Function.update_self 0 e s.SsidBssTab.BssEntry

/-- Nothing is joined where nothing is found. -/
theorem notFound_starts (now : BitVec 32) :
    (∃ Ssid, (s.notFound now).2 = [.scan Ssid .bssAny])
      ∨ ∃ Ssid, (s.notFound now).2 = [.start Ssid] := by
  unfold Cntl.notFound
  split
  · exact .inl ⟨_, rfl⟩
  · exact .inr ⟨_, rfl⟩

/-! ## When a matching entry is picked -/

section

variable {s : Cntl} {pOidBssid : Bytes 6} {now : BitVec 32} {i : Nat}

/-- The search finds the first entry in the band. -/
theorem search_eq_some : bssTableSearch s.ScanTab pOidBssid s.auxChannel = some i ↔
    i < s.ScanTab.BssNr ∧ s.InBand pOidBssid (s.ScanTab.BssEntry i) ∧
      ∀ j, j < i → ¬ s.InBand pOidBssid (s.ScanTab.BssEntry j) := by
  have hband (j : Nat) : ((decide ((s.ScanTab.BssEntry j).Channel ≤ 14) == decide (s.auxChannel ≤ 14))
      && decide ((s.ScanTab.BssEntry j).Bssid = pOidBssid)) = true
      ↔ s.InBand pOidBssid (s.ScanTab.BssEntry j) := by
    rw [Bool.and_eq_true, beq_iff_eq, decide_eq_decide, decide_eq_true_iff, Cntl.InBand, and_comm]
  rw [bssTableSearch, List.find?_range_eq_some, hband, List.mem_range]
  constructor
  · rintro ⟨hin, hlt, hbefore⟩
    refine ⟨hlt, hin, fun j hj hjin => ?_⟩
    have hnot := hbefore j hj
    rw [(hband j).mpr hjin] at hnot
    cases hnot
  · rintro ⟨hlt, hin, hbefore⟩
    refine ⟨hin, hlt, fun j hj => ?_⟩
    rw [Bool.not_eq_true', ← Bool.not_eq_true, hband]
    exact hbefore j hj

/-- The entry that is found first decides. -/
theorem search_of_some (hoverride : s.WpaSupplicantUP &&& 0x80 = 0)
    (hsearch : bssTableSearch s.ScanTab pOidBssid s.auxChannel = some i) :
    s.search pOidBssid = (if s.Fits (s.ScanTab.BssEntry i) then i else bssNotFound,
      searchReads s.ScanTab i ++ [i]) := by
  rw [Cntl.search, hsearch, Option.getD_some, checkEntry_eq]
  exact if_neg (not_not.mpr hoverride)

/-- Where none is found, the entry behind `BSS_NOT_FOUND` is read. -/
theorem search_of_none (hoverride : s.WpaSupplicantUP &&& 0x80 = 0)
    (hsearch : bssTableSearch s.ScanTab pOidBssid s.auxChannel = none) :
    bssNotFound ∈ (s.search pOidBssid).2 := by
  rw [Cntl.search, hsearch, Option.getD_none, if_neg (not_not.mpr hoverride)]
  exact List.mem_append_right _ List.mem_cons_self

theorem follow_reads (now : BitVec 32) (BssIdx : Nat) (reads : List Nat) :
    (s.follow now BssIdx reads).reads = reads ∨
      (s.follow now BssIdx reads).reads = reads ++ [BssIdx] := by
  unfold Cntl.follow
  split
  · exact .inl rfl
  · exact .inr rfl

theorem reads_of_none (hoverride : s.WpaSupplicantUP &&& 0x80 = 0)
    (hsearch : bssTableSearch s.ScanTab pOidBssid s.auxChannel = none) :
    bssNotFound ∈ (cntlOidRTBssidProc s pOidBssid now).reads := by
  have hmem := search_of_none (s := s.ask pOidBssid) hoverride hsearch
  rcases follow_reads (s := s.ask pOidBssid) now
    ((s.ask pOidBssid).search pOidBssid).1 ((s.ask pOidBssid).search pOidBssid).2 with heq | heq
  · exact heq ▸ hmem
  · exact heq ▸ List.mem_append_left _ hmem

theorem mem_searchReads {j : Nat} (h : j ∈ searchReads s.ScanTab i) : j < s.ScanTab.BssNr :=
  (List.mem_range.mp h).trans_le (Nat.min_le_left _ _)

end

/-- **Picking a match**: of a station that is not in an association and has no override of the
supplicant, a matching entry is picked if and only if the BSSID is in the table, and the first entry
with it matches if any does. -/
theorem cntlOidRTBssidProc_iff (s : Cntl) (pOidBssid : Bytes 6) (now : BitVec 32)
    (hnr : s.ScanTab.BssNr < 256) (hoverride : s.WpaSupplicantUP &&& 0x80 = 0)
    (hinfra : s.infraOn = false) :
    PicksMatch s pOidBssid (cntlOidRTBssidProc s pOidBssid now) ↔ FirstFits s pOidBssid := by
  cases hsearch : bssTableSearch s.ScanTab pOidBssid s.auxChannel with
  | none =>
    refine iff_of_false (fun h => ?_) ?_
    · have hin : bssNotFound ∈ (cntlOidRTBssidProc s pOidBssid now).reads :=
        reads_of_none hoverride hsearch
      exact absurd ((h.reads _ hin).trans hnr) (by decide)
    · rintro ⟨i, hlt, hin, hbefore, -⟩
      rw [search_eq_some.mpr ⟨hlt, hin, hbefore⟩] at hsearch
      cases hsearch
  | some i =>
    obtain ⟨hlt, hin, hbefore⟩ := search_eq_some.mp hsearch
    have hfirst : FirstFits s pOidBssid ↔
        ((∃ j, s.Matches pOidBssid j) → s.Fits (s.ScanTab.BssEntry i)) := by
      constructor
      · rintro ⟨j, hj, hjin, hjbefore, hfits⟩
        have hij := search_eq_some.mpr ⟨hj, hjin, hjbefore⟩
        rw [hsearch, Option.some_inj] at hij
        rw [hij]
        exact hfits
      · exact fun hfits => ⟨i, hlt, hin, hbefore, hfits⟩
    rw [hfirst]
    have hproc : cntlOidRTBssidProc s pOidBssid now = (s.ask pOidBssid).follow now
        (if s.Fits (s.ScanTab.BssEntry i) then i else bssNotFound)
        (searchReads s.ScanTab i ++ [i]) := by
      have hpair := search_of_some (s := s.ask pOidBssid) hoverride hsearch
      rw [cntlOidRTBssidProc, hpair]
      rfl
    have hreads (j : Nat) (hj : j ∈ searchReads s.ScanTab i ++ [i]) : j < s.ScanTab.BssNr := by
      rcases List.mem_append.mp hj with hj | hj
      · exact mem_searchReads hj
      · exact List.mem_singleton.mp hj ▸ hlt
    by_cases hfits : s.Fits (s.ScanTab.BssEntry i)
    · refine iff_of_true ?_ fun _ => hfits
      have hne : i ≠ bssNotFound := by
        rintro rfl
        exact absurd (hlt.trans hnr) (by decide)
      obtain ⟨hqueue, hone, hcopy⟩ :=
        found_joins (s.ask pOidBssid) (s.ScanTab.BssEntry i) hinfra
      rw [hproc, if_pos hfits, Cntl.follow, if_neg hne]
      have hmatch : s.Matches pOidBssid i := ⟨hlt, hin, hfits⟩
      have hjoin : MlmeReq.join 0 ∈ ((s.ask pOidBssid).found (s.ScanTab.BssEntry i)).2 :=
        hqueue ▸ List.mem_cons_self
      refine ⟨fun j hj => ?_, iff_of_true ⟨0, hjoin⟩ ⟨i, hmatch⟩, fun BssIdx hmem => ?_, fun hno => ?_⟩
      · rcases List.mem_append.mp hj with hj | hj
        · exact hreads j hj
        · exact List.mem_singleton.mp hj ▸ hlt
      · obtain rfl : BssIdx = 0 := by
          have hmem' : MlmeReq.join BssIdx ∈ [MlmeReq.join 0] := hqueue ▸ hmem
          injection List.mem_singleton.mp hmem'
        exact ⟨hone ▸ Nat.one_pos, i, hmatch, hcopy⟩
      · exact absurd hjoin (hno 0)
    · rw [hproc, if_neg hfits, Cntl.follow, if_pos rfl]
      have hnone (BssIdx : Nat) : MlmeReq.join BssIdx ∉ ((s.ask pOidBssid).notFound now).2 := by
        rcases notFound_starts (s.ask pOidBssid) now with ⟨n, heq⟩ | ⟨n, heq⟩ <;> simp [heq]
      have hother : (∃ Ssid BssType, .scan Ssid BssType ∈ ((s.ask pOidBssid).notFound now).2)
          ∨ ∃ Ssid, .start Ssid ∈ ((s.ask pOidBssid).notFound now).2 := by
        rcases notFound_starts (s.ask pOidBssid) now with ⟨n, heq⟩ | ⟨n, heq⟩
        · exact .inl ⟨n, .bssAny, heq ▸ List.mem_cons_self⟩
        · exact .inr ⟨n, heq ▸ List.mem_cons_self⟩
      constructor
      · intro h hmatch
        obtain ⟨BssIdx, hjoin⟩ := h.join.mpr hmatch
        exact absurd hjoin (hnone BssIdx)
      · intro hnot
        refine ⟨hreads, iff_of_false ?_ fun hmatch => hfits (hnot hmatch), ?_, fun _ => hother⟩
        · rintro ⟨BssIdx, hjoin⟩
          exact hnone BssIdx hjoin
        · intro BssIdx hjoin
          exact absurd hjoin (hnone BssIdx)

/-- An open station on channel 6 that wants a network without a name, and the table it has. -/
def openStation (tab : BssTable) : Cntl where
  ScanTab := tab
  pool := fun _ _ => 0
  auxBssid := .zero 6
  auxBssType := .bssInfra
  auxChannel := 6
  auxSsid := fun _ => 0
  auxSsidLen := 0
  AutoReconnectSsid := fun _ => 0
  AutoReconnectSsidLen := 0
  BssIdx := 0
  SsidBssTab := ⟨0, 0, fun _ => .zero none⟩
  BssType := .bssInfra
  AuthMode := .openSystem
  WepStatus := .encryption1Enabled
  WpaSupplicantUP := 0
  bNotFirstScan := false
  LastScanTime := 0
  PairCipher := .encryptionDisabled
  GroupCipher := .encryptionDisabled
  RsnCapability := 0
  bMixCipher := false
  Bssid := .zero 6
  Channel := 6
  infraOn := false
  adhocOn := false
  CurrState := .idle

/-- Two entries, of which the second matches. -/
def twoEntries : BssTable :=
  ⟨2, 0, fun j => if j = 0 then { BssEntry.zero none with Bssid := fun _ => 1 } else .zero none⟩

theorem cntlOidRTBssidProc_two :
    PicksMatch (openStation twoEntries) (.zero 6)
      (cntlOidRTBssidProc (openStation twoEntries) (.zero 6) 0) := by
  refine (cntlOidRTBssidProc_iff _ _ 0 (by decide) (by decide) rfl).mpr ?_
  refine ⟨1, by decide, ⟨rfl, by decide⟩, fun j hj => ?_, fun _ => ⟨⟨rfl, rfl⟩, rfl⟩⟩
  obtain rfl : j = 0 := by omega
  exact fun hin => absurd (congrFun hin.1 0) (by decide)

/-- **Nothing was scanned yet**: the entry behind `BSS_NOT_FOUND` is read. -/
theorem cntlOidRTBssidProc_empty :
    ¬ PicksMatch (openStation ⟨0, 0, fun _ => .zero none⟩) (.zero 6)
      (cntlOidRTBssidProc (openStation ⟨0, 0, fun _ => .zero none⟩) (.zero 6) 0) := by
  intro h
  have hin : bssNotFound ∈
      (cntlOidRTBssidProc (openStation ⟨0, 0, fun _ => .zero none⟩) (.zero 6) 0).reads :=
    reads_of_none (by decide) rfl
  exact absurd (h.reads _ hin) (Nat.not_lt_zero _)

end ExtDrv.Rt3370.Bss
