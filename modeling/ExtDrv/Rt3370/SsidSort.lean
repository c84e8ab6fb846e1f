import ExtDrv.Lib.ExchangeSort
import ExtDrv.Lib.Run
import ExtDrv.Rt3370.MacTable
import ExtDrv.Rt3370.ScanTable

/-!
# Candidates to join

`BssTableSsidSort` copies the entries of `ScanTab` that fit into `SsidBssTab` and sorts
them. The copies carry the buffers of the entries: when `BssTableInit` clears the table for
the next selection, it zeroes what the scan table has stored in them.
-/

namespace ExtDrv.Rt3370.Bss

open Memory Run

/-! ## What is selected -/

/-- What the selection reads: the wanted network, the station's configuration, and the channels
with a radar check. -/
structure Wanted where
  SsidLen : Nat
  Ssid : Mem
  BssType : BssType
  bAutoConnectIfNoSSID : Bool
  bIEEE80211H : Bool
  Channel : Nat
  ChannelList : List (Nat × Bool)
  PhyMode : Mac.PhyMode
  AuthMode : AuthMode
  WepStatus : WepStatus

namespace Wanted

variable (w : Wanted) (e : BssEntry)

/-- `RadarChannelCheck`. -/
def radarChannelCheck (ch : Nat) : Bool :=
  ((w.ChannelList.find? fun c => c.1 = ch).map Prod.snd).getD false

def isHiddenApIncluded : Bool :=
  w.bIEEE80211H && decide (14 < w.Channel) && w.radarChannelCheck e.Channel && e.Hidden

def ssidEqual : Bool :=
  decide (w.SsidLen = e.SsidLen ∧ segment w.Ssid 0 w.SsidLen = segment e.Ssid 0 w.SsidLen)

/-- The modes for 11n only, and for 11g or 11n. -/
def htFits : Bool :=
  !(decide (e.HtCapabilityLen = 0) &&
      (decide (w.PhyMode = .phy11n_2_4g) || decide (w.PhyMode = .phy11n_5g))) &&
    !(decide (w.PhyMode = .phy11gn_mixed) && decide (e.SupRateLen + e.ExtRateLen < 12))

def authFits : Bool :=
  decide (some w.AuthMode = e.security.AuthMode) ||
    decide (some w.AuthMode = e.security.AuthModeAux)

/-- Without mixed mode there is one cipher. -/
def mixFits (s : CipherSuite) : Bool := s.bMixMode || decide (w.WepStatus = s.GroupCipher)

/-- For TKIP a suite has to have it. -/
def pairFits (s : CipherSuite) : Bool :=
  !(decide (w.WepStatus = .encryption2Enabled) && decide (w.WepStatus ≠ s.PairCipher) &&
    decide (w.WepStatus ≠ s.PairCipherAux))

def groupBelow (s : CipherSuite) : Bool :=
  decide (cipherRank w.WepStatus < cipherRank s.GroupCipher)

def isGroupWep (s : CipherSuite) : Bool :=
  decide (s.GroupCipher = .groupWep40Enabled) || decide (s.GroupCipher = .groupWep104Enabled)

/-- The security of an entry with the wanted name. For WPA2 the strength of the group cipher is
taken from the suite of WPA. -/
def namedSecurityFits : Bool :=
  if AuthMode.wpa.toNat ≤ w.AuthMode.toNat then
    w.authFits e &&
      if w.AuthMode = .wpa ∨ w.AuthMode = .wpaPsk then
        w.mixFits e.security.WPA &&
          !(w.groupBelow e.security.WPA && !isGroupWep e.security.WPA) &&
          w.pairFits e.security.WPA
      else if w.AuthMode = .wpa2 ∨ w.AuthMode = .wpa2Psk then
        w.mixFits e.security.WPA2 &&
          !(w.groupBelow e.security.WPA && !isGroupWep e.security.WPA2) &&
          w.pairFits e.security.WPA2
      else true
  else decide (w.WepStatus = e.security.WepStatus) || e.bSES || e.security.WPA.bMixMode

/-- The security of an entry when any name will do. -/
def anySecurityFits : Bool :=
  if AuthMode.wpa.toNat ≤ w.AuthMode.toNat then
    w.authFits e &&
      if w.AuthMode = .wpa ∨ w.AuthMode = .wpaPsk then
        w.mixFits e.security.WPA && !w.groupBelow e.security.WPA && w.pairFits e.security.WPA
      else if w.AuthMode = .wpa2 ∨ w.AuthMode = .wpa2Psk then
        w.mixFits e.security.WPA2 && !w.groupBelow e.security.WPA2 && w.pairFits e.security.WPA2
      else true
  else decide (w.WepStatus = e.security.WepStatus)

/-- **The selection conditions** for an entry. One without a name is not joined under any name. -/
def selects : Bool :=
  if e.BssType = w.BssType ∧ (w.ssidEqual e || w.isHiddenApIncluded e) then
    w.htFits e && w.namedSecurityFits e && decide (w.SsidLen ≠ 0)
  else if e.BssType = w.BssType ∧ w.SsidLen = 0 then w.htFits e && w.anySecurityFits e
  else false

/-- Without a name, there is a selection only if the station may join any network. -/
def goesOn : Bool := decide (w.SsidLen ≠ 0) || w.bAutoConnectIfNoSSID

end Wanted

/-! ## The selection -/

def BssTable.push (tab : BssTable) (e : Bss.BssEntry) : BssTable :=
  { tab with BssEntry := Function.update tab.BssEntry tab.BssNr e, BssNr := tab.BssNr + 1 }

/-- One turn of the loop. After the turn that fills the table there are no more. -/
def selectTurn (w : Wanted) (scan out : BssTable) (i : Nat) : BssTable :=
  if maxLenOfBssTable ≤ out.BssNr then out
  else if w.selects (scan.BssEntry i) then out.push (scan.BssEntry i)
  else out

/-- It needs room for one entry; without it, nothing is sorted. -/
def bssTableSortByRssi (alloc : Bool) (out : BssTable) : BssTable :=
  if alloc then
    { out with BssEntry := ExchangeSort.exchangeSort BssEntry.Rssi out.BssNr out.BssEntry }
  else out

def bssTableSsidSort (alloc : Bool) (w : Wanted) (scan : BssTable) (s : Pool × BssTable) :
    Pool × BssTable :=
  let s' := bssTableInit s
  if w.goesOn then
    (s'.1, bssTableSortByRssi alloc ((List.range scan.BssNr).foldl (selectTurn w scan) s'.2))
  else s'

/-! ## Runs -/

/-- The pool, `ScanTab` and `MlmeAux.SsidBssTab`. -/
structure Tables where
  pool : Pool
  scan : BssTable
  out : BssTable

/-- The elements of a probe response go to the entry's buffer. -/
def storeProbeRsp (pool : Pool) (scan : BssTable) (i : Nat) (f : Frame) : Pool × BssTable :=
  let e := scan.BssEntry i
  match e.pVarIeFromProbRsp with
  | some p =>
      (Function.update pool p (store (fun _ => 0) 0 (segment f.pVIE 0 f.LengthVIE)),
        { scan with
          BssEntry :=
            Function.update scan.BssEntry i { e with VarIeFromProbeRspLen := f.LengthVIE } })
  | none =>
      (pool, { scan with
        BssEntry := Function.update scan.BssEntry i { e with VarIeFromProbeRspLen := 0 } })

/-- `PeerBeaconAtScanAction`. -/
def peerBeaconAtScan (ad : Adapter) (s : Pool × BssTable) (f : Frame) (isProbeRsp : Bool) :
    Pool × BssTable :=
  let r := bssTableSetEntry ad s.2 f
  match r.2 with
  | some i =>
      if isProbeRsp ∧ f.LengthVIE ≠ 0 then storeProbeRsp s.1 r.1 i f else (s.1, r.1)
  | none => (s.1, r.1)

namespace Selection

inductive Event
  | sort (alloc : Bool) (w : Wanted)
  | heard (ad : Adapter) (f : Frame) (isProbeRsp : Bool)
  | delete (pBssid : Bytes 6) (channel : Nat)

def step (s : Tables) : Event → Tables
  | .sort alloc w =>
      let r := bssTableSsidSort alloc w s.scan (s.pool, s.out)
      { s with pool := r.1, out := r.2 }
  | .heard ad f isProbeRsp =>
      let r := peerBeaconAtScan ad (s.pool, s.scan) f isProbeRsp
      { s with pool := r.1, scan := r.2 }
  | .delete pBssid channel =>
      let r := bssTableDeleteEntry (s.pool, s.scan) pBssid channel
      { s with pool := r.1, scan := r.2 }

/-- Every entry of `ScanTab` has the buffer of its number, those of `SsidBssTab` have none. -/
def start (pool : Pool) : Tables where
  pool := pool
  scan := ⟨0, 0, fun i => { BssEntry.zero (some i) with Rssi := -127 }⟩
  out := ⟨0, 0, fun _ => .zero none⟩

end Selection

def BssTable.entries (tab : BssTable) : List Bss.BssEntry :=
  (List.range tab.BssNr).map tab.BssEntry

/-- The elements stored for an entry of the scan table. -/
def Tables.stored (s : Tables) (j : Nat) : Option (List (BitVec 8)) :=
  (s.scan.BssEntry j).pVarIeFromProbRsp.map fun p => segment (s.pool p) 0 maxVieLen

def Descending (es : List BssEntry) : Prop := es.Pairwise fun e e' => e'.Rssi ≤ e.Rssi

/-- The entries that meet the selection conditions. -/
def Wanted.candidates (w : Wanted) (scan : BssTable) : List BssEntry :=
  if w.goesOn then scan.entries.filter w.selects else []

/-- **A selection** is sound: the scan table and what is stored for its entries stay, and the result
is one copy of every candidate, in order. -/
structure SortSound (s s' : Tables) (w : Wanted) : Prop where
  scan : s'.scan = s.scan
  stored : ∀ j < s.scan.BssNr, s'.stored j = s.stored j
  once : s'.out.entries.Perm (w.candidates s.scan)
  order : Descending s'.out.entries

def Undisturbed (s : Tables) : Selection.Event → Prop
  | .sort alloc w => SortSound s (Selection.step s (.sort alloc w)) w
  | _ => True

/-- No entry of `SsidBssTab` has a buffer in which something is stored for an entry of the
scan table. -/
def Tables.Detached (s : Tables) : Prop :=
  ∀ i < maxLenOfBssTable, ∀ j < s.scan.BssNr, ∀ p,
    (s.out.BssEntry i).pVarIeFromProbRsp = some p →
      (s.scan.BssEntry j).pVarIeFromProbRsp = some p →
        ∀ a < maxVieLen, s.pool p a = 0

/-- The room for sorting is there, or there is nothing to sort. -/
def InOrder (s : Tables) (alloc : Bool) (w : Wanted) : Prop :=
  alloc = true ∨ Descending (w.candidates s.scan)

def DetachedSort (s : Tables) : Selection.Event → Prop
  | .sort alloc w => s.Detached ∧ InOrder s alloc w
  | _ => True

/-! ## The copies -/

theorem entries_push (tab : BssTable) (e : BssEntry) :
    (tab.push e).entries = tab.entries ++ [e] := by
  simp only [BssTable.entries, BssTable.push, List.range_succ, List.map_append, List.map_cons,
    List.map_nil, Function.update_self]
  congr 1
  refine List.map_congr_left fun i hi => ?_
  exact Function.update_of_ne (Nat.ne_of_lt (List.mem_range.mp hi)) _ _

/-- The table has the candidates among the entries the loop has come to. -/
theorem selectLoop (w : Wanted) (scan out : BssTable) (hout : out.BssNr = 0) {n : Nat}
    (hn : n ≤ maxLenOfBssTable) :
    ((List.range n).foldl (selectTurn w scan) out).BssNr ≤ n ∧
      ((List.range n).foldl (selectTurn w scan) out).entries
        = ((List.range n).map scan.BssEntry).filter w.selects := by
  induction n with
  | zero =>
    refine ⟨hout.le, ?_⟩
    show (List.range out.BssNr).map out.BssEntry = []
    rw [hout]
    rfl
  | succ n ih =>
    obtain ⟨hnr, hentries⟩ := ih (by omega)
    rw [List.range_succ, List.foldl_append, List.foldl_cons, List.foldl_nil, List.map_append,
      List.filter_append, ← hentries]
    generalize (List.range n).foldl (selectTurn w scan) out = t at hnr
    have hroom : ¬ maxLenOfBssTable ≤ t.BssNr := by omega
    unfold selectTurn
    rw [if_neg hroom]
    by_cases hsel : w.selects (scan.BssEntry n) = true
    · rw [if_pos hsel, entries_push]
      exact ⟨Nat.succ_le_succ hnr, by simp [hsel]⟩
    · rw [if_neg hsel]
      exact ⟨by omega, by simp [hsel]⟩

/-! ## The order -/

theorem perm_sortByRssi (alloc : Bool) (out : BssTable) :
    (bssTableSortByRssi alloc out).entries.Perm out.entries := by
  unfold bssTableSortByRssi
  cases alloc with
  | false => exact List.Perm.refl _
  | true => exact ExchangeSort.permuted_exchangeSort out.BssNr out.BssEntry

theorem descending_sortByRssi (out : BssTable) :
    Descending (bssTableSortByRssi true out).entries := by
  show ((List.range out.BssNr).map _).Pairwise _
  rw [List.pairwise_map]
  refine (List.pairwise_lt_range (n := out.BssNr)).imp_of_mem ?_
  intro i j _ hj hij
  exact ExchangeSort.exchangeSort_le out.BssEntry hij (List.mem_range.mp hj)

/-! ## A selection -/

section Select

variable (alloc : Bool) (w : Wanted) (scan : BssTable) (t : Pool × BssTable)

theorem ssidSort_pool : (bssTableSsidSort alloc w scan t).1 = (bssTableInit t).1 := by
  unfold bssTableSsidSort
  split
  · rfl
  · rfl

/-- The result before it is sorted. -/
theorem ssidSort_entries (hnr : scan.BssNr ≤ maxLenOfBssTable) :
    ∃ out, (bssTableSsidSort alloc w scan t).2.entries = (bssTableSortByRssi alloc out).entries ∧
      out.entries = w.candidates scan := by
  unfold bssTableSsidSort Wanted.candidates
  by_cases hgo : w.goesOn = true
  · rw [if_pos hgo, if_pos hgo]
    exact ⟨_, rfl, (selectLoop w scan _ rfl hnr).2⟩
  · rw [if_neg hgo, if_neg hgo]
    refine ⟨(bssTableInit t).2, ?_, rfl⟩
    cases alloc with
    | false => rfl
    | true => rfl

theorem ssidSort_once (hnr : scan.BssNr ≤ maxLenOfBssTable) :
    (bssTableSsidSort alloc w scan t).2.entries.Perm (w.candidates scan) := by
  obtain ⟨out, hsort, hout⟩ := ssidSort_entries alloc w scan t hnr
  rw [hsort, ← hout]
  exact perm_sortByRssi alloc out

theorem ssidSort_order_iff (hnr : scan.BssNr ≤ maxLenOfBssTable) :
    Descending (bssTableSsidSort alloc w scan t).2.entries
      ↔ alloc = true ∨ Descending (w.candidates scan) := by
  obtain ⟨out, hsort, hout⟩ := ssidSort_entries alloc w scan t hnr
  rw [hsort, ← hout]
  cases alloc with
  | true => exact iff_of_true (descending_sortByRssi out) (Or.inl rfl)
  | false => simp [bssTableSortByRssi]

end Select

theorem holds_iff (tab : BssTable) (p : Nat) :
    tab.holds p = true
      ↔ ∃ i < maxLenOfBssTable, (tab.BssEntry i).pVarIeFromProbRsp = some p := by
  simp only [BssTable.holds, List.any_eq_true, List.mem_range, decide_eq_true_eq]

theorem segment_zero_iff (m : Mem) (n : Nat) :
    segment (fun _ => 0) 0 n = segment m 0 n ↔ ∀ a < n, m a = 0 := by
  simp only [Memory.segment, List.map_inj_left, List.mem_range, Nat.zero_add]
  exact forall₂_congr fun a _ => eq_comm

/-- What is stored for the entries stays exactly if the table that is cleared is detached. -/
theorem stored_iff (s s' : Tables) (hscan : s'.scan = s.scan)
    (hpool : s'.pool = (bssTableInit (s.pool, s.out)).1) :
    (∀ j < s.scan.BssNr, s'.stored j = s.stored j) ↔ s.Detached := by
  have hkeep : ∀ j, (s'.stored j = s.stored j ↔ ∀ p,
      (s.scan.BssEntry j).pVarIeFromProbRsp = some p → s.out.holds p = true →
        ∀ a < maxVieLen, s.pool p a = 0) := by
    intro j
    unfold Tables.stored
    rw [hscan, hpool]
    cases hp : (s.scan.BssEntry j).pVarIeFromProbRsp with
    | none => simp
    | some p =>
      simp only [Option.map_some, Option.some.injEq, forall_eq']
      show segment (if s.out.holds p then fun _ => 0 else s.pool p) 0 maxVieLen = _ ↔ _
      by_cases hh : s.out.holds p = true
      · rw [if_pos hh, segment_zero_iff]
        simp [hh]
      · rw [if_neg hh]
        simp [hh]
  constructor
  · intro h i hi j hj p hout hin
    exact (hkeep j).mp (h j hj) p hin ((holds_iff s.out p).mpr ⟨i, hi, hout⟩)
  · intro h j hj
    refine (hkeep j).mpr fun p hin hh => ?_
    obtain ⟨i, hi, hout⟩ := (holds_iff s.out p).mp hh
    exact h i hi j hj p hout hin

theorem sortSound_iff {s : Tables} (hnr : s.scan.BssNr ≤ maxLenOfBssTable) (alloc : Bool)
    (w : Wanted) :
    SortSound s (Selection.step s (.sort alloc w)) w ↔ s.Detached ∧ InOrder s alloc w := by
  have hstored := stored_iff s (Selection.step s (.sort alloc w)) rfl
    (ssidSort_pool alloc w s.scan (s.pool, s.out))
  have horder := ssidSort_order_iff alloc w s.scan (s.pool, s.out) hnr
  constructor
  · intro h
    exact ⟨hstored.mp h.stored, horder.mp h.order⟩
  · rintro ⟨hdetached, hin⟩
    exact ⟨rfl, hstored.mpr hdetached, ssidSort_once alloc w s.scan _ hnr, horder.mpr hin⟩

/-! ## Every run -/

theorem setEntry_nr (ad : Adapter) {tab : BssTable} (f : Frame)
    (h : tab.BssNr ≤ maxLenOfBssTable) :
    (bssTableSetEntry ad tab f).1.BssNr ≤ maxLenOfBssTable := by
  cases hp : setPlace ad tab f with
  | none =>
    rw [setPlace_none hp]
    exact h
  | some i =>
    rcases setPlace_some hp with ⟨-, htab⟩ | ⟨-, hlt, -, htab⟩ | ⟨-, -, -, htab⟩
    · rw [htab]
      exact h
    · rw [htab]
      exact hlt
    · rw [htab]
      exact h

/-- The store changes one field of one entry. -/
theorem storeProbeRsp_scan (pool : Pool) (scan : BssTable) (i : Nat) (f : Frame) :
    ∃ n, (storeProbeRsp pool scan i f).2 = { scan with
      BssEntry := Function.update scan.BssEntry i
        { scan.BssEntry i with VarIeFromProbeRspLen := n } } := by
  unfold storeProbeRsp
  dsimp only
  split
  · exact ⟨f.LengthVIE, rfl⟩
  · exact ⟨0, rfl⟩

theorem peerBeaconAtScan_nr (ad : Adapter) (t : Pool × BssTable) (f : Frame) (isProbeRsp : Bool) :
    (peerBeaconAtScan ad t f isProbeRsp).2.BssNr = (bssTableSetEntry ad t.2 f).1.BssNr := by
  unfold peerBeaconAtScan
  dsimp only
  split
  · split
    · rename_i i _ _
      obtain ⟨n, hscan⟩ := storeProbeRsp_scan t.1 (bssTableSetEntry ad t.2 f).1 i f
      rw [hscan]
    · rfl
  · rfl

theorem Selection.step_nr {s : Tables} (e : Selection.Event) (h : s.scan.BssNr ≤ maxLenOfBssTable) :
    (Selection.step s e).scan.BssNr ≤ maxLenOfBssTable := by
  cases e with
  | sort alloc w => exact h
  | heard ad f isProbeRsp =>
    show (peerBeaconAtScan ad (s.pool, s.scan) f isProbeRsp).2.BssNr ≤ _
    rw [peerBeaconAtScan_nr]
    exact setEntry_nr ad f h
  | delete pBssid channel =>
    show (bssTableDeleteEntry (s.pool, s.scan) pBssid channel).2.BssNr ≤ _
    cases hp : deletePlace s.scan pBssid channel with
    | none =>
      simp only [bssTableDeleteEntry, hp]
      exact h
    | some i =>
      rw [(bssTableDeleteEntry_nr (s := (s.pool, s.scan)) hp).1]
      exact Nat.sub_le_of_le_add (Nat.le_succ_of_le h)

/-- **Selections**: in every run, all of them are sound exactly if each meets a detached table, and
has the room to sort it needs. -/
theorem ssidSort_iff (pool : Pool) (events : List Selection.Event) :
    Along Selection.step Undisturbed (Selection.start pool) events
      ↔ Along Selection.step DetachedSort (Selection.start pool) events := by
  refine along_iff_along (I := fun s : Tables => s.scan.BssNr ≤ maxLenOfBssTable)
    (fun s e hnr => ?_) (fun s e hnr _ => Selection.step_nr e hnr) (Nat.zero_le _)
  cases e with
  | sort alloc w => exact sortSound_iff hnr alloc w
  | heard ad f isProbeRsp => exact Iff.rfl
  | delete pBssid channel => exact Iff.rfl

/-! ## A second selection -/

/-- The station wants the network `test`, with its key and TKIP. -/
def wantsTest : Wanted where
  SsidLen := 4
  Ssid := securedFrame.Ssid
  BssType := .infra
  bAutoConnectIfNoSSID := false
  bIEEE80211H := false
  Channel := 6
  ChannelList := []
  PhyMode := .phy11bgn_mixed
  AuthMode := .wpaPsk
  WepStatus := .encryption2Enabled

def afterFirst : Tables :=
  Selection.step (Selection.step (Selection.start fun _ _ => 0)
    (.heard ⟨false, false, .zero 6, 0, fun _ => 0⟩ securedFrame true)) (.sort true wantsTest)

example : wantsTest.selects (afterFirst.scan.BssEntry 0) = true := by decide

/-- A probe response is stored, its network selected twice: the second selection zeroes what
was stored. -/
theorem ssidSort_broken : ¬ ∀ (pool : Pool) (events : List Selection.Event),
    Along Selection.step Undisturbed (Selection.start pool) events := by
  intro hall
  have hrun := hall (fun _ _ => 0) [.heard ⟨false, false, .zero 6, 0, fun _ => 0⟩ securedFrame true,
    .sort true wantsTest, .sort true wantsTest]
  have hsound : SortSound afterFirst (Selection.step afterFirst (.sort true wantsTest)) wantsTest :=
    hrun.2.2.1
  have hnr : afterFirst.scan.BssNr ≤ maxLenOfBssTable := by decide
  have hdetached := ((sortSound_iff hnr true wantsTest).mp hsound).1
  have hbyte := hdetached 0 (by decide) 0 (by decide) 0 (by decide) (by decide) 0 (by decide)
  have hstored : afterFirst.pool 0 0 = ieWpa := by decide
  rw [hstored] at hbyte
  cases hbyte

end ExtDrv.Rt3370.Bss
