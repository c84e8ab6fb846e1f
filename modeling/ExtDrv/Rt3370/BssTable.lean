import ExtDrv.Lib.Reads
import ExtDrv.Lib.Tlv
import ExtDrv.Rt3370.EapolKey
import ExtDrv.Rt3370.Sizes

/-!
# The tables of BSSs

An entry is filled from a beacon or a probe response by `BssEntrySet`, in the place where
its BSSID was found, behind the last one, or over an old one. It parses the
ciphers out of the copied elements, by offsets and counts that are in the
elements: what it reads is a program of its own over the array `VarIEs`.

An entry's `pVarIeFromProbRsp` is one of the buffers of a pool.
-/

namespace ExtDrv.Rt3370.Bss

open Memory

/-- `MAX_LEN_OF_BSS_TABLE`. -/
abbrev maxLenOfBssTable : Nat := 64

/-- `MAX_VIE_LEN`. -/
abbrev maxVieLen : Nat := 1024

/-- `MAX_CUSTOM_LEN`. -/
def maxCustomLen : Nat := 128

/-- `MAX_LEN_OF_SUPPORTED_RATES`. -/
def maxLenOfSupportedRates : Nat := 12

/-! ## Elements -/

/-- `IE_WPA`. -/
def ieWpa : BitVec 8 := 0xdd

/-- `IE_RSN`. -/
def ieRsn : BitVec 8 := 0x30

/-- `WPA_OUI`. -/
def wpaOui : List (BitVec 8) := [0x00, 0x50, 0xf2, 0x01]

/-- `WPS_OUI`. -/
def wpsOui : List (BitVec 8) := [0x00, 0x50, 0xf2, 0x04]

/-- `RSN_OUI`. -/
def rsnOui : List (BitVec 8) := [0x00, 0x0f, 0xac]

/-- `SES_OUI`. -/
def sesOui : List (BitVec 8) := [0x00, 0x90, 0x4c]

/-- The elements an entry has a copy of. -/
inductive IeKind
  | WpaIE
  | RsnIE
  | WpsIE
  deriving DecidableEq

/-- `WPA_IE_`. -/
structure WpaIe where
  IELen : Nat
  IE : Mem

/-- The copy the element at `o` goes to. -/
def ieKind (vie : Mem) (o : Nat) : Option IeKind :=
  if vie o = ieWpa then
    if segment vie (o + 2) 4 = wpsOui then some .WpsIE
    else if segment vie (o + 2) 4 = wpaOui then some .WpaIE
    else none
  else if vie o = ieRsn ∧ segment vie (o + 4) 3 = rsnOui then some .RsnIE
  else none

/-- An element that is too long for the copy leaves its bytes. -/
def copyIe (vie : Mem) (ie : WpaIe) (o : Nat) : WpaIe :=
  let len := (vie (o + 1)).toNat
  if maxCustomLen < len + 2 then { ie with IELen := 0 }
  else ⟨len + 2, store ie.IE 0 (segment vie o (len + 2))⟩

def takeElement (vie : Mem) (ies : IeKind → WpaIe) (o : Nat) : IeKind → WpaIe :=
  match ieKind vie o with
  | some kind => Function.update ies kind (copyIe vie (ies kind) o)
  | none => ies

/-- The copies are zeroed, their lengths are not. -/
def takeElements (vie : Mem) (len : Nat) (ies : IeKind → WpaIe) : IeKind → WpaIe :=
  (Tlv.offsets vie len 0).foldl (takeElement vie) fun kind => ⟨(ies kind).IELen, fun _ => 0⟩

theorem takeElement_apply (vie : Mem) (ies : IeKind → WpaIe) (o : Nat) (kind : IeKind) :
    takeElement vie ies o kind
      = if ieKind vie o = some kind then copyIe vie (ies kind) o else ies kind := by
  unfold takeElement
  cases h : ieKind vie o with
  | none => simp
  | some kind' =>
    by_cases hk : kind' = kind
    · subst hk
      simp
    · simp [Function.update_of_ne (Ne.symm hk), hk]

/-- A copy gets the elements of its kind. -/
theorem foldl_takeElement (vie : Mem) (os : List Nat) (ies : IeKind → WpaIe) (kind : IeKind) :
    os.foldl (takeElement vie) ies kind
      = (os.filter fun o => ieKind vie o = some kind).foldl (copyIe vie) (ies kind) := by
  induction os generalizing ies with
  | nil => rfl
  | cons o os ih =>
    rw [List.foldl_cons, ih, takeElement_apply]
    by_cases h : ieKind vie o = some kind <;> simp [h]

/-- What an element leaves does not depend on the length there was. -/
theorem copyIe_congr (vie : Mem) (m : Mem) (n n' o : Nat) :
    copyIe vie ⟨n, m⟩ o = copyIe vie ⟨n', m⟩ o := rfl

/-- **Copies of the latest frame**: unless an element of the kind comes, the length that was there
stays. -/
theorem takeElements_iff (vie : Mem) (len : Nat) (ies : IeKind → WpaIe) (kind : IeKind) :
    takeElements vie len ies kind = takeElements vie len (fun _ => ⟨0, fun _ => 0⟩) kind
      ↔ (ies kind).IELen = 0 ∨ ∃ o ∈ Tlv.offsets vie len 0, ieKind vie o = some kind := by
  unfold takeElements
  rw [foldl_takeElement, foldl_takeElement]
  cases hos : (Tlv.offsets vie len 0).filter fun o => ieKind vie o = some kind with
  | nil =>
    have hnone : ¬ ∃ o ∈ Tlv.offsets vie len 0, ieKind vie o = some kind := by
      rintro ⟨o, ho, hk⟩
      have hmem : o ∈ (Tlv.offsets vie len 0).filter fun o => ieKind vie o = some kind :=
        List.mem_filter.mpr ⟨ho, by simpa using hk⟩
      rw [hos] at hmem
      exact List.not_mem_nil hmem
    simp [hnone]
  | cons o os =>
    have hsome : o ∈ (Tlv.offsets vie len 0).filter fun o => ieKind vie o = some kind := by
      rw [hos]
      exact List.mem_cons_self
    have hmem := List.mem_filter.mp hsome
    simp only [List.foldl_cons]
    rw [copyIe_congr vie _ (ies kind).IELen 0]
    exact iff_of_true rfl (Or.inr ⟨o, hmem.1, by simpa using hmem.2⟩)

/-! ## Ciphers -/

/-- The value of the enumerator. -/
def cipherRank : WepStatus → Nat
  | .encryption1Enabled => 0
  | .encryptionDisabled => 1
  | .encryption1KeyAbsent => 2
  | .encryptionNotSupported => 3
  | .encryption2Enabled => 4
  | .encryption2KeyAbsent => 5
  | .encryption3Enabled => 6
  | .encryption3KeyAbsent => 7
  | .encryption4Enabled => 8
  | .encryption4KeyAbsent => 9
  | .groupWep40Enabled => 10
  | .groupWep104Enabled => 11

/-- `CIPHER_SUITE`. -/
structure CipherSuite where
  PairCipher : WepStatus
  PairCipherAux : WepStatus
  GroupCipher : WepStatus
  RsnCapability : Nat
  bMixMode : Bool
  deriving DecidableEq

/-- What the parse fills in. For the authentication modes, none is `Ndis802_11AuthModeMax`. -/
structure Security where
  WepStatus : WepStatus
  AuthMode : Option Rt3370.AuthMode
  AuthModeAux : Option Rt3370.AuthMode
  WPA : CipherSuite
  WPA2 : CipherSuite
  deriving DecidableEq

def noSuite : CipherSuite :=
  ⟨.encryptionDisabled, .encryptionDisabled, .encryptionDisabled, 0, false⟩

def Security.default (privacy : Bool) : Security where
  WepStatus := if privacy then .encryption1Enabled else .encryptionDisabled
  AuthMode := some .openSystem
  AuthModeAux := some .openSystem
  WPA := noSuite
  WPA2 := noSuite

/-- The group cipher of the type `t`; of an unknown one the suite stays. -/
def CipherSuite.group (s : CipherSuite) (t : BitVec 8) : CipherSuite :=
  if t = 1 then { s with GroupCipher := .groupWep40Enabled }
  else if t = 5 then { s with GroupCipher := .groupWep104Enabled }
  else if t = 2 then { s with GroupCipher := .encryption2Enabled }
  else if t = 4 then { s with GroupCipher := .encryption3Enabled }
  else s

def tmpCipher (t : BitVec 8) : WepStatus :=
  if t = 1 ∨ t = 5 then .encryption1Enabled
  else if t = 2 then .encryption2Enabled
  else if t = 4 then .encryption3Enabled
  else .encryptionDisabled

/-- The lower one moves to `PairCipherAux`. -/
def CipherSuite.pair (s : CipherSuite) (t : BitVec 8) : CipherSuite :=
  if cipherRank s.PairCipher < cipherRank (tmpCipher t) then
    { s with PairCipherAux := s.PairCipher, PairCipher := tmpCipher t }
  else { s with PairCipherAux := tmpCipher t }

def CipherSuite.mixed (s : CipherSuite) : CipherSuite :=
  if s.GroupCipher ≠ s.PairCipher then { s with bMixMode := true } else s

def Security.auth (s : Security) (mode : Option Rt3370.AuthMode) : Security :=
  if s.AuthMode = some .openSystem then { s with AuthMode := mode }
  else { s with AuthModeAux := mode }

def Security.wpaAuth (s : Security) (t : BitVec 8) : Security :=
  if t = 1 then s.auth (some .wpa)
  else if t = 2 then s.auth (some .wpaPsk)
  else s

def Security.rsnAuth (s : Security) (t : BitVec 8) : Security :=
  if t = 0 then s.auth (some .wpaNone)
  else if t = 1 then s.auth (some .wpa2)
  else if t = 2 then s.auth (some .wpa2Psk)
  else s.auth none

/-- An ad-hoc network has no pairwise handshake. -/
def Security.wpaWepStatus (s : Security) (adhoc : Bool) : Security :=
  if adhoc then
    { s with
      AuthMode := some .wpaNone
      AuthModeAux := some .wpaNone
      WepStatus := s.WPA.GroupCipher
      WPA := if s.WPA.PairCipherAux = .encryptionDisabled then
          { s.WPA with PairCipherAux := s.WPA.GroupCipher } else s.WPA }
  else { s with WepStatus := s.WPA.PairCipher }

def Security.rsnWepStatus (s : Security) (adhoc : Bool) : Security :=
  if adhoc then
    { s with
      WPA := { s.WPA with
        GroupCipher := s.WPA2.GroupCipher
        PairCipherAux := if s.WPA2.PairCipherAux = .encryptionDisabled then
          s.WPA2.GroupCipher else s.WPA2.PairCipherAux }
      WepStatus := s.WPA2.PairCipher }
  else { s with WepStatus := s.WPA2.PairCipher }

/-! ## The parse

Addresses are offsets in `VarIEs`. -/

abbrev Parse := Reads Nat (BitVec 8)

def word (o : Nat) : Parse Nat := do
  let lo ← Reads.cell o
  let hi ← Reads.cell (o + 1)
  return hi.toNat * 256 + lo.toNat

/-- `n` pairwise suites from `o` on. -/
def pairSuites : Nat → Nat → CipherSuite → Parse CipherSuite
  | 0, _, s => pure s
  | n + 1, o, s => do
      let t ← Reads.cell (o + 3)
      pairSuites n (o + 4) (s.pair t)

/-- The `WPA` element at `o`. -/
def parseWpa (adhoc : Bool) (o : Nat) (s : Security) : Parse Security := do
  let oui ← Reads.cells [o + 2, o + 3, o + 4, o + 5]
  if oui ≠ wpaOui then return s
  let t ← Reads.cell (o + 11)
  let count ← word (o + 12)
  let suite ← pairSuites count (o + 14) (s.WPA.group t)
  let _ ← word (o + 14 + 4 * count)
  let akm ← Reads.cell (o + 14 + 4 * count + 5)
  let s := ({ s with WPA := suite }.wpaAuth akm).wpaWepStatus adhoc
  return { s with WPA := s.WPA.mixed }

/-- `n` authentication suites from `o` on, and the offset behind them: the step is by
all that are left. -/
def akmSuites : Nat → Nat → Security → Parse (Security × Nat)
  | 0, o, s => pure (s, o)
  | n + 1, o, s => do
      let oui ← Reads.cells [o, o + 1, o + 2]
      if oui ≠ rsnOui then return (s, o)
      let t ← Reads.cell (o + 3)
      akmSuites n (o + (n + 1) * 4) (s.rsnAuth t)

/-- The `RSN` element at `o`. -/
def parseRsn (adhoc : Bool) (o : Nat) (s : Security) : Parse Security := do
  let version ← word (o + 2)
  if version ≠ 1 then return s
  let oui ← Reads.cells [o + 4, o + 5, o + 6]
  if oui ≠ rsnOui then return s
  let t ← Reads.cell (o + 7)
  let count ← word (o + 8)
  let suite ← pairSuites count (o + 10) (s.WPA2.group t)
  let akmCount ← word (o + 10 + 4 * count)
  let (s, o) ← akmSuites akmCount (o + 12 + 4 * count) { s with WPA2 := suite }
  let s := s.rsnWepStatus adhoc
  let capability ← word o
  return { s with WPA2 := { s.WPA2 with RsnCapability := capability }.mixed }

/-- The element at `o`, and whether it is one of SES. -/
def parseElement (adhoc : Bool) (o : Nat) (s : Security × Bool) : Parse (Security × Bool) := do
  let eid ← Reads.cell o
  if eid = ieWpa then
    let oui ← Reads.cells [o + 2, o + 3, o + 4]
    let len ← Reads.cell (o + 1)
    if oui = sesOui ∧ len = 7 then return (s.1, true)
    let wpa ← parseWpa adhoc o s.1
    return (wpa, s.2)
  if eid = ieRsn then
    let rsn ← parseRsn adhoc o s.1
    return (rsn, s.2)
  return s

def parseElements (adhoc : Bool) (len : Nat) :
    Nat → Nat → Security × Bool → Parse (Security × Bool)
  | 0, _, s => pure s
  | turns + 1, o, s =>
      if o < len then do
        let s ← parseElement adhoc o s
        let l ← Reads.cell (o + 1)
        parseElements adhoc len turns (o + 2 + l.toNat) s
      else pure s

/-- `BssCipherParse`: the ciphers, and whether an element of SES was found. -/
def bssCipherParse (privacy adhoc : Bool) (len : Nat) : Parse (Security × Bool) :=
  parseElements adhoc len len 0 (.default privacy, false)

/-! ## Entries -/

inductive BssType
  | adhoc
  | infra
  deriving DecidableEq

/-- `BSS_ENTRY`. -/
structure BssEntry where
  Bssid : Bytes 6
  Channel : Nat
  CentralChannel : Nat
  BssType : BssType
  CapabilityInfo : BitVec 16
  Privacy : Bool
  Hidden : Bool
  SsidLen : Nat
  Ssid : Mem
  Rssi : Int
  SupRateLen : Nat
  SupRate : Mem
  ExtRateLen : Nat
  ExtRate : Mem
  HtCapabilityLen : Nat
  HtCapability : Mem
  AddHtInfoLen : Nat
  AddHtInfo : Mem
  NewExtChanOffset : BitVec 8
  bSES : Bool
  security : Security
  VarIELen : Nat
  VarIEs : Mem
  ies : IeKind → WpaIe
  VarIeFromProbeRspLen : Nat
  pVarIeFromProbRsp : Option Nat

/-- An entry of zeros, with the buffer `p`. -/
def BssEntry.zero (p : Option Nat) : BssEntry where
  Bssid := .zero 6
  Channel := 0
  CentralChannel := 0
  BssType := .adhoc
  CapabilityInfo := 0
  Privacy := false
  Hidden := false
  SsidLen := 0
  Ssid := fun _ => 0
  Rssi := 0
  SupRateLen := 0
  SupRate := fun _ => 0
  ExtRateLen := 0
  ExtRate := fun _ => 0
  HtCapabilityLen := 0
  HtCapability := fun _ => 0
  AddHtInfoLen := 0
  AddHtInfo := fun _ => 0
  NewExtChanOffset := 0
  bSES := false
  security :=
    let suite : CipherSuite :=
      ⟨.encryption1Enabled, .encryption1Enabled, .encryption1Enabled, 0, false⟩
    ⟨.encryption1Enabled, some .openSystem, some .openSystem, suite, suite⟩
  VarIELen := 0
  VarIEs := fun _ => 0
  ies := fun _ => ⟨0, fun _ => 0⟩
  VarIeFromProbeRspLen := 0
  pVarIeFromProbRsp := p

/-- What the sanity check makes of a beacon or a probe response. The first `LengthVIE` bytes of
`pVIE` are elements of it. -/
structure Frame where
  Bssid : Bytes 6
  Channel : Nat
  BssType : BssType
  CapabilityInfo : BitVec 16
  SsidLen : Nat
  Ssid : Mem
  Rssi : Int
  SupRateLen : Nat
  SupRate : Mem
  ExtRateLen : Nat
  ExtRate : Mem
  HtCapabilityLen : Nat
  HtCapability : Mem
  AddHtInfoLen : Nat
  AddHtInfo : Mem
  NewExtChanOffset : BitVec 8
  LengthVIE : Nat
  pVIE : Mem
  ssid_le : SsidLen ≤ 32
  ht_le : HtCapabilityLen ≤ 26
  addHt_le : AddHtInfoLen ≤ 22
  vie_le : LengthVIE ≤ maxVieLen

/-- The first `n` bytes are those of `ZeroSsid`. -/
def isZeroSsid (m : Mem) (n : Nat) : Bool := (segment m 0 n).all (· = 0)

/-- No name: none, or zeros. -/
def Frame.hidden (f : Frame) : Bool := f.SsidLen = 0 || isZeroSsid f.Ssid f.SsidLen

/-- `CAP_IS_PRIVACY_ON`. -/
def Frame.privacy (f : Frame) : Bool := f.CapabilityInfo.getLsbD 4

/-- The control channel of the frame is the lower or the upper half of a wide one. -/
def Frame.centralChannel (f : Frame) : Nat :=
  let controlChan := (f.AddHtInfo 0).toNat
  let extChanOffset := f.AddHtInfo 1 &&& 3#8
  let wide := (f.HtCapability 0).getLsbD 1
  if f.HtCapabilityLen = 0 ∨ f.AddHtInfoLen = 0 then f.Channel
  else if 2 < controlChan ∧ extChanOffset = 3 ∧ wide then controlChan - 2
  else if extChanOffset = 1 ∧ wide then (controlChan + 2) % 256
  else f.Channel

/-- The array with the elements of the frame over it. -/
def Frame.varIEs (f : Frame) (old : Mem) : Mem := store old 0 (segment f.pVIE 0 f.LengthVIE)

def Frame.parse (f : Frame) : Parse (Security × Bool) :=
  bssCipherParse f.privacy (f.BssType = .adhoc) f.LengthVIE

/-- A hidden name does not overwrite a name that is known. -/
def Frame.ssid (f : Frame) (e : BssEntry) : Nat × Mem :=
  if 0 < f.SsidLen then
    if isZeroSsid f.Ssid f.SsidLen then (e.SsidLen, e.Ssid)
    else (f.SsidLen, store (fun _ => 0) 0 (segment f.Ssid 0 f.SsidLen))
  else if isZeroSsid e.Ssid e.SsidLen then (0, fun _ => 0)
  else (e.SsidLen, e.Ssid)

def bssEntrySet (e : BssEntry) (f : Frame) : BssEntry where
  Bssid := f.Bssid
  Channel := f.Channel
  CentralChannel := f.centralChannel
  BssType := f.BssType
  CapabilityInfo := f.CapabilityInfo
  Privacy := f.privacy
  Hidden := f.hidden
  SsidLen := (f.ssid e).1
  Ssid := (f.ssid e).2
  Rssi := f.Rssi
  SupRateLen := f.SupRateLen
  SupRate := store e.SupRate 0 (segment f.SupRate 0 (min f.SupRateLen maxLenOfSupportedRates))
  ExtRateLen := min f.ExtRateLen maxLenOfSupportedRates
  ExtRate := store e.ExtRate 0 (segment f.ExtRate 0 (min f.ExtRateLen maxLenOfSupportedRates))
  HtCapabilityLen := f.HtCapabilityLen
  HtCapability := store e.HtCapability 0 (segment f.HtCapability 0 f.HtCapabilityLen)
  AddHtInfoLen := if f.HtCapabilityLen = 0 then 0 else f.AddHtInfoLen
  AddHtInfo := if f.HtCapabilityLen = 0 then e.AddHtInfo
    else store e.AddHtInfo 0 (segment f.AddHtInfo 0 f.AddHtInfoLen)
  NewExtChanOffset := f.NewExtChanOffset
  -- the flag is set by the parse and cleared by nothing
  bSES := e.bSES || (f.parse.run (f.varIEs e.VarIEs)).2
  security := (f.parse.run (f.varIEs e.VarIEs)).1
  VarIELen := f.LengthVIE
  VarIEs := f.varIEs e.VarIEs
  ies := takeElements f.pVIE f.LengthVIE e.ies
  VarIeFromProbeRspLen := e.VarIeFromProbeRspLen
  pVarIeFromProbRsp := e.pVarIeFromProbRsp

/-! ## Tables -/

/-- `BSS_TABLE`. -/
structure BssTable where
  BssNr : Nat
  BssOverlapNr : Nat
  BssEntry : Nat → BssEntry

/-- `BSS_NOT_FOUND` is none. A BSSID may be used in both bands. -/
def bssTableSearch (tab : BssTable) (pBssid : Bytes 6) (channel : Nat) : Option Nat :=
  (List.range tab.BssNr).find? fun i =>
    (decide ((tab.BssEntry i).Channel ≤ 14) == decide (channel ≤ 14)) &&
      decide ((tab.BssEntry i).Bssid = pBssid)

def BssTable.set (tab : BssTable) (i : Nat) (f : Frame) : BssTable :=
  { tab with BssEntry := Function.update tab.BssEntry i (bssEntrySet (tab.BssEntry i) f) }

/-- What decides whether a full table gives an entry away: the media states, and the network that
is wanted. -/
structure Adapter where
  mediaStateConnected : Bool
  apMediaStateConnected : Bool
  Bssid : Bytes 6
  SsidLen : Nat
  Ssid : Mem

def Adapter.wants (ad : Adapter) (f : Frame) : Bool :=
  (!ad.mediaStateConnected || !ad.apMediaStateConnected) &&
    (decide (ad.Bssid = f.Bssid) ||
      decide (ad.SsidLen = f.SsidLen ∧ segment ad.Ssid 0 ad.SsidLen = segment f.Ssid 0 ad.SsidLen))

/-- Where the frame goes to. -/
def setPlace (ad : Adapter) (tab : BssTable) (f : Frame) : Option Nat :=
  match bssTableSearch tab f.Bssid f.Channel with
  | some i => some i
  | none =>
      if maxLenOfBssTable ≤ tab.BssNr then
        if ad.wants f then some tab.BssOverlapNr else none
      else some tab.BssNr

def bssTableSetEntry (ad : Adapter) (tab : BssTable) (f : Frame) : BssTable × Option Nat :=
  match bssTableSearch tab f.Bssid f.Channel with
  | some i => (tab.set i f, some i)
  | none =>
      if maxLenOfBssTable ≤ tab.BssNr then
        if ad.wants f then
          ({ tab.set tab.BssOverlapNr f with
              BssOverlapNr := (tab.BssOverlapNr + 1) % maxLenOfBssTable }, some tab.BssOverlapNr)
        else (tab, none)
      else ({ tab.set tab.BssNr f with BssNr := tab.BssNr + 1 }, some tab.BssNr)

/-- A pool of buffers for elements of probe responses. -/
abbrev Pool := Nat → Mem

/-- Some entry of the table has the buffer. -/
def BssTable.holds (tab : BssTable) (p : Nat) : Bool :=
  (List.range maxLenOfBssTable).any fun i => decide ((tab.BssEntry i).pVarIeFromProbRsp = some p)

/-- Every entry keeps its buffer, which is zeroed. -/
def bssTableInit (s : Pool × BssTable) : Pool × BssTable :=
  (fun p => if s.2.holds p then fun _ => 0 else s.1 p,
    { BssNr := 0
      BssOverlapNr := 0
      BssEntry := fun i => { BssEntry.zero (s.2.BssEntry i).pVarIeFromProbRsp with Rssi := -127 } })

/-- The buffer at `p` gets the elements of the entry `e`. -/
def Pool.take (pool : Pool) (p : Nat) (e : BssEntry) : Pool :=
  let ie : List (BitVec 8) := match e.pVarIeFromProbRsp with
    | some q => segment (Function.update pool p (fun _ => 0) q) 0 e.VarIeFromProbeRspLen
    | none => []
  Function.update pool p (store (fun _ => 0) 0 ie)

/-- The entry behind `j` moves to `j`, which keeps its buffer. -/
def shiftEntry (s : Pool × BssTable) (j : Nat) : Pool × BssTable :=
  let e := s.2.BssEntry (j + 1)
  match (s.2.BssEntry j).pVarIeFromProbRsp with
  | some p =>
      (s.1.take p e,
        { s.2 with
          BssEntry := Function.update s.2.BssEntry j { e with pVarIeFromProbRsp := some p } })
  | none => (s.1, { s.2 with BssEntry := Function.update s.2.BssEntry j e })

def clearLast (s : Pool × BssTable) : Pool × BssTable :=
  let p := (s.2.BssEntry (s.2.BssNr - 1)).pVarIeFromProbRsp
  (match p with
    | some p => Function.update s.1 p fun _ => 0
    | none => s.1,
   { s.2 with
     BssEntry := Function.update s.2.BssEntry (s.2.BssNr - 1) (.zero p)
     BssNr := s.2.BssNr - 1 })

def deletePlace (tab : BssTable) (pBssid : Bytes 6) (channel : Nat) : Option Nat :=
  (List.range tab.BssNr).find? fun i =>
    decide ((tab.BssEntry i).Channel = channel) && decide ((tab.BssEntry i).Bssid = pBssid)

def bssTableDeleteEntry (s : Pool × BssTable) (pBssid : Bytes 6) (channel : Nat) :
    Pool × BssTable :=
  match deletePlace s.2 pBssid channel with
  | some i => clearLast ((List.range' i (s.2.BssNr - 1 - i)).foldl shiftEntry s)
  | none => s

/-! ## What the operations do to the entries -/

theorem bssTableSearch_some {tab : BssTable} {pBssid : Bytes 6} {channel i : Nat}
    (h : bssTableSearch tab pBssid channel = some i) :
    i < tab.BssNr ∧ (tab.BssEntry i).Bssid = pBssid ∧
      ((tab.BssEntry i).Channel ≤ 14 ↔ channel ≤ 14) := by
  have hmem := List.mem_of_find?_eq_some h
  have hp := List.find?_some h
  simp only [Bool.and_eq_true, beq_iff_eq, decide_eq_decide, decide_eq_true_eq] at hp
  exact ⟨List.mem_range.mp hmem, hp.2, hp.1⟩

theorem bssTableSearch_none {tab : BssTable} {pBssid : Bytes 6} {channel i : Nat}
    (h : bssTableSearch tab pBssid channel = none) (hi : i < tab.BssNr) :
    ¬ ((tab.BssEntry i).Bssid = pBssid ∧ ((tab.BssEntry i).Channel ≤ 14 ↔ channel ≤ 14)) := by
  have hp := List.find?_eq_none.mp h i (List.mem_range.mpr hi)
  simp only [Bool.and_eq_true, beq_iff_eq, decide_eq_decide, decide_eq_true_eq, not_and] at hp
  rintro ⟨hb, hc⟩
  exact hp hc hb

/-- **A frame comes to one slot**: that of its BSS, the first vacant one, or, in a full table, the
next one to give away. -/
theorem setPlace_some {ad : Adapter} {tab : BssTable} {f : Frame} {i : Nat}
    (h : setPlace ad tab f = some i) :
    (bssTableSearch tab f.Bssid f.Channel = some i ∧
        (bssTableSetEntry ad tab f).1 = tab.set i f) ∨
      (bssTableSearch tab f.Bssid f.Channel = none ∧ tab.BssNr < maxLenOfBssTable ∧
        i = tab.BssNr ∧
        (bssTableSetEntry ad tab f).1 = { tab.set i f with BssNr := tab.BssNr + 1 }) ∨
      (bssTableSearch tab f.Bssid f.Channel = none ∧ maxLenOfBssTable ≤ tab.BssNr ∧
        i = tab.BssOverlapNr ∧
        (bssTableSetEntry ad tab f).1
          = { tab.set i f with BssOverlapNr := (tab.BssOverlapNr + 1) % maxLenOfBssTable }) := by
  unfold setPlace at h
  unfold bssTableSetEntry
  cases hs : bssTableSearch tab f.Bssid f.Channel with
  | some j =>
    rw [hs] at h
    obtain rfl : j = i := Option.some.inj h
    exact Or.inl ⟨rfl, rfl⟩
  | none =>
    rw [hs] at h
    dsimp only at h ⊢
    by_cases hfull : maxLenOfBssTable ≤ tab.BssNr
    · rw [if_pos hfull] at h
      by_cases hw : ad.wants f = true
      · rw [if_pos hw] at h
        obtain rfl : tab.BssOverlapNr = i := Option.some.inj h
        refine Or.inr (Or.inr ⟨rfl, hfull, rfl, ?_⟩)
        rw [if_pos hfull, if_pos hw]
      · rw [if_neg hw] at h
        cases h
    · rw [if_neg hfull] at h
      obtain rfl : tab.BssNr = i := Option.some.inj h
      refine Or.inr (Or.inl ⟨rfl, Nat.not_le.mp hfull, rfl, ?_⟩)
      rw [if_neg hfull]

theorem setPlace_none {ad : Adapter} {tab : BssTable} {f : Frame}
    (h : setPlace ad tab f = none) : bssTableSetEntry ad tab f = (tab, none) := by
  unfold setPlace at h
  unfold bssTableSetEntry
  cases hs : bssTableSearch tab f.Bssid f.Channel with
  | some j =>
    rw [hs] at h
    cases h
  | none =>
    rw [hs] at h
    dsimp only at h ⊢
    by_cases hfull : maxLenOfBssTable ≤ tab.BssNr
    · rw [if_pos hfull] at h ⊢
      by_cases hw : ad.wants f = true
      · rw [if_pos hw] at h
        cases h
      · rw [if_neg hw]
    · rw [if_neg hfull] at h
      cases h

@[simp] theorem BssTable.set_entry (tab : BssTable) (i : Nat) (f : Frame) :
    (tab.set i f).BssEntry = Function.update tab.BssEntry i (bssEntrySet (tab.BssEntry i) f) := rfl

/-- The entry `e` in a place whose buffer is `p`. -/
def BssEntry.withBuffer (e : BssEntry) (p : Option Nat) : BssEntry :=
  { e with pVarIeFromProbRsp := p <|> e.pVarIeFromProbRsp }

theorem shiftEntry_entry (s : Pool × BssTable) (j : Nat) :
    (shiftEntry s j).2.BssEntry = Function.update s.2.BssEntry j
      ((s.2.BssEntry (j + 1)).withBuffer (s.2.BssEntry j).pVarIeFromProbRsp) := by
  unfold shiftEntry
  cases h : (s.2.BssEntry j).pVarIeFromProbRsp with
  | none => rfl
  | some p => rfl

theorem shiftEntry_nr (s : Pool × BssTable) (j : Nat) :
    (shiftEntry s j).2.BssNr = s.2.BssNr ∧
      (shiftEntry s j).2.BssOverlapNr = s.2.BssOverlapNr := by
  unfold shiftEntry
  cases h : (s.2.BssEntry j).pVarIeFromProbRsp with
  | none => exact ⟨rfl, rfl⟩
  | some p => exact ⟨rfl, rfl⟩

theorem foldl_shiftEntry_nr (s : Pool × BssTable) (js : List Nat) :
    (js.foldl shiftEntry s).2.BssNr = s.2.BssNr ∧
      (js.foldl shiftEntry s).2.BssOverlapNr = s.2.BssOverlapNr := by
  induction js generalizing s with
  | nil => exact ⟨rfl, rfl⟩
  | cons j js ih =>
    rw [List.foldl_cons, (ih _).1, (ih _).2]
    exact shiftEntry_nr s j

/-- The entries behind `i` each move by one. -/
theorem foldl_shiftEntry (s : Pool × BssTable) (i n k : Nat) :
    ((List.range' i n).foldl shiftEntry s).2.BssEntry k
      = if i ≤ k ∧ k < i + n then
          (s.2.BssEntry (k + 1)).withBuffer (s.2.BssEntry k).pVarIeFromProbRsp
        else s.2.BssEntry k := by
  induction n generalizing k with
  | zero =>
    have hout : ¬ (i ≤ k ∧ k < i + 0) := by omega
    rw [if_neg hout]
    rfl
  | succ n ih =>
    rw [List.range'_concat, List.foldl_append, List.foldl_cons, List.foldl_nil, Nat.one_mul,
      shiftEntry_entry]
    by_cases hk : k = i + n
    -- the last one to move, from entries that have not moved
    · subst hk
      rw [Function.update_self, ih (i + n + 1), ih (i + n), if_neg (by omega), if_neg (by omega),
        if_pos (by omega)]
    · rw [Function.update_of_ne hk, ih]
      by_cases hin : i ≤ k ∧ k < i + n
      · rw [if_pos hin, if_pos (by omega)]
      · rw [if_neg hin, if_neg (by omega)]

theorem deletePlace_some {tab : BssTable} {pBssid : Bytes 6} {channel i : Nat}
    (h : deletePlace tab pBssid channel = some i) : i < tab.BssNr :=
  List.mem_range.mp (List.mem_of_find?_eq_some h)

theorem bssTableDeleteEntry_nr {s : Pool × BssTable} {pBssid : Bytes 6} {channel i : Nat}
    (h : deletePlace s.2 pBssid channel = some i) :
    (bssTableDeleteEntry s pBssid channel).2.BssNr = s.2.BssNr - 1 ∧
      (bssTableDeleteEntry s pBssid channel).2.BssOverlapNr = s.2.BssOverlapNr := by
  simp only [bssTableDeleteEntry, h, clearLast]
  have hnr := foldl_shiftEntry_nr s (List.range' i (s.2.BssNr - 1 - i))
  exact ⟨by rw [hnr.1], hnr.2⟩

/-- **A deletion moves the entries**: those behind the place by one, and zeros to the last. -/
theorem bssTableDeleteEntry_entry {s : Pool × BssTable} {pBssid : Bytes 6} {channel i : Nat}
    (h : deletePlace s.2 pBssid channel = some i) (k : Nat) :
    (bssTableDeleteEntry s pBssid channel).2.BssEntry k
      = if i ≤ k ∧ k + 1 < s.2.BssNr then
          (s.2.BssEntry (k + 1)).withBuffer (s.2.BssEntry k).pVarIeFromProbRsp
        else if k + 1 = s.2.BssNr then .zero (s.2.BssEntry k).pVarIeFromProbRsp
        else s.2.BssEntry k := by
  have hi := deletePlace_some h
  have hnr := foldl_shiftEntry_nr s (List.range' i (s.2.BssNr - 1 - i))
  simp only [bssTableDeleteEntry, h, clearLast]
  rw [hnr.1]
  by_cases hk : k = s.2.BssNr - 1
  · subst hk
    have hlast : s.2.BssNr - 1 + 1 = s.2.BssNr := by omega
    rw [Function.update_self, foldl_shiftEntry, if_neg (by omega), if_neg (by omega), if_pos hlast]
  · rw [Function.update_of_ne hk, foldl_shiftEntry]
    by_cases hin : i ≤ k ∧ k + 1 < s.2.BssNr
    · rw [if_pos hin, if_pos (by omega)]
    · rw [if_neg hin, if_neg (by omega), if_neg (by omega)]

end ExtDrv.Rt3370.Bss
