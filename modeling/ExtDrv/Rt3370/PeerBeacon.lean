import ExtDrv.Lib.Tlv
import ExtDrv.Rt3370.Sizes
import Mathlib.Logic.Function.Basic

/-!
# The sanity check of beacons and probe responses

`PeerBeaconAndProbeRspSanity` walks over the elements of a frame. What the message
is goes by its bytes in memory, of which the first `MsgLen` were received. An element that fits
into these is one of its kind, has a length, and content; but three
comparisons with an OUI are made whatever the length is, and `GetTimBit` follows
a byte of the element. So each element leads to an act, by its own bytes and the outcomes of these
comparisons, and the acts change the output structures.

The driver is built for a station: `OpMode` is `OPMODE_STA`.
-/

namespace ExtDrv.Rt3370.Sanity

open Memory

abbrev Octets := List (BitVec 8)

/-! ## Output structures -/

/-- An output array, and the length that goes with it. -/
structure OutBuf where
  len : Nat
  bytes : Mem

namespace OutBuf

def fill (b : OutBuf) (bs : Octets) : OutBuf := ⟨bs.length, store b.bytes 0 bs⟩

def append (b : OutBuf) (bs : Octets) : OutBuf := ⟨b.len + bs.length, store b.bytes b.len bs⟩

/-- The bytes are written, the length is another output. -/
def write (b : OutBuf) (bs : Octets) : OutBuf := ⟨b.len, store b.bytes 0 bs⟩

def content (b : OutBuf) : Octets := segment b.bytes 0 b.len

end OutBuf

/-- From the header and the fixed fields. -/
structure Header where
  Addr2 : Octets
  Bssid : Octets
  Timestamp : Octets
  BeaconPeriod : Octets
  CapabilityInfo : Octets
  isInfra : Bool
  deriving DecidableEq

/-- The outputs that have a default. -/
structure Scalars where
  AtimWin : Octets
  Erp : BitVec 8
  CkipFlag : BitVec 8
  AironetCellPowerLimit : BitVec 8
  RalinkIe : BitVec 32
  NewChannel : BitVec 8
  NewExtChannelOffset : BitVec 8
  ExtCapInfo : BitVec 8
  deriving DecidableEq

def Scalars.default : Scalars := ⟨[0, 0], 0, 0, 0xff, 0, 0, 0xff, 0⟩

/-- What `GetTimBit` returns. -/
structure TimBit where
  DtimCount : BitVec 8
  DtimPeriod : BitVec 8
  BcastFlag : Bool
  MessageToMe : Bool
  deriving DecidableEq

/-- `CF_PARM`. -/
structure CfParm where
  bValid : Bool
  CfpCount : BitVec 8
  CfpPeriod : BitVec 8
  CfpMaxDuration : Nat
  CfpDurRemaining : Nat
  deriving DecidableEq

/-- `QBSS_LOAD_PARM`. -/
structure QbssLoadParm where
  bValid : Bool
  StaNum : Nat
  ChannelUtilization : BitVec 8
  RemainingAdmissionControl : Nat
  deriving DecidableEq

/-- An access category in `EDCA_PARM`. -/
structure AcParm where
  bACM : Bool
  Aifsn : BitVec 8
  Cwmin : BitVec 8
  Cwmax : BitVec 8
  Txop : Nat
  deriving DecidableEq

/-- `EDCA_PARM`. -/
structure EdcaParm where
  bValid : Bool
  bAdd : Bool
  bQAck : Bool
  bQueueRequest : Bool
  bTxopRequest : Bool
  bAPSDCapable : Bool
  EdcaUpdateCount : BitVec 8
  ac : BitVec 2 → AcParm

structure BeaconOut where
  header : Header
  Ssid : OutBuf
  SupRate : OutBuf
  ExtRate : OutBuf
  Channel : BitVec 8
  scalars : Scalars
  tim : TimBit
  CfParm : CfParm
  EdcaParm : EdcaParm
  QbssLoad : QbssLoadParm
  HtCapability : OutBuf
  PreNHtCapabilityLen : Nat
  AddHtInfo : OutBuf
  pVIE : OutBuf

/-! ## Elements -/

def ieSsid : BitVec 8 := 0
def ieSuppRates : BitVec 8 := 1
def ieDsParm : BitVec 8 := 3
def ieCfParm : BitVec 8 := 4
def ieTim : BitVec 8 := 5
def ieIbssParm : BitVec 8 := 6
def ieQbssLoad : BitVec 8 := 11
def ieChannelSwitchAnnouncement : BitVec 8 := 37
def ieErp : BitVec 8 := 42
def ieHtCap : BitVec 8 := 45
def ieRsn : BitVec 8 := 48
def ieExtSuppRates : BitVec 8 := 50
def ieHtCap2 : BitVec 8 := 52
def ieAddHt2 : BitVec 8 := 53
def ieAddHt : BitVec 8 := 61
def ieSecondaryChOffset : BitVec 8 := 62
def ieExtCapability : BitVec 8 := 127
def ieAironetCkip : BitVec 8 := 133
def ieApTxPower : BitVec 8 := 150
def ieVendorSpecific : BitVec 8 := 221

def ralinkOui : Octets := [0x00, 0x0c, 0x43]
def preNHtOui : Octets := [0x00, 0x90, 0x4c]
def ciscoOui : Octets := [0x00, 0x40, 0x96]
def wpaOui : Octets := [0x00, 0x50, 0xf2, 0x01]
def wpsOui : Octets := [0x00, 0x50, 0xf2, 0x04]
def rsnOui : Octets := [0x00, 0x0f, 0xac]
def wmeInfoElem : Octets := [0x00, 0x50, 0xf2, 0x02, 0x00, 0x01]
def wmeParmElem : Octets := [0x00, 0x50, 0xf2, 0x02, 0x01, 0x01]

/-- `EID_STRUCT`, with its content. -/
structure EidStruct where
  Eid : BitVec 8
  Octet : Octets
  deriving DecidableEq

def EidStruct.Len (e : EidStruct) : Nat := e.Octet.length

def EidStruct.octet (e : EidStruct) (i : Nat) : BitVec 8 := e.Octet.getD i 0

/-- The element as it is in the frame. -/
def EidStruct.bytes (e : EidStruct) : Octets := e.Eid :: BitVec.ofNat 8 e.Len :: e.Octet

def EidStruct.word (e : EidStruct) (i : Nat) : Nat := (e.octet i).toNat + 256 * (e.octet (i + 1)).toNat

def eidAt (m : Mem) (o : Nat) : EidStruct := ⟨m o, segment m (o + 2) (m (o + 1)).toNat⟩

/-- The comparisons that are made whatever the length of the element is. -/
structure Ouis where
  wpa : Bool
  wps : Bool
  rsn : Bool

def ouisAt (m : Mem) (o : Nat) : Ouis where
  wpa := segment m (o + 2) 4 = wpaOui
  wps := segment m (o + 2) 4 = wpsOui
  rsn := segment m (o + 4) 3 = rsnOui

/-- What an element leads to. -/
inductive Act
  | skip
  | refuse
  | ssid (bs : Octets)
  | supRates (bs : Octets)
  | extRates (bs : Octets)
  | dsParm (channel : BitVec 8)
  | htCap (bs ie : Octets)
  | preNHtCap (bs : Octets)
  | addHt (bs ie : Octets)
  | preNAddHt (bs : Octets)
  | copy (ie : Octets)
  | scalar (f : Scalars → Scalars)
  | tim (o : Nat)
  | cfParm (p : CfParm)
  | qbssLoad (p : QbssLoadParm) (ie : Octets)
  | edca (f : EdcaParm → EdcaParm)

/-- What the walk goes by apart from the message. -/
structure Env where
  infraOn : Bool
  Aid : Nat
  ChannelList : List (BitVec 8)
  MsgChannel : BitVec 8
  LatchRfChannel : BitVec 8

/-- The part of the EDCA record that both elements write. -/
def EdcaParm.qosInfo (p : EdcaParm) (b : BitVec 8) : EdcaParm :=
  { p with
    bValid := true
    bQAck := false
    bQueueRequest := false
    bTxopRequest := false
    EdcaUpdateCount := b &&& 0x0f
    bAPSDCapable := b.getLsbD 7 }

/-- The four bytes of an access category, the `i`th in the element. -/
def acParmAt (e : EidStruct) (i : Nat) : AcParm where
  bACM := (e.octet (8 + 4 * i)).getLsbD 4
  Aifsn := e.octet (8 + 4 * i) &&& 0x0f
  Cwmin := e.octet (8 + 4 * i + 1) &&& 0x0f
  Cwmax := e.octet (8 + 4 * i + 1) >>> 4
  Txop := e.word (8 + 4 * i + 2)

/-- Every one goes to the category it names. -/
def EdcaParm.wmeParm (e : EidStruct) (p : EdcaParm) : EdcaParm :=
  { p.qosInfo (e.octet 6) with
    ac := (List.range 4).foldl
      (fun ac i => Function.update ac ((e.octet (8 + 4 * i)).extractLsb' 5 2) (acParmAt e i)) p.ac }

/-- The default parameters, of background, best effort, video and voice. -/
def defaultAc (aci : BitVec 2) : AcParm :=
  if aci = 1 then ⟨false, 7, 4, 10, 0⟩
  else if aci = 0 then ⟨false, 3, 4, 10, 0⟩
  else if aci = 2 then ⟨false, 2, 3, 10, 96⟩
  else ⟨false, 2, 2, 9, 48⟩

def EdcaParm.wmeInfo (e : EidStruct) (p : EdcaParm) : EdcaParm :=
  { p.qosInfo (e.octet 6) with ac := defaultAc }

/-- The elements of `IE_VENDOR_SPECIFIC`. A comparison that goes with a check of the length is one
of the element's bytes. -/
def vendorAct (htSeen : Bool) (e : EidStruct) (c : Ouis) : Act :=
  if e.Octet.take 3 = ralinkOui ∧ e.Len = 7 then
    .scalar fun s => { s with
      RalinkIe := if e.octet 3 ≠ 0 then (e.octet 3).setWidth 32 else 0xf0000000 }
  else if htSeen = false ∧ e.Octet.take 3 = preNHtOui ∧ 4 ≤ e.Len then
    if e.octet 3 = 51 ∧ 30 ≤ e.Len then .preNHtCap ((e.Octet.drop 4).take 26)
    else if e.octet 3 = 52 ∧ 26 ≤ e.Len then .preNAddHt ((e.Octet.drop 4).take 22)
    else .skip
  else if c.wpa then .copy e.bytes
  else if e.Octet.take 6 = wmeParmElem ∧ e.Len = 24 then .edca (EdcaParm.wmeParm e)
  else if e.Octet.take 6 = wmeInfoElem ∧ e.Len = 7 then .edca (EdcaParm.wmeInfo e)
  else if c.wps then .copy e.bytes
  else .skip

/-- The act for the element at `o`. -/
def elementAct (env : Env) (isBeacon ssidSeen htSeen : Bool) (o : Nat) (e : EidStruct) (c : Ouis) :
    Act :=
  if e.Eid = ieSsid then
    if ssidSeen then .skip else if e.Len ≤ 32 then .ssid e.Octet else .refuse
  else if e.Eid = ieSuppRates then if e.Len ≤ 12 then .supRates e.Octet else .refuse
  else if e.Eid = ieHtCap then
    if 26 ≤ e.Len then .htCap (e.Octet.take 26) e.bytes else .skip
  else if e.Eid = ieAddHt then
    if 22 ≤ e.Len then .addHt (e.Octet.take 22) e.bytes else .skip
  else if e.Eid = ieSecondaryChOffset then
    if e.Len = 1 then .scalar fun s => { s with NewExtChannelOffset := e.octet 0 } else .skip
  else if e.Eid = ieDsParm then
    if e.Len = 1 ∧ e.octet 0 ∈ env.ChannelList then .dsParm (e.octet 0) else .refuse
  else if e.Eid = ieCfParm then
    if e.Len = 6 then .cfParm ⟨true, e.octet 0, e.octet 1, e.word 2, e.word 4⟩ else .refuse
  else if e.Eid = ieIbssParm then
    if e.Len = 2 then .scalar fun s => { s with AtimWin := e.Octet } else .refuse
  else if e.Eid = ieTim then if env.infraOn ∧ isBeacon then .tim o else .skip
  else if e.Eid = ieChannelSwitchAnnouncement then
    if e.Len = 3 then .scalar fun s => { s with NewChannel := e.octet 1 } else .skip
  else if e.Eid = ieVendorSpecific then vendorAct htSeen e c
  else if e.Eid = ieExtSuppRates then if e.Len ≤ 12 then .extRates e.Octet else .skip
  else if e.Eid = ieErp then
    if e.Len = 1 then .scalar fun s => { s with Erp := e.octet 0 } else .skip
  else if e.Eid = ieAironetCkip then
    if e.Len < 28 then .skip else .scalar fun s => { s with CkipFlag := e.octet 8 }
  else if e.Eid = ieApTxPower then
    if e.Len = 6 ∧ e.Octet.take 3 = ciscoOui then
      .scalar fun s => { s with AironetCellPowerLimit := e.octet 4 }
    else .skip
  else if e.Eid = ieRsn then if c.rsn then .copy e.bytes else .skip
  else if e.Eid = ieQbssLoad then
    if e.Len = 5 then .qbssLoad ⟨true, e.word 0, e.octet 2, e.word 3⟩ e.bytes else .skip
  else if e.Eid = ieExtCapability then
    if 1 ≤ e.Len then .scalar fun s => { s with ExtCapInfo := e.octet 0 } else .skip
  else .skip

/-- `GetTimBit`, for the element at `o`. -/
def getTimBit (aid : Nat) (m : Mem) (o : Nat) : TimBit :=
  let timLen := (m (o + 1)).toNat
  let bitCntl := m (o + 4)
  let n1 := (bitCntl &&& 0xfe).toNat
  -- in a byte
  let n2 := (timLen + 252 + n1) % 256
  { DtimCount := m (o + 2)
    DtimPeriod := m (o + 3)
    BcastFlag := decide (m (o + 2) = 0) && bitCntl.getLsbD 0
    MessageToMe :=
      if aid < n1 * 8 ∨ (n2 + 1) * 8 ≤ aid then false
      else
        let myByte := aid / 8 - n1
        (m (o + 4 + (myByte + 1))).getLsbD (aid % 16 - if myByte % 2 = 1 then 8 else 0) }

/-! ## The walk -/

/-- The state of the walk: the bits of `Sanity`, the control channel, and the outputs. -/
structure Walk where
  refused : Bool
  ssidSeen : Bool
  ratesSeen : Bool
  channelSeen : Bool
  CtrlChannel : BitVec 8
  out : BeaconOut

def perform (aid : Nat) (m : Mem) (s : Walk) : Act → Walk
  | .skip => s
  | .refuse => { s with refused := true }
  | .ssid bs => { s with ssidSeen := true, out := { s.out with Ssid := s.out.Ssid.fill bs } }
  | .supRates bs =>
      { s with ratesSeen := true, out := { s.out with SupRate := s.out.SupRate.fill bs } }
  | .extRates bs => { s with out := { s.out with ExtRate := s.out.ExtRate.fill bs } }
  | .dsParm channel => { s with channelSeen := true, out := { s.out with Channel := channel } }
  | .htCap bs ie =>
      { s with out := { s.out with
        HtCapability := s.out.HtCapability.fill bs
        PreNHtCapabilityLen := 0
        pVIE := s.out.pVIE.append ie } }
  | .preNHtCap bs =>
      { s with out := { s.out with
        HtCapability := s.out.HtCapability.write bs
        PreNHtCapabilityLen := 26 } }
  | .addHt bs ie =>
      { s with
        CtrlChannel := bs.getD 0 0
        out := { s.out with
          AddHtInfo := s.out.AddHtInfo.fill bs
          pVIE := s.out.pVIE.append ie } }
  | .preNAddHt bs => { s with out := { s.out with AddHtInfo := s.out.AddHtInfo.fill bs } }
  | .copy ie => { s with out := { s.out with pVIE := s.out.pVIE.append ie } }
  | .scalar f => { s with out := { s.out with scalars := f s.out.scalars } }
  | .tim o => { s with out := { s.out with tim := getTimBit aid m o } }
  | .cfParm p => { s with out := { s.out with CfParm := p } }
  | .qbssLoad p ie =>
      { s with out := { s.out with QbssLoad := p, pVIE := s.out.pVIE.append ie } }
  | .edca f => { s with out := { s.out with EdcaParm := f s.out.EdcaParm } }

/-- `SUBTYPE_BEACON` in the header. -/
def isBeacon (m : Mem) : Bool := m 0 >>> 4 = 8

def Walk.act (s : Walk) (env : Env) (m : Mem) (o : Nat) : Act :=
  elementAct env (isBeacon m) s.ssidSeen (s.out.HtCapability.len ≠ 0) o (eidAt m o) (ouisAt m o)

/-- There is room for the element in `pVIE`, whether it is copied or not. -/
def Walk.room (s : Walk) (m : Mem) (o : Nat) : Bool :=
  s.out.pVIE.len + (m (o + 1)).toNat + 2 < 1024

/-- The elements the loop comes to from `o` on, and the state behind the last one. -/
def walk (env : Env) (m : Mem) (len o : Nat) (s : Walk) : List Nat × Walk :=
  if Tlv.after m o ≤ len then
    if s.room m o then
      let s' := perform env.Aid m s (s.act env m o)
      if s'.refused then ([o], s')
      else
        let r := walk env m len (Tlv.after m o) s'
        (o :: r.1, r.2)
    else ([], s)
  else ([], s)
termination_by len - o
decreasing_by
  unfold Tlv.after at *
  omega

/-- The outputs as the loop meets them: what is not given a default is as it was before. -/
def beaconStart (m : Mem) (init : BeaconOut) : Walk where
  refused := false
  ssidSeen := false
  ratesSeen := false
  channelSeen := false
  CtrlChannel := 0
  out :=
    { init with
      header :=
        { Addr2 := segment m 10 6
          Bssid := segment m 16 6
          Timestamp := segment m 24 8
          BeaconPeriod := segment m 32 2
          CapabilityInfo := segment m 34 2
          isInfra := (m 34).getLsbD 0 }
      ExtRate := { init.ExtRate with len := 0 }
      scalars := .default
      tim := ⟨0, 0, false, false⟩
      CfParm := { init.CfParm with bValid := false }
      EdcaParm := { init.EdcaParm with bValid := false }
      QbssLoad := { init.QbssLoad with bValid := false }
      HtCapability := { init.HtCapability with len := 0 }
      PreNHtCapabilityLen := 0
      AddHtInfo := { init.AddHtInfo with len := 0 }
      pVIE := { init.pVIE with len := 0 } }

/-- In the 5 GHz band the element with the channel may be missing. -/
def Walk.patchChannel (s : Walk) (env : Env) : Walk :=
  if 14 < env.LatchRfChannel.toNat ∧ s.channelSeen = false then
    { s with
      channelSeen := true
      out := { s.out with
        Channel := if s.CtrlChannel ≠ 0 then s.CtrlChannel else env.MsgChannel } }
  else s

/-- The offset of the first element. -/
def beaconElements : Nat := 36

/-- What is returned behind the last element, and the outputs. Three elements must have been
there. -/
def Walk.verdict (env : Env) (s : Walk) : Bool × BeaconOut :=
  if s.refused then (false, s.out)
  else
    let s := s.patchChannel env
    (s.ssidSeen && s.ratesSeen && s.channelSeen, s.out)

def peerBeaconAndProbeRspSanity (env : Env) (m : Mem) (len : Nat) (init : BeaconOut) :
    Bool × BeaconOut :=
  (walk env m len beaconElements (beaconStart m init)).2.verdict env

end ExtDrv.Rt3370.Sanity
