import ExtDrv.Lib.Run
import ExtDrv.Rt3370.PeerAssoc

/-!
# The machines that connect a station

The control machine puts requests to the authentication and the association machine into the MLME
queue and waits for their confirmations; the machines wait for the access point, under a timer
each. Whatever the synchronisation machine confirms and whenever it does so is left open.
-/

namespace ExtDrv.Rt3370.Connect

open Memory Sanity

/-! ## States and messages -/

/-- The states of `Mlme.CntlMachine`. -/
inductive Cntl
  | idle | waitDisassoc | waitJoin | waitReassoc | waitStart | waitAuth | waitAssoc | waitAuth2
  | waitOidListScan | waitOidDisassoc | waitScanForConnect
  deriving DecidableEq

/-- The states of `Mlme.AuthMachine`. -/
inductive Auth
  | reqIdle | waitSeq2 | waitSeq4
  deriving DecidableEq

/-- The states of `Mlme.AssocMachine`. -/
inductive Assoc
  | idle | waitRsp | reassocWaitRsp | disassocWaitRsp
  deriving DecidableEq

/-- What is asked for and confirmed, with a timer each: `AuthTimer`, `AssocTimer`, `ReassocTimer`,
`DisassocTimer`. -/
inductive Kind
  | auth | assoc | reassoc | disassoc
  deriving DecidableEq

/-- What the synchronisation machine is asked for. -/
inductive Sync
  | scan | join | start
  deriving DecidableEq

/-- `MT2_MLME_…_REQ`. -/
inductive Req
  | auth (Addr : Octets) (Alg : BitVec 16)
  | assoc (Addr : Octets)
  | reassoc (Addr : Octets)
  | disassoc (Addr : Octets)

/-- `MT2_PEER_…`, with the frame. -/
inductive Frame
  | authEven (m : Mem)
  | assocRsp (m : Mem) (len : Nat)
  | reassocRsp (m : Mem) (len : Nat)
  | disassocReq (m : Mem)
  | deauth (m : Mem)
  /-- a beacon or an action frame, for the switch of the channel that it may announce -/
  | chSwAnn

/-- What is asked of the control machine from outside. -/
inductive Oid
  | ssid | bssid (Bssid : Octets) | bssidListScan | disassociate | roaming

/-- A message of the queue, for the machine that its kind is of. -/
inductive Elem
  | req (r : Req)
  | syncReq (y : Sync)
  | timeout (k : Kind)
  | peer (f : Frame)
  | conf (k : Kind) (Status : BitVec 16)
  | deauthConf (Status : BitVec 16)
  | syncConf (y : Sync) (Status : BitVec 16)
  | oid (o : Oid)
  | reset

def mlmeRejTimeout : BitVec 16 := 16
def mlmeFailNoResource : BitVec 16 := 0x52
def mlmeInvalidFormat : BitVec 16 := 0x51
def mlmeStateMachineReject : BitVec 16 := 0x53

def authModeOpen : BitVec 16 := 0
def authModeKey : BitVec 16 := 1

inductive BssType
  | adhoc | infra | monitor
  deriving DecidableEq

/-- `Ndis802_11AuthMode…`; the modes of WPA but the two with a passphrase are not told apart. -/
inductive AuthMode
  | openSystem | shared | autoSwitch | wpa | psk
  deriving DecidableEq

/-- The part of `MlmeAux` that the machines go by. -/
structure MlmeAux where
  Bssid : Octets
  BssType : BssType
  Alg : BitVec 16
  BssIdx : Nat
  /-- of `SsidBssTab` -/
  BssNr : Nat
  RoamIdx : Nat

structure Adapter where
  cntl : Cntl
  auth : Auth
  assoc : Assoc
  /-- the timers that run -/
  armed : Kind → Bool
  Queue : List Elem
  MlmeAux : MlmeAux
  /-- `CommonCfg.Bssid` -/
  Bssid : Octets
  infraOn : Bool
  adhocOn : Bool
  bBlockAssoc : Bool
  BssType : BssType
  AuthMode : AuthMode
  CurrentAddress : Octets

/-- What a handler finds out beside the state of the machines: allocations, the tables of what was
scanned, the settings. -/
structure Env where
  /-- `os_alloc_mem` gives `ChlgText` -/
  chlgText : Bool
  cyperChlgText : Bool
  /-- `MlmeAllocateMemory` gives a buffer -/
  mlmeMemory : Bool
  /-- `RTMPSoftEncryptWEP` encrypts -/
  encrypts : Bool
  /-- what is on the stack of `PeerAssocRspSanity`'s caller -/
  stack : AssocOut
  /-- `fRTMP_ADAPTER_RADIO_OFF` -/
  radioOff : Bool
  /-- `bIEEE80211H` and the channel is one with radar -/
  radar : Bool
  /-- the port is not secured yet -/
  portNotSecured : Bool
  /-- the BSS that `BssTableSsidSort` leaves, or those of `RoamTab` -/
  BssNr : Nat
  /-- connected, and to the first BSS of the table -/
  withFirstBss : Bool
  /-- the handshake is not through, or the configuration changed -/
  redo : Bool
  /-- `bAutoReconnect`, a scan is due and the SSID valid -/
  scans : Bool
  /-- `BssTableSearch` finds a BSS that matches -/
  found : Bool
  /-- `bNotFirstScan` is not set -/
  firstScan : Bool
  /-- `MlmeScanReqAction` gets as far as to scan -/
  scanning : Bool
  /-- `bIEEE80211H` is set and another channel announced, in a beacon of the own access point or in
  an action frame of one that `ScanTab` has on the channel -/
  switches : Bool
  /-- the BSS to be joined -/
  target : Octets × BssType

/-! ## Queue and timers -/

def maxLenOfMlmeQueue : Nat := 40

/-- `MlmeEnqueue`; its failure is not looked at. -/
def mlmeEnqueue (s : Adapter) (e : Elem) : Adapter :=
  if s.Queue.length = maxLenOfMlmeQueue then s else { s with Queue := s.Queue ++ [e] }

def rtmpSetTimer (s : Adapter) (k : Kind) : Adapter :=
  { s with armed := Function.update s.armed k true }

def rtmpCancelTimer (s : Adapter) (k : Kind) : Adapter :=
  { s with armed := Function.update s.armed k false }

/-- The machine of a kind is set to idle. -/
def toIdle (s : Adapter) : Kind → Adapter
  | .auth => { s with auth := .reqIdle }
  | .assoc | .reassoc | .disassoc => { s with assoc := .idle }

/-- The machine of a kind is set to idle, and the confirmation enqueued. -/
def endWith (k : Kind) (Status : BitVec 16) (s : Adapter) : Adapter :=
  mlmeEnqueue (toIdle s k) (.conf k Status)

/-! ## Links -/

/-- `LinkDown`; nothing in monitor mode. -/
def linkDown (s : Adapter) : Adapter :=
  if s.BssType = .monitor then s
  else if s.adhocOn then { s with adhocOn := false } else { s with infraOn := false }

/-- `LinkUp`. -/
def linkUp (s : Adapter) (t : BssType) : Adapter :=
  let s := { rtmpCancelTimer s .disassoc with Bssid := s.MlmeAux.Bssid }
  if t = .adhoc then { s with adhocOn := true, infraOn := false }
  else { s with infraOn := true, adhocOn := false }

/-! ## Authentication -/

def authTimeoutAction : Adapter → Adapter := endWith .auth mlmeRejTimeout

def invalidStateWhenAuth : Adapter → Adapter := endWith .auth mlmeStateMachineReject

def mlmeAuthReqSanity (Addr : Octets) (Alg : BitVec 16) : Bool :=
  (Alg == authModeKey || Alg == authModeOpen) && !(Addr.getD 0 0).getLsbD 0

/-- `AUTH_ReqSend`. A refused or failed request is confirmed here already. -/
def authReqSend (env : Env) (s : Adapter) (Addr : Octets) (Alg : BitVec 16) : Bool × Adapter :=
  if s.bBlockAssoc then (true, endWith .auth mlmeStateMachineReject s)
  else if mlmeAuthReqSanity Addr Alg then
    let s := rtmpCancelTimer s .auth
    let s := { s with MlmeAux := { s.MlmeAux with Bssid := Addr, Alg := Alg } }
    if env.mlmeMemory then (true, rtmpSetTimer s .auth)
    else (false, endWith .auth mlmeFailNoResource s)
  else (false, s)

def mlmeAuthReqAction (env : Env) (s : Adapter) (Addr : Octets) (Alg : BitVec 16) : Adapter :=
  let (sent, s) := authReqSend env s Addr Alg
  if sent then { s with auth := .waitSeq2 } else endWith .auth mlmeInvalidFormat s

/-- `PeerAuthSanity`, of the fixed fields of the frame. -/
def peerAuthSanity (m : Mem) : Bool :=
  if le16 m 24 = authModeOpen then le16 m 26 == 1 || le16 m 26 == 2
  else le16 m 24 == authModeKey &&
    (le16 m 26 == 1 || le16 m 26 == 4 || le16 m 26 == 2 || le16 m 26 == 3)

/-- An answer with number `Seq` from the access point that is asked. -/
def authAnswer (s : Adapter) (m : Mem) (Seq : BitVec 16) : Bool :=
  peerAuthSanity m && segment m 10 6 == s.MlmeAux.Bssid && le16 m 26 == Seq

def peerAuthRspAtSeq2Action (env : Env) (s : Adapter) (m : Mem) : Adapter :=
  if !env.chlgText || !env.cyperChlgText then s
  else if authAnswer s m 2 then
    let s := rtmpCancelTimer s .auth
    if le16 m 28 = mlmeSuccess then
      if s.MlmeAux.Alg = authModeOpen then endWith .auth (le16 m 28) s
      -- the challenge is sent back encrypted
      else if !env.mlmeMemory || !env.encrypts then endWith .auth mlmeFailNoResource s
      else { rtmpSetTimer s .auth with auth := .waitSeq4 }
    else endWith .auth (le16 m 28) s
  else s

def peerAuthRspAtSeq4Action (env : Env) (s : Adapter) (m : Mem) : Adapter :=
  if !env.chlgText then s
  else if authAnswer s m 4 then endWith .auth (le16 m 28) (rtmpCancelTimer s .auth)
  else s

def mlmeDeauthReqAction (env : Env) (s : Adapter) : Adapter :=
  mlmeEnqueue (toIdle s .auth)
    (.deauthConf (if env.mlmeMemory then mlmeSuccess else mlmeFailNoResource))

/-! ## Association -/

def assocTimeoutAction : Adapter → Adapter := endWith .assoc mlmeRejTimeout

def reassocTimeoutAction : Adapter → Adapter := endWith .reassoc mlmeRejTimeout

def disassocTimeoutAction : Adapter → Adapter := endWith .disassoc mlmeSuccess

def invalidStateWhenAssoc : Adapter → Adapter := endWith .assoc mlmeStateMachineReject

def invalidStateWhenReassoc : Adapter → Adapter := endWith .reassoc mlmeStateMachineReject

def invalidStateWhenDisassociate : Adapter → Adapter := endWith .disassoc mlmeStateMachineReject

/-- `MlmeAssocReqAction`; `MlmeAssocReqSanity` lets everything through. -/
def mlmeAssocReqAction (env : Env) (s : Adapter) (Addr : Octets) : Adapter :=
  if s.bBlockAssoc then endWith .assoc mlmeStateMachineReject s
  else
    let s := rtmpCancelTimer s .assoc
    let s := { s with MlmeAux := { s.MlmeAux with Bssid := Addr } }
    if env.mlmeMemory then { rtmpSetTimer s .assoc with assoc := .waitRsp }
    else endWith .assoc mlmeFailNoResource s

def mlmeReassocReqAction (env : Env) (s : Adapter) (Addr : Octets) : Adapter :=
  if s.bBlockAssoc then endWith .reassoc mlmeStateMachineReject s
  else
    let s := rtmpCancelTimer s .reassoc
    if env.mlmeMemory then
      let s := { s with MlmeAux := { s.MlmeAux with Bssid := Addr } }
      { rtmpSetTimer s .reassoc with assoc := .reassocWaitRsp }
    else endWith .reassoc mlmeFailNoResource s

/-- `MlmeDisassocReqAction`; its timer is set to the same again whether it ran or not. -/
def mlmeDisassocReqAction (env : Env) (s : Adapter) : Adapter :=
  if env.mlmeMemory then { rtmpSetTimer s .disassoc with assoc := .disassocWaitRsp }
  else endWith .disassoc mlmeFailNoResource s

/-- A response from the access point that is asked, and its status. -/
def assocAnswer (env : Env) (s : Adapter) (m : Mem) (len : Nat) : Option (BitVec 16) :=
  let (sane, out) := peerAssocRspSanity m len env.stack
  if sane = true ∧ out.Addr2 = s.MlmeAux.Bssid then some out.Status else none

def peerAssocRspAction (env : Env) (s : Adapter) (m : Mem) (len : Nat) : Adapter :=
  match assocAnswer env s m len with
  | some Status => endWith .assoc Status (rtmpCancelTimer s .assoc)
  | none => s

def peerReassocRspAction (env : Env) (s : Adapter) (m : Mem) (len : Nat) : Adapter :=
  match assocAnswer env s m len with
  | some Status => endWith .reassoc Status (rtmpCancelTimer s .reassoc)
  | none => s

/-- A frame is from the access point the station is with. -/
def fromOwnAp (s : Adapter) (m : Mem) : Bool := s.infraOn && s.Bssid == segment m 10 6

/-- `PeerDisassocAction`. Only one of the waits for a disassociation is confirmed. -/
def peerDisassocAction (s : Adapter) (m : Mem) : Adapter :=
  if fromOwnAp s m then
    { (if s.cntl = .waitDisassoc then mlmeEnqueue s (.conf .disassoc mlmeSuccess) else linkDown s)
      with assoc := .idle }
  else s

/-! ## The control machine -/

def Adapter.ask (s : Adapter) (r : Req) (c : Cntl) : Adapter :=
  { mlmeEnqueue s (.req r) with cntl := c }

def Adapter.askSync (s : Adapter) (y : Sync) (c : Cntl) : Adapter :=
  { mlmeEnqueue s (.syncReq y) with cntl := c }

def Adapter.nextBss (s : Adapter) : Adapter :=
  { s with MlmeAux := { s.MlmeAux with BssIdx := s.MlmeAux.BssIdx + 1 } }

def iterateOnBssTab (s : Adapter) : Adapter :=
  if s.BssType = .adhoc then
    if s.MlmeAux.BssIdx < s.MlmeAux.BssNr then s.askSync .join .waitJoin
    else s.askSync .start .waitStart
  else if s.MlmeAux.BssIdx < s.MlmeAux.BssNr ∧ s.BssType = .infra then s.askSync .join .waitJoin
  else { s with MlmeAux := { s.MlmeAux with BssNr := 0 }, cntl := .idle }

/-- `IterateOnBssTab2`; `RoamTab` is read for the access point. -/
def iterateOnBssTab2 (env : Env) (s : Adapter) : Adapter :=
  if s.MlmeAux.RoamIdx < env.BssNr then s.ask (.reassoc env.target.1) .waitReassoc
  else { s with cntl := .idle }

/-- The authentication that is tried first. -/
def firstAlg (m : AuthMode) : BitVec 16 :=
  if m = .shared ∨ m = .autoSwitch then authModeKey else authModeOpen

def cntlOidSsidProc (env : Env) (s : Adapter) : Adapter :=
  let Bssid := if s.BssType = .infra then List.replicate 6 0 else s.MlmeAux.Bssid
  let aux := { s.MlmeAux with Bssid := Bssid, BssNr := env.BssNr, BssType := s.BssType }
  let s := { s with MlmeAux := aux }
  if s.infraOn && env.withFirstBss then
    if env.redo then s.ask (.disassoc s.Bssid) .waitDisassoc else { s with cntl := .idle }
  else if s.infraOn then s.ask (.disassoc s.Bssid) .waitDisassoc
  else
    let s := if s.adhocOn then linkDown s else s
    if env.BssNr = 0 ∧ env.scans = true then s.askSync .scan .waitOidListScan
    else iterateOnBssTab { s with MlmeAux := { s.MlmeAux with BssIdx := 0 } }

def cntlOidRTBssidProc (env : Env) (s : Adapter) (Bssid : Octets) : Adapter :=
  let s := { s with MlmeAux := { s.MlmeAux with Bssid := Bssid, BssType := s.BssType } }
  if env.found then
    let s := { s with MlmeAux := { s.MlmeAux with BssIdx := 0, BssNr := 1 } }
    if s.infraOn then s.ask (.disassoc s.Bssid) .waitDisassoc
    else (if s.adhocOn then linkDown s else s).askSync .join .waitJoin
  else if s.BssType = .infra ∨ env.firstScan = true then s.askSync .scan .waitOidListScan
  else s.askSync .start .waitStart

def cntlOidScanProc (env : Env) (s : Adapter) : Adapter :=
  if env.mlmeMemory then s.askSync .scan .waitOidListScan else s

def cntlMlmeRoamingProc (env : Env) (s : Adapter) : Adapter :=
  iterateOnBssTab { s with MlmeAux := { s.MlmeAux with BssNr := env.BssNr, BssIdx := 0 } }

def cntlIdleProc (env : Env) (s : Adapter) : Oid → Adapter
  | .ssid => cntlOidSsidProc env s
  | .bssid Bssid => cntlOidRTBssidProc env s Bssid
  | .bssidListScan => cntlOidScanProc env s
  | .disassociate => s.ask (.disassoc s.Bssid) .waitOidDisassoc
  | .roaming => cntlMlmeRoamingProc env s

def cntlWaitDisassocProc (s : Adapter) : Adapter :=
  let s := linkDown s
  if s.MlmeAux.BssNr = 0 ∧ s.BssType = .adhoc then s.askSync .start .waitStart
  else iterateOnBssTab s.nextBss

/-- Joined or started an IBSS, unless the channel forbids it. -/
def ibss (env : Env) (s : Adapter) : Adapter :=
  { (if env.radar then s else linkUp s .adhoc) with cntl := .idle }

def cntlWaitJoinProc (env : Env) (s : Adapter) (Reason : BitVec 16) : Adapter :=
  if Reason = mlmeSuccess then
    if s.MlmeAux.BssType = .adhoc then ibss env s
    else s.ask (.auth s.MlmeAux.Bssid (firstAlg s.AuthMode)) .waitAuth
  else iterateOnBssTab s.nextBss

def cntlWaitStartProc (env : Env) (s : Adapter) (Result : BitVec 16) : Adapter :=
  if Result = mlmeSuccess then ibss env s else { s with cntl := .idle }

def cntlWaitAuthProc (s : Adapter) (Reason : BitVec 16) : Adapter :=
  if Reason = mlmeSuccess then s.ask (.assoc s.MlmeAux.Bssid) .waitAssoc
  else s.ask (.auth s.MlmeAux.Bssid (firstAlg s.AuthMode)) .waitAuth2

def cntlWaitAuthProc2 (s : Adapter) (Reason : BitVec 16) : Adapter :=
  if Reason = mlmeSuccess then s.ask (.assoc s.MlmeAux.Bssid) .waitAssoc
  else if s.AuthMode = .autoSwitch ∧ s.MlmeAux.Alg = authModeKey then
    s.ask (.auth s.MlmeAux.Bssid authModeOpen) .waitAuth2
  else iterateOnBssTab { s with cntl := .idle }.nextBss

def cntlWaitAssocProc (s : Adapter) (Reason : BitVec 16) : Adapter :=
  if Reason = mlmeSuccess then { linkUp s .infra with cntl := .idle }
  else iterateOnBssTab s.nextBss

def cntlWaitReassocProc (env : Env) (s : Adapter) (Result : BitVec 16) : Adapter :=
  if Result = mlmeSuccess then { linkUp s .infra with cntl := .idle }
  else iterateOnBssTab2 env
    { s with MlmeAux := { s.MlmeAux with RoamIdx := s.MlmeAux.RoamIdx + 1 } }

/-- `MlmeAutoReconnectLastSSID`, to the last BSSID or the last SSID. -/
def mlmeAutoReconnectLastSSID (s : Adapter) (byBssid validSsid : Bool) : Adapter :=
  if byBssid then { mlmeEnqueue s (.oid (.bssid s.MlmeAux.Bssid)) with cntl := .idle }
  else if s.cntl = .idle ∧ validSsid = true then mlmeEnqueue s (.oid .ssid)
  else s

/-- `MlmeCntlMachinePerformAction`: what is confirmed to the machine in its state. -/
def mlmeCntlMachinePerformAction (env : Env) (s : Adapter) : Elem → Adapter
  | .oid o => if s.cntl = .idle ∧ env.radioOff = false then cntlIdleProc env s o else s
  | .conf .disassoc _ =>
    match s.cntl with
    | .waitDisassoc => cntlWaitDisassocProc s
    | .waitOidDisassoc => { linkDown s with cntl := .idle }
    | _ => s
  | .conf .auth Reason =>
    match s.cntl with
    | .waitAuth => cntlWaitAuthProc s Reason
    | .waitAuth2 => cntlWaitAuthProc2 s Reason
    | _ => s
  | .conf .assoc Reason => if s.cntl = .waitAssoc then cntlWaitAssocProc s Reason else s
  | .conf .reassoc Result => if s.cntl = .waitReassoc then cntlWaitReassocProc env s Result else s
  | .syncConf .join Reason => if s.cntl = .waitJoin then cntlWaitJoinProc env s Reason else s
  | .syncConf .start Result => if s.cntl = .waitStart then cntlWaitStartProc env s Result else s
  | .syncConf .scan _ =>
    match s.cntl with
    | .waitOidListScan => { s with cntl := .idle }
    | .waitScanForConnect =>
      let s := { s with cntl := .idle, MlmeAux := { s.MlmeAux with BssNr := env.BssNr } }
      if 0 < env.BssNr then mlmeAutoReconnectLastSSID s env.found env.scans else s
    | _ => s
  | _ => s

/-! ## The other machines -/

/-- `PeerDeauthAction`. With a passphrase that may have been wrong, the next access point is tried. -/
def peerDeauthAction (env : Env) (s : Adapter) (m : Mem) : Adapter :=
  if fromOwnAp s m && (segment m 4 6 == s.CurrentAddress || segment m 4 6 == List.replicate 6 0xff)
      && segment m 16 6 == s.Bssid then
    if env.portNotSecured && s.AuthMode == .psk then iterateOnBssTab (linkDown s).nextBss
    else linkDown s
  else s

/-- `MlmeQueueInit`: the queue is emptied. -/
def mlmeQueueInit (s : Adapter) : Adapter := { s with Queue := [] }

/-- `PeerChSwAnnAction`, and `PeerBeacon` on an announcement. -/
def peerChSwAnnAction (env : Env) (s : Adapter) : Adapter :=
  if env.switches then mlmeQueueInit (linkDown s) else s

/-- What the control machine and `MlmeAux` get of a request to the synchronisation machine. -/
def syncAction (env : Env) (s : Adapter) : Sync → Adapter
  | .scan => if env.scanning then { s with cntl := .waitOidListScan } else s
  | .join => { s with MlmeAux := { s.MlmeAux with Bssid := env.target.1, BssType := env.target.2 } }
  | .start => { s with MlmeAux := { s.MlmeAux with Bssid := env.target.1, BssType := .adhoc } }

/-- The authentication machine, by state and message. -/
def authAction (env : Env) (s : Adapter) : Elem → Adapter
  | .req (.auth Addr Alg) =>
    if s.auth = .reqIdle then mlmeAuthReqAction env s Addr Alg else invalidStateWhenAuth s
  | .peer (.authEven m) =>
    match s.auth with
    | .reqIdle => s
    | .waitSeq2 => peerAuthRspAtSeq2Action env s m
    | .waitSeq4 => peerAuthRspAtSeq4Action env s m
  | .timeout .auth => if s.auth = .reqIdle then s else authTimeoutAction s
  | _ => s

/-- The association machine, by state and message. -/
def assocAction (env : Env) (s : Adapter) : Elem → Adapter
  | .req (.assoc Addr) =>
    if s.assoc = .idle then mlmeAssocReqAction env s Addr else invalidStateWhenAssoc s
  | .req (.reassoc Addr) =>
    if s.assoc = .idle then mlmeReassocReqAction env s Addr else invalidStateWhenReassoc s
  | .req (.disassoc _) =>
    if s.assoc = .idle then mlmeDisassocReqAction env s else invalidStateWhenDisassociate s
  | .peer (.disassocReq m) => peerDisassocAction s m
  | .peer (.assocRsp m len) | .peer (.reassocRsp m len) =>
    match s.assoc with
    | .waitRsp => peerAssocRspAction env s m len
    | .reassocWaitRsp => peerReassocRspAction env s m len
    | .idle | .disassocWaitRsp => s
  | .timeout .assoc => if s.assoc = .waitRsp then assocTimeoutAction s else s
  | .timeout .reassoc => if s.assoc = .reassocWaitRsp then reassocTimeoutAction s else s
  | .timeout .disassoc => if s.assoc = .disassocWaitRsp then disassocTimeoutAction s else s
  | _ => s

/-- `MlmeRestartStateMachine`; the queue stays. -/
def mlmeRestartStateMachine (s : Adapter) : Adapter :=
  { s with armed := fun _ => false, cntl := .idle, assoc := .idle, auth := .reqIdle }

/-- A turn of `MlmeHandler` on an element that is off the queue. -/
def handleElem (env : Env) (s : Adapter) : Elem → Adapter
  | .reset => mlmeRestartStateMachine s
  | .syncReq y => syncAction env s y
  | .peer (.deauth m) => peerDeauthAction env s m
  | .peer .chSwAnn => peerChSwAnnAction env s
  | .req (.auth Addr Alg) => authAction env s (.req (.auth Addr Alg))
  | .peer (.authEven m) => authAction env s (.peer (.authEven m))
  | .timeout .auth => authAction env s (.timeout .auth)
  | .conf k Status => mlmeCntlMachinePerformAction env s (.conf k Status)
  | .syncConf y Status => mlmeCntlMachinePerformAction env s (.syncConf y Status)
  | .deauthConf _ => s
  | .oid o => mlmeCntlMachinePerformAction env s (.oid o)
  | e => assocAction env s e

/-- `MlmeHandler`, one turn. -/
def mlmeHandler (env : Env) (s : Adapter) : Adapter :=
  match s.Queue with
  | [] => s
  | e :: es => handleElem env { s with Queue := es } e

/-! ## What else happens -/

/-- `AuthTimeout`, `AssocTimeout`, `ReassocTimeout`, `DisassocTimeout`: the timer is over, and the
machine is told. -/
def timeout (s : Adapter) (k : Kind) : Adapter :=
  mlmeEnqueue (rtmpCancelTimer s k) (.timeout k)

/-- `MlmeEnqueueForRecv`, into a queue that is not half full. -/
def mlmeEnqueueForRecv (s : Adapter) (f : Frame) : Adapter :=
  if maxLenOfMlmeQueue / 2 ≤ s.Queue.length then s
  else { s with Queue := s.Queue ++ [.peer f] }

/-- `LinkDownExec`. -/
def linkDownExec (env : Env) (s : Adapter) : Adapter :=
  if env.portNotSecured && s.infraOn then s.ask (.disassoc s.Bssid) .waitDisassoc else s

def wpaDisassocApAndBlockAssoc (s : Adapter) : Adapter :=
  { s.ask (.disassoc s.Bssid) .waitDisassoc with bBlockAssoc := true }

/-- `RT_CMD_STA_IOCTL_IW_MLME_DEAUTH`. -/
def iwMlmeDeauth (env : Env) (s : Adapter) : Adapter :=
  let s := mlmeDeauthReqAction env s
  if s.infraOn then { linkDown s with assoc := .idle } else s

/-- `RT_CMD_STA_IOCTL_IW_MLME_DISASSOC`, and the interface closed. -/
def iwMlmeDisassoc (env : Env) (s : Adapter) : Adapter :=
  mlmeDisassocReqAction env { s with cntl := .waitOidDisassoc }

/-- The radio is switched off: the station leaves without a word to the control machine. -/
def radioOff (env : Env) (s : Adapter) : Adapter :=
  if s.infraOn || s.adhocOn then mlmeDisassocReqAction env s else s

inductive Op
  | handle (env : Env)
  | fires (k : Kind)
  | receive (f : Frame)
  /-- from the user, the periodic check for roaming, or the driver itself -/
  | oid (o : Oid)
  | autoReconnect (byBssid validSsid : Bool)
  /-- `RTMP_MLME_RESET_STATE_MACHINE` -/
  | reset
  /-- the synchronisation machine confirms something -/
  | syncConf (y : Sync) (Status : BitVec 16)
  /-- a scan that is not asked for by the control machine, which is set to wait for it or not -/
  | scan (waits : Bool)
  | linkDown
  | linkDownExec (env : Env)
  | wpaDisassocApAndBlockAssoc
  | blockAssoc (b : Bool)
  | iwMlmeDeauth (env : Env)
  | iwMlmeDisassoc (env : Env)
  | radioOff (env : Env)

def step (s : Adapter) : Op → Adapter
  | .handle env => mlmeHandler env s
  | .fires k => if s.armed k then timeout s k else s
  | .receive f => mlmeEnqueueForRecv s f
  | .oid o => mlmeEnqueue s (.oid o)
  | .autoReconnect byBssid validSsid => mlmeAutoReconnectLastSSID s byBssid validSsid
  | .reset => mlmeEnqueue s .reset
  | .syncConf y Status => mlmeEnqueue s (.syncConf y Status)
  | .scan waits => if waits then s.askSync .scan .waitOidListScan else mlmeEnqueue s (.syncReq .scan)
  | .linkDown => linkDown s
  | .linkDownExec env => linkDownExec env s
  | .wpaDisassocApAndBlockAssoc => wpaDisassocApAndBlockAssoc s
  | .blockAssoc b => { s with bBlockAssoc := b }
  | .iwMlmeDeauth env => iwMlmeDeauth env s
  | .iwMlmeDisassoc env => iwMlmeDisassoc env s
  | .radioOff env => radioOff env s

/-- `MlmeInit`. -/
def mlmeInit (BssType : BssType) (AuthMode : AuthMode) (CurrentAddress : Octets) : Adapter where
  cntl := .idle
  auth := .reqIdle
  assoc := .idle
  armed _ := false
  Queue := []
  MlmeAux :=
    { Bssid := List.replicate 6 0, BssType := BssType, Alg := authModeOpen, BssIdx := 0, BssNr := 0,
      RoamIdx := 0 }
  Bssid := List.replicate 6 0
  infraOn := false
  adhocOn := false
  bBlockAssoc := false
  BssType := BssType
  AuthMode := AuthMode
  CurrentAddress := CurrentAddress

end ExtDrv.Rt3370.Connect
