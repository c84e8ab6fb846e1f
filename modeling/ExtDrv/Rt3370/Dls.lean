import ExtDrv.Rt3370.Eapol
import ExtDrv.Rt3370.MacTable

/-!
# Direct links

A direct link has an entry in `StaCfg.DLSEntry` and one in the MAC table; the first names the second
by `MacTabMatchWCID`. Some handlers change both at once. Others change the DLS entry and queue a
message with a pointer to it, and the MAC table follows when the message is handled.

What a call through a null pointer does is `none`, as a walk that does not end.
-/

namespace ExtDrv.Rt3370.Dls

open Chain Mac

/-- `MAX_NUM_OF_DLS_ENTRY`; entry 0 is for links set up from here (`MAX_NUM_OF_INIT_DLS_ENTRY`). -/
abbrev maxNumOfDlsEntry : Nat := 4

abbrev DlsIdx := Fin maxNumOfDlsEntry

/-- `DLS_NONE`. -/
def dlsNone : BitVec 8 := 0

/-- `DLS_WAIT_KEY`. -/
def dlsWaitKey : BitVec 8 := 1

/-- `DLS_FINISH`. -/
def dlsFinish : BitVec 8 := 2

/-! ## Entries -/

/-- `RT_802_11_DLS_UI`, the head of an entry. A user fills in all of it. -/
structure DlsUi where
  TimeOut : BitVec 16
  CountDownTimer : BitVec 16
  MacAddr : Bytes 6
  Status : BitVec 8
  Valid : Bool

/-- `RT_802_11_DLS`. -/
structure DlsEntry extends DlsUi where
  /-- `Timer` is running. -/
  Timer : Bool
  Sequence : BitVec 16
  MacTabMatchWCID : Nat
  bHTCap : Bool

/-- The rates and the HT capability of a peer: what the rest of a MAC table entry is computed
from. -/
structure PeerCaps where
  MaxSupportedRateIn500Kbps : BitVec 8
  SupportedRatesLen : BitVec 8
  HtCapability : Option (List (BitVec 8))
  deriving DecidableEq

/-- A message of the DLS state machine, with its pointer to an entry. -/
inductive DlsMsg
  /-- `MT2_MLME_DLS_REQ` -/
  | req (pDLS : DlsIdx) (Reason : Nat)
  /-- `MT2_MLME_DLS_TEAR_DOWN` -/
  | tearDown (pDLS : DlsIdx) (Reason : Nat)
  deriving DecidableEq

inductive Sent
  | dlsReq (da : Bytes 6) (TimeOut : BitVec 16)
  | dlsRsp (da : Bytes 6) (StatusCode : Nat)
  | tearDown (da : Bytes 6) (ReasonCode : Nat)
  /-- `RTMPSendSTAKeyRequest`, whatever comes of it -/
  | staKeyRequest (da : Bytes 6)

structure State where
  DLSEntry : DlsIdx → DlsEntry
  MacTab : MacTable
  /-- What the rates of a MAC table entry were last set from. -/
  caps : Wcid → Option PeerCaps
  queue : List DlsMsg
  sent : List Sent

/-- What does not change while the station is associated. -/
structure Config where
  bDLSCapable : Bool
  bWmmCapable : Bool
  infraOn : Bool
  authMode : AuthMode
  /-- The byte of the adapter at the place an entry has `Valid`. -/
  adapterByte : Bool

/-- `AuthMode >= Ndis802_11AuthModeWPA`. -/
def Config.wpa (cfg : Config) : Bool := decide (AuthMode.wpa.toNat ≤ cfg.authMode.toNat)

def State.setEntry (s : State) (i : DlsIdx) (e : DlsEntry) : State :=
  { s with DLSEntry := Function.update s.DLSEntry i e }

/-- `MlmeEnqueue`, to a queue that has room for `room` messages of the state machine. -/
def State.enqueue (s : State) (room : Nat) (m : DlsMsg) : State :=
  if s.queue.length < room then { s with queue := s.queue ++ [m] } else s

def State.send (s : State) (f : Sent) : State := { s with sent := s.sent ++ [f] }

/-- The entry is given up, and the rest left to a message. -/
def State.giveUp (s : State) (room : Nat) (i : DlsIdx) (reason : Nat) : State :=
  (s.setEntry i { s.DLSEntry i with Valid := false, Status := dlsNone }).enqueue room
    (.tearDown i reason)

section

variable {s : State} {i j : DlsIdx} {e : DlsEntry} {room : Nat} {m : DlsMsg}

@[simp] theorem setEntry_self : (s.setEntry i e).DLSEntry i = e := Function.update_self ..

theorem setEntry_of_ne (h : j ≠ i) : (s.setEntry i e).DLSEntry j = s.DLSEntry j :=
  Function.update_of_ne h ..

@[simp] theorem setEntry_MacTab : (s.setEntry i e).MacTab = s.MacTab := rfl

@[simp] theorem setEntry_queue : (s.setEntry i e).queue = s.queue := rfl

@[simp] theorem send_DLSEntry {f : Sent} : (s.send f).DLSEntry = s.DLSEntry := rfl

@[simp] theorem send_MacTab {f : Sent} : (s.send f).MacTab = s.MacTab := rfl

@[simp] theorem send_queue {f : Sent} : (s.send f).queue = s.queue := rfl

@[simp] theorem enqueue_DLSEntry : (s.enqueue room m).DLSEntry = s.DLSEntry := by
  rw [State.enqueue]
  split <;> rfl

@[simp] theorem enqueue_MacTab : (s.enqueue room m).MacTab = s.MacTab := by
  rw [State.enqueue]
  split <;> rfl

theorem mem_enqueue {m' : DlsMsg} : m' ∈ (s.enqueue room m).queue
    ↔ m' ∈ s.queue ∨ (s.queue.length < room ∧ m' = m) := by
  rw [State.enqueue]
  split
  · rename_i hroom
    simp [hroom]
  · rename_i hfull
    simp [hfull]

end

/-! ## Requests of the user -/

/-- The branches of `CntlOidDLSSetupProc`. -/
inductive OidCase
  | unchanged
  | tearDown
  | setUp
  | updateMac
  | updateTimeOut
  | retry
  deriving DecidableEq

def oidCase (ui : DlsUi) (e : DlsEntry) : Option OidCase :=
  if ui.Valid ∧ e.Valid ∧ e.Status = dlsFinish ∧ ui.TimeOut = e.TimeOut ∧
      ui.MacAddr = e.MacAddr then
    some .unchanged
  else if ui.Valid = false ∧ e.Valid ∧ e.Status = dlsFinish ∧ ui.MacAddr = e.MacAddr then
    some .tearDown
  else if ui.Valid ∧ e.Valid = false then some .setUp
  else if ui.Valid ∧ e.Valid ∧ e.Status = dlsFinish ∧ ui.MacAddr ≠ e.MacAddr then some .updateMac
  else if ui.Valid ∧ e.Valid ∧ ui.MacAddr = e.MacAddr ∧ e.TimeOut ≠ ui.TimeOut then
    some .updateTimeOut
  else if ui.Valid ∧ e.Valid ∧ e.Status ≠ dlsFinish ∧ ui.MacAddr = e.MacAddr then some .retry
  else none

/-- The first entry one of the branches is for. -/
def oidEntry (s : State) (ui : DlsUi) : Option (DlsIdx × OidCase) :=
  (List.finRange maxNumOfDlsEntry).findSome? fun i =>
    (oidCase ui (s.DLSEntry i)).map fun c => (i, c)

def applyOid (s : State) (room : Nat) (ui : DlsUi) (i : DlsIdx) : OidCase → State
  | .unchanged => s
  | .tearDown => s.giveUp room i 37
  | .setUp =>
      (s.setEntry i { s.DLSEntry i with toDlsUi := { ui with CountDownTimer := ui.TimeOut } }).enqueue
        room (.req i 1)
  | .updateMac =>
      let s := s.giveUp room i 37
      (s.setEntry i { s.DLSEntry i with toDlsUi := ui }).enqueue room (.req i 37)
  | .updateTimeOut =>
      (s.setEntry i
        { s.DLSEntry i with TimeOut := ui.TimeOut, CountDownTimer := ui.TimeOut }).enqueue room
        (.req i 1)
  | .retry => s.enqueue room (.req i 1)

def cntlOidDLSSetupProc (cfg : Config) (s : State) (ui : DlsUi) (room : Nat) : State :=
  if cfg.bDLSCapable && cfg.infraOn then
    match oidEntry s ui with
    | none => s
    | some (i, c) => applyOid s room ui i c
  else s

/-! ## The MAC table -/

def dlsEntryTableLookup (t : MacTable) (pAddr : Bytes 6) : Option (Option Wcid) :=
  (search t.links.next
    (fun i => decide ((t.Content i).EntryType = .dls ∧ (t.Content i).Addr = pAddr))
    maxLenOfMacTable (t.links.heads (macAddrHashIndex pAddr)) none).map Prod.fst

/-- An entry that is there is taken as it is, and `MacTabMatchWCID` is left alone. The pointer
may be null. -/
def macTableInsertDlsEntry (s : State) (pAddr : Bytes 6) (i : DlsIdx) :
    Option (State × Option Wcid) :=
  if maxLenOfMacTable ≤ s.MacTab.Size then some (s, none)
  else
    (dlsEntryTableLookup s.MacTab pAddr).bind fun found =>
      match found with
      | some w => some (s, some w)
      | none =>
          match s.MacTab.vacancy true with
          | none => some (s, none)
          | some w =>
              (macTableInsertEntry s.MacTab true pAddr (i + minNetDeviceForDls)).map fun t =>
                ({ s with MacTab := t }.setEntry i
                  { s.DLSEntry i with MacTabMatchWCID := (t.Content w).Aid }, some w)

/-- The rates of the entry are set through the pointer. -/
def insertPeer (s : State) (pAddr : Bytes 6) (i : DlsIdx) (caps : PeerCaps) : Option State :=
  (macTableInsertDlsEntry s pAddr i).bind fun r =>
    r.2.map fun w => { r.1 with caps := Function.update r.1.caps w (some caps) }

/-- `VALID_WCID` is asked first. -/
def macTableDeleteDlsEntry (t : MacTable) (wcid : Nat) (pAddr : Bytes 6) : Option MacTable :=
  if 0 < wcid ∧ wcid < maxLenOfMacTable then macTableDeleteEntry t wcid pAddr else some t

/-- The entry's own MAC table entry. -/
def State.deleteMac (s : State) (i : DlsIdx) : Option State :=
  (macTableDeleteDlsEntry s.MacTab (s.DLSEntry i).MacTabMatchWCID (s.DLSEntry i).MacAddr).map
    fun t => { s with MacTab := t }

/-! ## Received frames -/

/-- What is read of a request; the frame is always found sane. -/
structure PeerReq where
  SA : Bytes 6
  DLSTimeOut : BitVec 16
  caps : PeerCaps

structure PeerRsp where
  SA : Bytes 6
  StatusCode : Nat
  caps : PeerCaps

def mlmeSuccess : Nat := 0

def PeerCaps.ht (c : PeerCaps) : Bool := c.HtCapability.isSome

/-- An entry for the peer that asks, found or new. With WPA the keys come first. -/
def acceptReq (cfg : Config) (e : DlsEntry) (r : PeerReq) : DlsEntry :=
  { e with
    Status := if cfg.wpa then dlsWaitKey else dlsFinish
    -- with WPA the timer is set when the answer is sent
    Timer := cfg.wpa
    Sequence := 0
    TimeOut := r.DLSTimeOut
    CountDownTimer := r.DLSTimeOut
    bHTCap := r.caps.ht }

def entryOf (s : State) (sa : Bytes 6) (i : DlsIdx) : Bool :=
  (s.DLSEntry i).Valid && decide ((s.DLSEntry i).MacAddr = sa)

/-- From the last one down. -/
def findEntry (s : State) (sa : Bytes 6) : Option DlsIdx :=
  (List.finRange maxNumOfDlsEntry).reverse.find? (entryOf s sa)

def freeEntry (s : State) : Option DlsIdx :=
  (List.finRange maxNumOfDlsEntry).reverse.find? fun i =>
    decide (1 ≤ i.val) && !(s.DLSEntry i).Valid

/-- Without a free entry the answer is a success, too: the index does not get below zero. -/
def peerDlsReqAction (cfg : Config) (s : State) (r : PeerReq) (granted : Bool) : Option State :=
  if !granted then some s
  else if !cfg.infraOn then some (s.send (.dlsRsp r.SA 37))
  else if !cfg.bWmmCapable then some (s.send (.dlsRsp r.SA 50))
  else if !cfg.bDLSCapable then some (s.send (.dlsRsp r.SA 37))
  else
    (match findEntry s r.SA with
      | some i => some (s.setEntry i (acceptReq cfg (s.DLSEntry i) r))
      | none =>
          match freeEntry s with
          | none => some s
          | some i =>
              insertPeer
                (s.setEntry i { acceptReq cfg (s.DLSEntry i) r with Valid := true, MacAddr := r.SA })
                r.SA i r.caps).map fun s : State => s.send (.dlsRsp r.SA mlmeSuccess)

/-- A key request that fails leads to a tear-down. -/
def acceptRsp (cfg : Config) (s : State) (r : PeerRsp) (keySent : Bool) (room : Nat) (i : DlsIdx) :
    State :=
  let s :=
    if cfg.wpa then
      let s := s.send (.staKeyRequest (s.DLSEntry i).MacAddr)
      if keySent then s.setEntry i { s.DLSEntry i with Status := dlsWaitKey }
      else s.giveUp room i 45
    else s.setEntry i { s.DLSEntry i with Timer := false, Status := dlsFinish }
  s.setEntry i { s.DLSEntry i with Sequence := 0, bHTCap := r.caps.ht }

/-- Whether anything was asked for is not looked at. -/
def rspEntry (cfg : Config) (r : PeerRsp) (keySent : DlsIdx → Bool) (room : Nat) (s : State)
    (i : DlsIdx) : Option State :=
  if entryOf s r.SA i then
    if r.StatusCode = mlmeSuccess then
      (insertPeer s r.SA i r.caps).map fun s => acceptRsp cfg s r (keySent i) room i
    else
      some (s.setEntry i { s.DLSEntry i with Status := dlsNone, Valid := false, Timer := false })
  else some s

/-- The order of the two loops. -/
def rspOrder : List DlsIdx := [0, 3, 2, 1]

def peerDlsRspAction (cfg : Config) (s : State) (r : PeerRsp) (keySent : DlsIdx → Bool)
    (room : Nat) : Option State :=
  if cfg.bDLSCapable && cfg.infraOn then rspOrder.foldlM (rspEntry cfg r keySent room) s
  else some s

def dropEntry (s : State) (i : DlsIdx) : Option State :=
  (s.setEntry i { s.DLSEntry i with Status := dlsNone, Valid := false, Timer := false }).deleteMac i

def peerTearDownEntry (sa : Bytes 6) (s : State) (i : DlsIdx) : Option State :=
  if entryOf s sa i then dropEntry s i else some s

def peerDlsTearDownAction (cfg : Config) (s : State) (sa : Bytes 6) : Option State :=
  if cfg.bDLSCapable && cfg.infraOn then
    (List.finRange maxNumOfDlsEntry).foldlM (peerTearDownEntry sa) s
  else some s

/-! ## Queued messages -/

/-- Local entries keep their state, and are asked for nothing but the address. -/
def tearDownEntry (da : Bytes 6) (s : State) (i : DlsIdx) : Option State :=
  if (s.DLSEntry i).MacAddr = da then
    if i.val < 1 then s.deleteMac i else dropEntry s i
  else some s

def mlmeDlsTearDownAction (s : State) (pDLS : DlsIdx) (reason : Nat) (granted : Bool) :
    Option State :=
  if granted then
    let da := (s.DLSEntry pDLS).MacAddr
    let s := s.send (.tearDown da reason)
    (List.finRange maxNumOfDlsEntry).foldlM (tearDownEntry da)
      (s.setEntry pDLS { s.DLSEntry pDLS with Timer := false })
  else some s

def mlmeDlsReqAction (s : State) (pDLS : DlsIdx) (granted : Bool) : State :=
  if granted then
    (s.setEntry pDLS { s.DLSEntry pDLS with Timer := true }).send
      (.dlsReq (s.DLSEntry pDLS).MacAddr (s.DLSEntry pDLS).TimeOut)
  else s

/-- `MlmeHandler` takes the oldest message. -/
def mlmeHandler (s : State) (granted : Bool) : Option State :=
  match s.queue with
  | [] => some s
  | .req i _ :: rest => some (mlmeDlsReqAction { s with queue := rest } i granted)
  | .tearDown i reason :: rest => mlmeDlsTearDownAction { s with queue := rest } i reason granted

/-! ## Time -/

/-- What a timer hands to its function. -/
inductive Cookie
  | adapter
  | entry (i : DlsIdx)

/-- `DlsStateMachineInit` gives the adapter to the timers of all entries. -/
def timerCookie : Cookie := .adapter

/-- The function takes what it gets for an entry. Of the adapter, it would clear a byte, and
enqueue through a pointer that is none. -/
def dlsTimeoutAction (cfg : Config) (s : State) (room : Nat) : Cookie → Option State
  | .adapter => if cfg.adapterByte then none else some s
  | .entry i => if (s.DLSEntry i).Valid then some (s.giveUp room i 39) else some s

/-- The timer of entry `i` runs out. -/
def timerFires (cfg : Config) (s : State) (i : DlsIdx) (room : Nat) : Option State :=
  if (s.DLSEntry i).Timer then
    dlsTimeoutAction cfg (s.setEntry i { s.DLSEntry i with Timer := false }) room timerCookie
  else some s

def countsDown (e : DlsEntry) : Bool :=
  e.Valid && decide (e.Status = dlsFinish) && decide (e.TimeOut ≠ 0)

def checkEntry (room : Nat) (s : State) (i : DlsIdx) : State :=
  let e := s.DLSEntry i
  if countsDown e then
    let s := s.setEntry i { e with CountDownTimer := e.CountDownTimer - 1 }
    if e.CountDownTimer - 1 = 0 then s.giveUp room i 39 else s
  else s

def rtmpCheckDLSTimeOut (cfg : Config) (s : State) (room : Nat) : State :=
  if cfg.bDLSCapable && cfg.infraOn then
    (List.finRange maxNumOfDlsEntry).foldl (checkEntry room) s
  else s

/-! ## Runs -/

/-- `granted`, `keySent` and `room` are what the memory, the key request and the MLME queue come
to at that time. -/
inductive Event
  | setDls (ui : DlsUi) (room : Nat)
  | peerReq (r : PeerReq) (granted : Bool)
  | peerRsp (r : PeerRsp) (keySent : DlsIdx → Bool) (room : Nat)
  | peerTearDown (sa : Bytes 6)
  | handle (granted : Bool)
  | timeOut (i : DlsIdx) (room : Nat)
  | second (room : Nat)

def act (cfg : Config) (s : State) : Event → Option State
  | .setDls ui room => some (cntlOidDLSSetupProc cfg s ui room)
  | .peerReq r granted => peerDlsReqAction cfg s r granted
  | .peerRsp r keySent room => peerDlsRspAction cfg s r keySent room
  | .peerTearDown sa => peerDlsTearDownAction cfg s sa
  | .handle granted => mlmeHandler s granted
  | .timeOut i room => timerFires cfg s i room
  | .second room => some (rtmpCheckDLSTimeOut cfg s room)

def step (cfg : Config) (s : Option State) (e : Event) : Option State := s.bind fun s => act cfg s e

/-- An association has left the entry of the access point in the MAC table, at most. -/
structure Start (s : State) : Prop where
  good : Good s.MacTab
  ap : ∀ w ∈ s.MacTab.used, w = bssidWcid ∧ (s.MacTab.Content w).EntryType = .client
  invalid : ∀ i, (s.DLSEntry i).Valid = false
  queue : s.queue = []

end ExtDrv.Rt3370.Dls
