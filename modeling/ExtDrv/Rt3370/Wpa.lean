import ExtDrv.Lib.Run
import ExtDrv.Rt3370.EapolKey
import Mathlib.Logic.Function.Basic

/-!
# WPA key handshakes

The station's side of the four-way and the group key handshake: the handlers of
`common/cmm_wpa.c` for the EAPOL-Key messages, the keys they install, and what
association and link-down (`sta/assoc.c`, `sta/connect.c`) do to the entry of the
access point, `MacTab.Content[BSSID_WCID]`.

The hash functions and ciphers are parameters; so is what the kernel allocates and
the random nonce. A handler that uses a null pointer or writes behind a buffer faults.
`log` is no field of the driver: in it an observer writes down, the newest entry first,
what the claims of a run are about. Timers, events and the text of the answers are
left out.
-/

namespace ExtDrv.Rt3370.Wpa

open Memory

/-! ## Keys -/

/-- The ciphers of `CIPHER_KEY`. -/
inductive CipherAlg
  | none
  | wep64
  | wep128
  | tkip
  | aes
deriving DecidableEq, Repr

structure CipherKey where
  CipherAlg : CipherAlg
  KeyLen : Nat
  Key : Bytes 16
  RxMic : Bytes 8
  TxMic : Bytes 8

/-- A key set to zero. -/
def CipherKey.zero : CipherKey := ⟨.none, 0, .zero 16, .zero 8, .zero 8⟩

/-- `LEN_TK`. -/
abbrev lenTk : Nat := 16

section Ptk

variable (ptk : Bytes 64)

/-- The key confirmation key, for the MIC. -/
def kck : Bytes 16 := ptk.sub 0 16 (by decide)

/-- The key encryption key, for the key data. -/
def kek : Bytes 16 := ptk.sub 16 16 (by decide)

/-- The temporal key. -/
def temporalKey : Bytes 16 := ptk.sub 32 16 (by decide)

end Ptk

/-! ## Parameters -/

/-- The hash functions and ciphers, whatever they compute. -/
structure Crypto where
  rtHmacMd5 : Bytes 16 → List (BitVec 8) → Bytes 16
  rtHmacSha1 : List (BitVec 8) → List (BitVec 8) → Bytes 20
  -- key, ciphertext
  aesKeyUnwrap : Bytes 16 → List (BitVec 8) → List (BitVec 8)
  -- RC4 behind its first 256 bytes: key, text
  arc4Compute : List (BitVec 8) → List (BitVec 8) → List (BitVec 8)

/-- What a run does not change: the ciphers and the configuration of the station. -/
structure Env extends Crypto where
  CurrentAddress : Bytes 6
  PMK : Bytes 32
  AuthMode : AuthMode
  GroupCipher : WepStatus
  WepStatus : WepStatus

/-- What the kernel gives while one frame is handled: `KEYDATA` with what it held, memory
for the unwrapping, for `PRF` and for the answer, the random nonce, and what the stack
held where `PTK` is. -/
structure Grants where
  keyData : Option Mem
  unwrap : Bool
  prf : Bool
  mpool : Bool
  snonce : Bytes 32
  ptkStack : Bytes 64

/-- `PRF`: the concatenated digests of `n` turns. -/
def prf (c : Crypto) (key label data : List (BitVec 8)) (n : Nat) : List (BitVec 8) :=
  (List.range n).flatMap fun i =>
    List.ofFn (c.rtHmacSha1 key (label ++ [0] ++ data ++ [BitVec.ofNat 8 i]))

/-- "Pairwise key expansion". -/
def pairwiseKeyExpansion : List (BitVec 8) :=
  [0x50, 0x61, 0x69, 0x72, 0x77, 0x69, 0x73, 0x65, 0x20, 0x6b, 0x65, 0x79, 0x20, 0x65, 0x78,
    0x70, 0x61, 0x6e, 0x73, 0x69, 0x6f, 0x6e]

/-- `WpaDerivePTK`, for `LEN_PTK` bytes. Of two equal nonces neither is used, but the larger
address. -/
def wpaDerivePtk (c : Crypto) (pmk anonce : Bytes 32) (aa : Bytes 6) (snonce : Bytes 32)
    (sa : Bytes 6) : Bytes 64 :=
  let aa := List.ofFn aa
  let sa := List.ofFn sa
  let anonce := List.ofFn anonce
  let snonce := List.ofFn snonce
  let addrs := if rtmpCompareMemory sa aa = 1 then (aa, sa) else (sa, aa)
  let temp := addrs.2 ++ List.replicate 26 0
  let nonces :=
    if rtmpCompareMemory anonce snonce = 0 then (temp, temp)
    else if rtmpCompareMemory anonce snonce = 1 then (snonce, anonce)
    else (anonce, snonce)
  let out := prf c (List.ofFn pmk) pairwiseKeyExpansion
    (addrs.1 ++ addrs.2 ++ nonces.1 ++ nonces.2) 4
  fun i => out.getD i 0

/-! ## State -/

/-- `AP_WPA_STATE`. -/
inductive ApWpaState
  | notUse
  | disconnect
  | disconnected
  | initial
  | authentication
  | authentication2
  | initPmk
  | initPsk
  | ptkStart
  | ptkInitNegotiating
  | ptkInitDone
  | updateKeys
  | integrityFailure
  | keyUpdate
deriving DecidableEq, Repr

/-- The value of the enumerator. -/
def ApWpaState.toNat : ApWpaState → Nat
  | .notUse => 0
  | .disconnect => 1
  | .disconnected => 2
  | .initial => 3
  | .authentication => 4
  | .authentication2 => 5
  | .initPmk => 6
  | .initPsk => 7
  | .ptkStart => 8
  | .ptkInitNegotiating => 9
  | .ptkInitDone => 10
  | .updateKeys => 11
  | .integrityFailure => 12
  | .keyUpdate => 13

inductive Sst
  | notAuth
  | auth
  | assoc
deriving DecidableEq, Repr

/-- The fields of `MAC_TABLE_ENTRY` the handshakes use. -/
structure MacEntry where
  -- `IS_ENTRY_CLIENT`; an entry that is none is not found
  client : Bool
  Addr : Bytes 6
  Sst : Sst
  AuthMode : AuthMode
  WepStatus : WepStatus
  WpaState : ApWpaState
  R_Counter : Bytes 8
  ANonce : Bytes 32
  SNonce : Bytes 32
  PTK : Bytes 64
  PairwiseKey : CipherKey
  -- `PortSecured == WPA_802_1X_PORT_SECURED`
  portSecured : Bool
  -- `GTKState == REKEY_ESTABLISHED`
  gtkEstablished : Bool

/-- An entry set to zero. -/
def MacEntry.zero : MacEntry where
  client := false
  Addr := .zero 6
  Sst := .notAuth
  AuthMode := .openSystem
  WepStatus := .encryption1Enabled
  WpaState := .notUse
  R_Counter := .zero 8
  ANonce := .zero 32
  SNonce := .zero 32
  PTK := .zero 64
  PairwiseKey := .zero
  portSecured := false
  gtkEstablished := false

/-- What an observer writes down. -/
inductive Obs
  -- `StaAddMacTableEntry` has set the entry up for this peer
  | setUp (addr : Bytes 6)
  | linkDown
  -- a message 1 of this peer was accepted, with its nonce and the answer's
  | message1 (addr : Bytes 6) (anonce snonce : Bytes 32)
  -- the replay counter of an accepted message was stored
  | counter (ty : MsgType) (c : Bytes 8)
  -- a message of this peer made the station install a temporal key
  | installed (ty : MsgType) (addr : Bytes 6) (tk : Bytes 16)
  -- an answer with a MIC under this key
  | answered (ty : MsgType) (kck : Bytes 16)
  -- a frame was encrypted
  | sent (tk : Bytes 16) (pn : BitVec 48)

structure Station where
  entry : MacEntry
  -- `CommonCfg.Bssid`
  Bssid : Bytes 6
  -- `SharedKey[BSS0]`
  SharedKey : Fin 4 → CipherKey
  -- `StaCfg.PTK`, `StaCfg.GTK`, `StaCfg.DefaultKeyId`, `StaCfg.PortSecured`
  PTK : Bytes 64
  GTK : Bytes 32
  DefaultKeyId : Fin 4
  portSecured : Bool
  -- the hardware's pairwise key and the packet number of its IV/EIV table, for `BSSID_WCID`
  pairwiseTable : Option CipherKey
  ivEiv : BitVec 48
  log : List Obs

/-- Something is written down. -/
def Station.observe (s : Station) (o : Obs) : Station := { s with log := o :: s.log }

/-- What the driver dies of. -/
inductive Fault
  | nullPointer
  | keyDataOverrun (len : Nat)
  | gtkOverrun (len : Nat)
deriving DecidableEq, Repr

/-! ## Installing keys -/

/-- The pairwise key `WPAInstallPairwiseKey` makes of the PTK, `bAE` for an authenticator. -/
def pairwiseKeyOf (alg : CipherAlg) (ptk : Bytes 64) (bAE : Bool) : CipherKey where
  CipherAlg := alg
  KeyLen := lenTk
  Key := temporalKey ptk
  RxMic :=
    if alg = .tkip then
      if bAE then ptk.sub 56 8 (by decide) else ptk.sub 48 8 (by decide)
    else .zero 8
  TxMic :=
    if alg = .tkip then
      if bAE then ptk.sub 48 8 (by decide) else ptk.sub 56 8 (by decide)
    else .zero 8

/-- The pairwise cipher of an entry. -/
def pairwiseCipher : WepStatus → CipherAlg
  | .encryption2Enabled => .tkip
  | .encryption3Enabled => .aes
  | _ => .none

/-- `WPAInstallPairwiseKey`; `RTMPSetWcidSecurityInfo` sets the packet number to 1. -/
def wpaInstallPairwiseKey (s : Station) (ty : MsgType) (bAE : Bool) : Station :=
  let alg := pairwiseCipher s.entry.WepStatus
  if alg = .none then { s with entry := { s.entry with PairwiseKey := .zero } }
  else
    let key := pairwiseKeyOf alg s.entry.PTK bAE
    { s with
      entry := { s.entry with PairwiseKey := key }
      pairwiseTable := some key
      ivEiv := 1
      log := .installed ty s.entry.Addr key.Key :: s.log }

/-- The group cipher `WPAInstallSharedKey` chooses. -/
def groupCipherAlg : WepStatus → CipherAlg
  | .groupWep40Enabled => .wep64
  | .groupWep104Enabled => .wep128
  | .encryption2Enabled => .tkip
  | .encryption3Enabled => .aes
  | _ => .none

/-- The first `n` bytes of the GTK. -/
def gtkPrefix (gtk : Bytes 32) (n : Nat) : Bytes 16 :=
  fun i => if (i : Nat) < n then gtk ⟨i, by omega⟩ else 0

/-- What `WPAInstallSharedKey` leaves in the slot for a GTK of `gtkLen` bytes: the slot is
cleared and gets its cipher before the length is looked at. -/
def sharedKeyOf (groupCipher : WepStatus) (gtk : Bytes 32) (gtkLen : Nat) : CipherKey :=
  let alg := groupCipherAlg groupCipher
  let slot := { CipherKey.zero with CipherAlg := alg }
  if alg = .none then slot
  else if alg = .wep64 ∨ alg = .wep128 then
    if gtkLen ≠ 5 ∧ gtkLen ≠ 13 then slot
    else { slot with KeyLen := gtkLen, Key := gtkPrefix gtk gtkLen }
  else if gtkLen < lenTk then slot
  else
    let slot := { slot with KeyLen := lenTk, Key := gtkPrefix gtk lenTk }
    if alg = .tkip then
      { slot with TxMic := gtk.sub 24 8 (by decide), RxMic := gtk.sub 16 8 (by decide) }
    else slot

/-! ## Key data -/

/-- A group key found in key data: its index, and its bytes in `GTK`. -/
structure FoundGtk where
  DefaultIdx : Nat
  GTK : List (BitVec 8)

/-- Key data is rejected, or may hold a group key. -/
inductive KdeResult
  | tooShort
  | overrun (len : Nat)
  | found (gtk : FoundGtk)

/-- The element at `o` is a GTK KDE. -/
def isGtkKde (keyData : Mem) (o : Nat) : Bool :=
  keyData o == 0xdd#8 && segment keyData (o + 2) 3 == [0x00#8, 0x0f#8, 0xac#8]
    && keyData (o + 5) == 0x01#8

/-- The loop over the elements of the key data, from `o` on. A GTK is copied into a buffer of
`MAX_LEN_GTK` bytes, its length is an unsigned char. -/
def kdeLoop (keyData : Mem) (keyDataLength o : Nat) (gtk : FoundGtk) : KdeResult :=
  let len := (keyData (o + 1)).toNat
  if o + 2 + len ≤ keyDataLength then
    if isGtkKde keyData o then
      let gtkLen := (keyData (o + 1) - 6).toNat
      if gtkLen < 5 then .tooShort
      else if 32 < gtkLen then .overrun gtkLen
      else kdeLoop keyData keyDataLength (o + 2 + len)
        ⟨(keyData (o + 6) &&& 3).toNat, segment keyData (o + 8) gtkLen⟩
    else kdeLoop keyData keyDataLength (o + 2 + len) gtk
  else .found gtk
termination_by keyDataLength - o

/-- `StaCfg.GTK` with these bytes in front. -/
def putGtk (old : Bytes 32) (gtk : List (BitVec 8)) : Bytes 32 :=
  fun i => if (i : Nat) < gtk.length then gtk.getD i 0 else old i

/-- The end of `RTMPParseEapolKeyData`: the group key is installed. -/
def installGtk (env : Env) (s : Station) (gtk : FoundGtk) : Bool × Station :=
  if h : 3 < gtk.DefaultIdx then (false, s)
  else
    let idx : Fin 4 := ⟨gtk.DefaultIdx, by omega⟩
    let staGtk := putGtk s.GTK gtk.GTK
    (true, { s with
      GTK := staGtk
      DefaultKeyId := idx
      SharedKey := Function.update s.SharedKey idx
        (sharedKeyOf env.GroupCipher staGtk gtk.GTK.length) })

/-- `RTMPParseEapolKeyData`. -/
def rtmpParseEapolKeyData (env : Env) (s : Station) (keyData : Mem) (keyDataLen : Nat)
    (groupKeyIndex : Nat) (ty : MsgType) (bWPA2 : Bool) : Except Fault (Bool × Station) :=
  if (ty = .pairMsg2 ∨ ty = .pairMsg3) ∧ ¬ (bWPA2 = true ∧ ty = .pairMsg3) then .ok (true, s)
  else if bWPA2 = true ∧ (ty = .pairMsg3 ∨ ty = .groupMsg1) then
    match kdeLoop keyData keyDataLen 0 ⟨0, []⟩ with
    | .tooShort => .ok (false, s)
    | .overrun len => .error (.gtkOverrun len)
    | .found gtk => .ok (installGtk env s gtk)
  else if bWPA2 = false ∧ ty = .groupMsg1 then
    -- the key data is the GTK
    if 32 < keyDataLen then .error (.gtkOverrun keyDataLen)
    else .ok (installGtk env s ⟨groupKeyIndex, segment keyData 0 keyDataLen⟩)
  else .ok (installGtk env s ⟨0, []⟩)

/-! ## Checks -/

/-- `bReplayDiff`. -/
def replayDiff (entry : MacEntry) (p : Mem) (ty : MsgType) : Bool :=
  let counter := List.ofFn (replayCounter p)
  let stored := List.ofFn entry.R_Counter
  if ty.fromAuthenticator then
    rtmpCompareMemory counter stored ≠ 1
      && rtmpCompareMemory counter (List.ofFn (Bytes.zero 8)) ≠ 0
  else counter != stored

/-- The MIC the packet should have; for other descriptor versions it stays zero. -/
def desiredMic (c : Crypto) (ptk : Bytes 64) (p : Mem) : Bytes 16 :=
  if (keyInfo p).KeyDescVer = keyDescTkip then c.rtHmacMd5 (kck ptk) (micText p)
  else if (keyInfo p).KeyDescVer = keyDescAes then
    (c.rtHmacSha1 (List.ofFn (kck ptk)) (micText p)).sub 0 16 (by decide)
  else .zero 16

/-- The key data is encrypted. -/
def keyDataEncrypted (ty : MsgType) (bWPA2 : Bool) : Bool :=
  (ty == .pairMsg3 && bWPA2) || ty == .groupMsg1

/-- `KEYDATA` and the length of the key data, decrypted or copied; none where it is not
looked at. The buffer has 255 bytes. -/
def keyDataOf (c : Crypto) (g : Grants) (heap : Mem) (ptk : Bytes 64) (p : Mem) (ty : MsgType)
    (bWPA2 : Bool) : Except Fault (Option (Mem × Nat)) :=
  let len := keyDataLen p
  if len = 0 then .ok none
  else if keyDataEncrypted ty bWPA2 then
    if (keyInfo p).KeyDescVer = keyDescAes then
      if !g.unwrap then .ok (some (heap, 0))
      else if len < 8 ∨ 255 < len then .error (.keyDataOverrun len)
      else .ok (some (store heap 0 (c.aesKeyUnwrap (kek ptk) (keyData p len)), len - 8))
    else if !g.unwrap then .ok (some (heap, len))
    else if 255 < len then .error (.keyDataOverrun len)
    else
      let ekey := List.ofFn (keyIv p) ++ List.ofFn (kek ptk)
      .ok (some (store heap 0 (c.arc4Compute ekey (keyData p len)), len))
  else if ty = .pairMsg2 ∨ ty = .pairMsg3 then
    if 255 < len then .error (.keyDataOverrun len)
    else .ok (some (store heap 0 (keyData p len), len))
  else .ok none

/-- `PeerWpaMessageSanity`. The key data length is passed on as an unsigned char. -/
def peerWpaMessageSanity (env : Env) (g : Grants) (s : Station) (p : Mem) (ty : MsgType) :
    Except Fault (Bool × Station) :=
  match g.keyData with
  | none => .ok (false, s)
  | some heap =>
    let bWPA2 := s.entry.AuthMode.isWpa2
    if replayDiff s.entry p ty then .ok (false, s)
    else if ty ≠ .pairMsg1 ∧ keyMic p ≠ desiredMic env.toCrypto s.entry.PTK p then .ok (false, s)
    else
      match keyDataOf env.toCrypto g heap s.entry.PTK p ty bWPA2 with
      | .error f => .error f
      | .ok none => .ok (true, s)
      | .ok (some (keyData, len)) =>
        let groupKeyIndex :=
          if !bWPA2 && ty == .groupMsg1 then (keyInfo p).KeyIndex.toNat else 0
        rtmpParseEapolKeyData env s keyData (len % 256) groupKeyIndex ty bWPA2

/-! ## Handlers -/

/-- A handler goes on with the state the sanity check leaves, or returns. -/
def ifSane (r : Except Fault (Bool × Station)) (k : Station → Except Fault Station) :
    Except Fault Station :=
  match r with
  | .error f => .error f
  | .ok (false, s) => .ok s
  | .ok (true, s) => k s

/-- An answer, if there is memory for it. -/
def answer (g : Grants) (ty : MsgType) (s : Station) : Station :=
  if g.mpool then s.observe (.answered ty (kck s.entry.PTK)) else s

/-- The replay counter of the message is stored. -/
def storeCounter (s : Station) (p : Mem) (ty : MsgType) : Station :=
  { s with
    entry := { s.entry with R_Counter := replayCounter p }
    log := .counter ty (replayCounter p) :: s.log }

/-- The PTK for the nonces of message 1 and its answer; without memory `PRF` leaves the stack
as it was. -/
def message1Ptk (env : Env) (g : Grants) (s : Station) (p : Mem) : Bytes 64 :=
  if g.prf then wpaDerivePtk env.toCrypto env.PMK (keyNonce p) s.entry.Addr g.snonce
    env.CurrentAddress
  else g.ptkStack

/-- The nonces and the PTK of message 1 are stored. -/
def storeMessage1 (env : Env) (g : Grants) (s : Station) (p : Mem) : Station :=
  { s with
    entry := { s.entry with
      ANonce := keyNonce p
      SNonce := g.snonce
      PTK := message1Ptk env g s p
      WpaState := .ptkInitNegotiating }
    log := .message1 s.entry.Addr (keyNonce p) g.snonce :: s.log }

def peerPairMsg1Action (env : Env) (g : Grants) (s : Station) (e : MlmeElem) :
    Except Fault Station :=
  if e.MsgLen.toNat < minLenOfKeyFrame then .ok s
  else ifSane (peerWpaMessageSanity env g s e.packet .pairMsg1) fun s =>
    .ok (answer g .pairMsg2 (storeMessage1 env g (storeCounter s e.packet .pairMsg1) e.packet))

/-- `PeerPairMsg2Action`: a station has neither the PMK nor the BSSID it derives from. -/
def peerPairMsg2Action (s : Station) (e : MlmeElem) : Except Fault Station :=
  if e.MsgLen.toNat < minLenOfKeyFrame then .ok s
  else if s.entry.WpaState.toNat < ApWpaState.ptkStart.toNat then .ok s
  else .error .nullPointer

/-- `STA_PORT_SECURED`. -/
def staPortSecured (s : Station) : Station :=
  { s with portSecured := true, entry := { s.entry with portSecured := true } }

/-- The keys of message 3. The first shared key is a copy of the pairwise key. -/
def installMessage3 (s : Station) : Station :=
  let s := { s with entry := { s.entry with WpaState := .ptkInitDone }, PTK := s.entry.PTK }
  let s := wpaInstallPairwiseKey s .pairMsg3 false
  let s := { s with SharedKey := Function.update s.SharedKey 0 s.entry.PairwiseKey }
  if s.entry.AuthMode.isWpa2 then staPortSecured s else s

def peerPairMsg3Action (env : Env) (g : Grants) (s : Station) (e : MlmeElem) :
    Except Fault Station :=
  if e.MsgLen.toNat < minLenOfKeyFrame then .ok s
  else ifSane (peerWpaMessageSanity env g s e.packet .pairMsg3) fun s =>
    let s := storeCounter s e.packet .pairMsg3
    if s.entry.ANonce ≠ keyNonce e.packet ∨ g.mpool = false then .ok s
    else .ok (installMessage3 (s.observe (.answered .pairMsg4 (kck s.entry.PTK))))

/-- What message 4 makes of the entry, the port included. -/
def installMessage4 (s : Station) : Station :=
  let s := wpaInstallPairwiseKey s .pairMsg4 true
  { s with entry := { s.entry with WpaState := .ptkInitDone, portSecured := true } }

/-- `PeerPairMsg4Action`. With WPA it starts a group key handshake as an authenticator would:
`WPAStart2WayGroupHS` copies a nonce from a null pointer, if there is memory for the message. -/
def peerPairMsg4Action (env : Env) (g : Grants) (s : Station) (e : MlmeElem) :
    Except Fault Station :=
  if e.MsgLen.toNat < minLenOfKeyFrame then .ok s
  else if s.entry.WpaState.toNat < ApWpaState.ptkInitNegotiating.toNat then .ok s
  else ifSane (peerWpaMessageSanity env g s e.packet .pairMsg4) fun s =>
    let s := installMessage4 s
    if s.entry.AuthMode.isWpa2 then
      .ok { s with entry := { s.entry with gtkEstablished := true } }
    else if g.mpool then .error .nullPointer
    else .ok s

/-- `PeerGroupMsg1Action`, the one handler that does not look at the length. -/
def peerGroupMsg1Action (env : Env) (g : Grants) (s : Station) (e : MlmeElem) :
    Except Fault Station :=
  ifSane (peerWpaMessageSanity env g s e.packet .groupMsg1) fun s =>
    let s := storeCounter s e.packet .groupMsg1
    if g.mpool then
      .ok (staPortSecured (s.observe (.answered .groupMsg2 (kck s.entry.PTK))))
    else .ok s

def peerGroupMsg2Action (env : Env) (g : Grants) (s : Station) (e : MlmeElem) :
    Except Fault Station :=
  if (e.MsgLen - BitVec.ofNat 32 length80211).toNat < length8021H + lengthEapolH + 95 then .ok s
  else if s.entry.WpaState ≠ .ptkInitDone then .ok s
  else ifSane (peerWpaMessageSanity env g s e.packet .groupMsg2) fun s =>
    .ok { s with entry := { s.entry with gtkEstablished := true } }

/-- The entry takes part in handshakes. -/
def MacEntry.handshakes (entry : MacEntry) : Bool :=
  entry.client && decide (AuthMode.wpa.toNat ≤ entry.AuthMode.toNat)
    && decide (entry.Sst = .assoc) && decide (ApWpaState.initPsk.toNat ≤ entry.WpaState.toNat)

/-- The descriptor version goes with the cipher of the entry. -/
def descVerOk (wepStatus : WepStatus) (ver : BitVec 3) : Bool :=
  if wepStatus = .encryption2Enabled then ver == keyDescTkip
  else if wepStatus = .encryption3Enabled then ver == keyDescAes
  else true

/-- `WpaEAPOLKeyAction` up to the call of a handler. The length of the frame is unsigned. -/
def dispatch (s : Station) (e : MlmeElem) : Option MsgType :=
  let p := e.packet
  if s.entry.Addr = e.addr2 ∧ s.entry.handshakes = true ∧
      bodyLen p + lengthEapolH ≤ (e.MsgLen - BitVec.ofNat 32 lengthHeaders).toNat ∧
      (p 0 = 0x01 ∨ p 0 = 0x02) ∧ (p 4 = 0xfe ∨ p 4 = 0x02) ∧
      descVerOk s.entry.WepStatus (keyInfo p).KeyDescVer = true then
    handlerOf (keyInfo p) (keyDataLen p)
  else none

def wpaEapolKeyAction (env : Env) (g : Grants) (s : Station) (e : MlmeElem) :
    Except Fault Station :=
  match dispatch s e with
  | none => .ok s
  | some .pairMsg1 => peerPairMsg1Action env g s e
  | some .pairMsg2 => peerPairMsg2Action s e
  | some .pairMsg3 => peerPairMsg3Action env g s e
  | some .pairMsg4 => peerPairMsg4Action env g s e
  | some .groupMsg1 => peerGroupMsg1Action env g s e
  | some .groupMsg2 => peerGroupMsg2Action env g s e

/-! ## Association -/

/-- `StaAddMacTableEntry` for an access point whose rates and capabilities go with the
configured mode. The PTK, the nonces and the replay counter stay. -/
def staAddMacTableEntry (env : Env) (s : Station) (bssid : Bytes 6) : Station :=
  { s with
    entry := { s.entry with
      client := true
      Addr := bssid
      Sst := .assoc
      AuthMode := env.AuthMode
      WepStatus := env.WepStatus
      WpaState :=
        if env.AuthMode.toNat < AuthMode.wpa.toNat then .notUse else .ptkStart
      portSecured := true }
    log := .setUp bssid :: s.log }

/-- `PeerAssocRspAction` and `PeerReassocRspAction` on success: the old entry is deleted but
not cleared, and set up again unless the modes do not go together. -/
def peerAssocRspAction (env : Env) (s : Station) (bssid : Bytes 6) (capable : Bool) : Station :=
  let s :=
    if s.entry.client = true ∧ s.entry.Addr = s.Bssid then
      { s with entry := { s.entry with client := false } }
    else s
  if capable then staAddMacTableEntry env s bssid else s

/-- `LinkUp`, which follows it. -/
def linkUp (env : Env) (s : Station) (bssid : Bytes 6) : Station :=
  let portSecured :=
    if AuthMode.wpa.toNat ≤ env.AuthMode.toNat then false
    else if env.WepStatus = .encryption1Enabled ∨ env.WepStatus = .encryptionDisabled then true
    else s.portSecured
  { s with
    Bssid := bssid
    portSecured := portSecured
    entry := { s.entry with Addr := bssid, portSecured := portSecured } }

/-- `RTMPWPARemoveAllKeys`. -/
def rtmpWpaRemoveAllKeys (env : Env) (s : Station) : Station :=
  if env.AuthMode.toNat < AuthMode.wpa.toNat ∨ env.AuthMode = .wpaNone then s
  else { s with pairwiseTable := none, SharedKey := fun _ => .zero }

/-- `LinkDown`: the MAC table is cleared. -/
def linkDown (env : Env) (s : Station) (isReqFromAp : Bool) : Station :=
  let s := if isReqFromAp then rtmpWpaRemoveAllKeys env s else s
  { s with entry := .zero, portSecured := false, log := .linkDown :: s.log }

/-- A frame is sent, encrypted if the hardware has a key. -/
def transmit (s : Station) : Station :=
  match s.pairwiseTable with
  | none => s
  | some key => { s with ivEiv := s.ivEiv + 1, log := .sent key.Key s.ivEiv :: s.log }

/-! ## Runs -/

inductive Event
  | eapolKey (e : MlmeElem) (g : Grants)
  | associate (bssid : Bytes 6) (capable : Bool)
  | linkDown (isReqFromAp : Bool)
  | transmit

/-- A step; none if the driver dies of it. -/
def step (env : Env) (s : Station) : Event → Option Station
  | .eapolKey e g => (wpaEapolKeyAction env g s e).toOption
  | .associate bssid capable => some (linkUp env (peerAssocRspAction env s bssid capable) bssid)
  | .linkDown isReqFromAp => some (linkDown env s isReqFromAp)
  | .transmit => some (transmit s)

/-- A station before its first association. -/
def Station.start (sharedKey : Fin 4 → CipherKey) : Station where
  entry := .zero
  Bssid := .zero 6
  SharedKey := sharedKey
  PTK := .zero 64
  GTK := .zero 32
  DefaultKeyId := 0
  portSecured := false
  pairwiseTable := none
  ivEiv := 0
  log := []

end ExtDrv.Rt3370.Wpa
