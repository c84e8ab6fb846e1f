import ExtDrv.Rt3370.Arc4
import ExtDrv.Rt3370.KeyWrap
import ExtDrv.Rt3370.Wpa

/-!
# Building key data

`ConstructEapolKeyData` of the authenticator: an RSN element in message 3, the group key (in a KDE
with WPA2), padding for the AES key wrap, and the encryption. `decryptAndParse` is what
`PeerWpaMessageSanity` makes of it at the station, with the ciphers of this driver.

The allocations are granted.
-/

namespace ExtDrv.Rt3370.Wpa

open KeyWrap Memory

/-! ## The authenticator -/

/-- The arguments of `ConstructEapolKeyData`, and the entry's keys. -/
structure KeyDataArgs where
  PTK : Bytes 64
  AuthMode : AuthMode
  GroupKeyWepStatus : WepStatus
  keyDescVer : BitVec 3
  MsgType : MsgType
  DefaultKeyIdx : Fin 4
  GTK : Bytes 32
  RSNIE : Mem
  RSNIE_LEN : BitVec 8

/-- `LEN_AES_GTK` or `LEN_TKIP_GTK`. -/
def gtkLenOf (groupKeyWepStatus : WepStatus) : Nat :=
  if groupKeyWepStatus = .encryption3Enabled then 16 else 32

/-- `RTMPInsertRSNIE` without a list of PMKIDs. -/
def rtmpInsertRsnie (rsnie : Mem) (rsnieLen : BitVec 8) : List (BitVec 8) :=
  (if segment rsnie 2 3 = [0x00, 0x0f, 0xac] then 0x30 else 0xdd) :: rsnieLen ::
    segment rsnie 0 rsnieLen.toNat

/-- `WPA_ConstructKdeHdr`. -/
def wpaConstructKdeHdr (dataType dataLen : BitVec 8) : List (BitVec 8) :=
  [0xdd, 4 + dataLen, 0x00, 0x0f, 0xac, dataType]

namespace KeyDataArgs

variable (a : KeyDataArgs)

def bWPA2 : Bool := a.AuthMode.isWpa2

def gtkLen : Nat := gtkLenOf a.GroupKeyWepStatus

/-- The group key. -/
def gtk : List (BitVec 8) := (List.ofFn a.GTK).take a.gtkLen

/-- The RSN element, where there is one. -/
def rsnPart : List (BitVec 8) :=
  if a.RSNIE_LEN ≠ 0 ∧ (a.MsgType = .pairMsg2 ∨ a.MsgType = .pairMsg3) then
    rtmpInsertRsnie a.RSNIE a.RSNIE_LEN
  else []

/-- The header of the KDE, and the key index. -/
def kdeHead : List (BitVec 8) :=
  wpaConstructKdeHdr 1 (2 + BitVec.ofNat 8 a.gtkLen) ++ [BitVec.ofNat 8 a.DefaultKeyIdx &&& 0x03, 0x00]

/-- The key data before it is padded and encrypted. -/
def plainKeyData : List (BitVec 8) :=
  a.rsnPart ++
    if keyDataEncrypted a.MsgType a.bWPA2 then (if a.bWPA2 then a.kdeHead else []) ++ a.gtk else []

end KeyDataArgs

/-- The padding of key data of `n` bytes: `0xDD`, and zeros. -/
def padding (n : Nat) : List (BitVec 8) :=
  if n % 8 ≠ 0 then 0xdd :: List.replicate (8 - n % 8 - 1) 0 else []

/-- The key data of the message; `r` is what the key wrap's `R` held. -/
def builtKeyData (r : Mem) (a : KeyDataArgs) (iv : Bytes 16) : List (BitVec 8) :=
  let plain := a.plainKeyData
  if keyDataEncrypted a.MsgType a.bWPA2 then
    if a.keyDescVer = keyDescAes then aesGtkKeyWrap r (kek a.PTK) (plain ++ padding plain.length)
    else Arc4.tkipGtkKeyWrap (List.ofFn iv ++ List.ofFn (kek a.PTK)) plain
  else plain

/-- `SET_UINT16_TO_ARRARY`. -/
def putWord16 (p : Mem) (o n : Nat) : Mem := store p o [BitVec.ofNat 8 (n / 256), BitVec.ofNat 8 n]

/-- `ConstructEapolKeyData`. -/
def constructEapolKeyData (r : Mem) (a : KeyDataArgs) (p : Mem) : Mem :=
  if a.MsgType = .pairMsg1 ∨ a.MsgType = .pairMsg4 ∨ a.MsgType = .groupMsg2 then p
  else
    let bytes := builtKeyData r a (keyIv p)
    let p := putWord16 (store p 99 bytes) 97 bytes.length
    putWord16 p 2 (bodyLen p + bytes.length)

/-- The `KEY_INFO` of `ConstructEapolMsg`. -/
def constructKeyInfo (a : KeyDataArgs) (p : Mem) : Mem :=
  let group := a.MsgType = .groupMsg1 ∨ a.MsgType = .groupMsg2
  let late := group ∨ a.MsgType = .pairMsg3 ∨ a.MsgType = .pairMsg4
  let keyMic := BitVec.ofBool (a.MsgType ≠ .pairMsg1)
  let secure := BitVec.ofBool (if a.bWPA2 then late else group)
  let ekdDl := BitVec.ofBool (a.bWPA2 ∧ (a.MsgType = .pairMsg3 ∨ a.MsgType = .groupMsg1))
  let keyType := BitVec.ofBool (¬ group)
  let keyIndex : BitVec 2 := if a.bWPA2 = false ∧ group then BitVec.ofNat 2 a.DefaultKeyIdx else 0
  let install := BitVec.ofBool (a.MsgType = .pairMsg3)
  let keyAck := BitVec.ofBool a.MsgType.fromAuthenticator
  store p 5
    [0#3 ++ ekdDl ++ 0#2 ++ secure ++ keyMic,
      keyAck ++ install ++ keyIndex ++ keyType ++ a.keyDescVer]

/-! ## The station -/

/-- The key data is parsed, once it is decrypted. -/
def parseDecrypted (env : Env) (s : Station) (p : Mem) (ty : MsgType) :
    Except Fault (Option (Mem × Nat)) → Except Fault (Bool × Station)
  | .error f => .error f
  | .ok none => .ok (true, s)
  | .ok (some (keyData, len)) =>
      rtmpParseEapolKeyData env s keyData (len % 256)
        (if !s.entry.AuthMode.isWpa2 && ty == .groupMsg1 then (keyInfo p).KeyIndex.toNat else 0)
        ty s.entry.AuthMode.isWpa2

/-- What `PeerWpaMessageSanity` does behind the checks of the replay counter and the MIC, with
this memory for `KEYDATA`. -/
def decryptAndParse (env : Env) (g : Grants) (heap : Mem) (s : Station) (p : Mem) (ty : MsgType) :
    Except Fault (Bool × Station) :=
  parseDecrypted env s p ty
    (keyDataOf env.toCrypto g heap s.entry.PTK p ty s.entry.AuthMode.isWpa2)

/-- A message that passes the checks is decrypted and parsed. -/
theorem peerWpaMessageSanity_eq {env : Env} {g : Grants} {heap : Mem} {s : Station} {p : Mem}
    {ty : MsgType} (hheap : g.keyData = some heap) (hfresh : replayDiff s.entry p ty = false)
    (hmic : ty ≠ .pairMsg1 → keyMic p = desiredMic env.toCrypto s.entry.PTK p) :
    peerWpaMessageSanity env g s p ty = decryptAndParse env g heap s p ty := by
  have hfresh' : ¬ replayDiff s.entry p ty = true := Bool.eq_false_iff.mp hfresh
  have hmic' : ¬ (ty ≠ .pairMsg1 ∧ keyMic p ≠ desiredMic env.toCrypto s.entry.PTK p) :=
    fun h => h.2 (hmic h.1)
  unfold peerWpaMessageSanity decryptAndParse
  rw [hheap]
  refine (if_neg hfresh').trans ((if_neg hmic').trans ?_)
  generalize keyDataOf env.toCrypto g heap s.entry.PTK p ty s.entry.AuthMode.isWpa2 = d
  cases d with
  | error f => rfl
  | ok found =>
    cases found with
    | none => rfl
    | some keyData => rfl

/-- The ciphers of this driver; `r` is what the `R` of the unwrapping held. -/
def withCiphers (env : Env) (r : Mem) : Env :=
  { env with
    aesKeyUnwrap := aesGtkKeyUnwrap r
    arc4Compute := Arc4.tkipGtkKeyWrap }

end ExtDrv.Rt3370.Wpa
