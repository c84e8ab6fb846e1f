import ExtDrv.Rt3370.EapolKeyData

/-!
# EAPOL key data in bounds

`PeerWpaMessageSanity` and `RTMPParseEapolKeyData` again, with each access in its place: they stop
at the first one that leaves the received frame, the key data, or one of the buffers they write
(`KEYDATA`, `GTK`, and the `R` of `AES_GTK_KEY_UNWRAP`). What they return when they stay in bounds is
what `peerWpaMessageSanity` returns.

The cipher of the other key descriptor versions is RC4.
-/

namespace ExtDrv.Rt3370.Wpa

open KeyWrap Memory

/-! ## Accesses -/

/-- The access that leaves its place: `n` bytes from `o` on. -/
inductive Overrun
  | frame (o n : Nat)
  | keyData (o n : Nat)
  | writeKeyData (n : Nat)
  | writeR (n : Nat)
  | writeGtk (n : Nat)
deriving DecidableEq, Repr

/-- The EAPOL packet, and how many bytes of the received frame it has. -/
structure Received where
  packet : Mem
  len : Nat
  bound : len < 4294967296

/-- The packet of an element of the MLME queue. -/
def received (e : MlmeElem) : Received where
  packet := e.packet
  len := e.MsgLen.toNat - lengthHeaders
  bound := Nat.lt_of_le_of_lt (Nat.sub_le _ _) e.MsgLen.isLt

/-- `MAX_LEN_OF_RSNIE`, the size of `KEYDATA`. -/
abbrev maxLenOfRsnie : Nat := 255

/-- `MAX_LEN_GTK`. -/
abbrev maxLenGtk : Nat := 32

/-- `n` bytes of the frame are read. -/
def Received.read (f : Received) (o n : Nat) : Except Overrun Unit :=
  if o + n ≤ f.len then .ok () else .error (.frame o n)

/-- `n` bytes of key data of `len` bytes are read. -/
def readKeyData (len o n : Nat) : Except Overrun Unit :=
  if o + n ≤ len then .ok () else .error (.keyData o n)

/-- Into a buffer of `size` bytes. -/
def writeTo (size : Nat) (fault : Nat → Overrun) (n : Nat) : Except Overrun Unit :=
  if n ≤ size then .ok () else .error (fault n)

/-! ## The parser -/

/-- What an element is found to be. -/
inductive Kde
  | tooShort
  | other
  | gtk (gtk : FoundGtk)

/-- A GTK KDE at `o`: its key is copied into `GTK`. -/
def copyGtk (keyData : Mem) (n o : Nat) : Except Overrun Kde :=
  let gtkLen := (keyData (o + 1) - 6).toNat
  if gtkLen < 5 then .ok .tooShort
  else do
    writeTo maxLenGtk .writeGtk gtkLen
    readKeyData n (o + 8) gtkLen
    return .gtk ⟨(keyData (o + 6) &&& 3).toNat, segment keyData (o + 8) gtkLen⟩

/-- The body of the loop, for the element at `o` of key data of `n` bytes. -/
def kdeAt (keyData : Mem) (n o : Nat) : Except Overrun Kde := do
  readKeyData n o 1
  if keyData o ≠ 0xdd then return .other
  else
    readKeyData n (o + 2) 3
    if segment keyData (o + 2) 3 ≠ [0x00, 0x0f, 0xac] then return .other
    else
      readKeyData n (o + 5) 1
      if keyData (o + 5) ≠ 0x01 then return .other
      else
        readKeyData n (o + 6) 1
        copyGtk keyData n o

/-- An element that fits the key data is not behind its end. -/
theorem skipOffset_add {n o len : BitVec 8} (h : o.toNat + 2 + len.toNat ≤ n.toNat) :
    (o + 2 + len).toNat = o.toNat + 2 + len.toNat := by
  bv_omega

theorem skipOffset_lt {n o len : BitVec 8} (h : o.toNat + 2 + len.toNat ≤ n.toNat) :
    n.toNat - (o + 2 + len).toNat < n.toNat - o.toNat := by
  have hnext := skipOffset_add h
  omega

/-- The loop over the elements: `skip_offset` is an unsigned char. `none` is a key that is too
short. -/
def kdeWalk (keyData : Mem) (n skipOffset : BitVec 8) (gtk : FoundGtk) :
    Except Overrun (Option FoundGtk) :=
  match readKeyData n.toNat (skipOffset.toNat + 1) 1 with
  | .error e => .error e
  | .ok () =>
      if skipOffset.toNat + 2 + (keyData (skipOffset.toNat + 1)).toNat ≤ n.toNat then
        match kdeAt keyData n.toNat skipOffset.toNat with
        | .error e => .error e
        | .ok .tooShort => .ok none
        | .ok .other => kdeWalk keyData n (skipOffset + 2 + keyData (skipOffset.toNat + 1)) gtk
        | .ok (.gtk found) =>
            kdeWalk keyData n (skipOffset + 2 + keyData (skipOffset.toNat + 1)) found
      else .ok (some gtk)
termination_by n.toNat - skipOffset.toNat
decreasing_by all_goals exact skipOffset_lt ‹_›

/-- `RTMPParseEapolKeyData`. -/
def rtmpParseEapolKeyDataIn (env : Env) (s : Station) (keyData : Mem) (keyDataLen : BitVec 8)
    (groupKeyIndex : Nat) (ty : MsgType) (bWPA2 : Bool) : Except Overrun (Bool × Station) :=
  if (ty = .pairMsg2 ∨ ty = .pairMsg3) ∧ ¬ (bWPA2 = true ∧ ty = .pairMsg3) then .ok (true, s)
  else if bWPA2 = true ∧ (ty = .pairMsg3 ∨ ty = .groupMsg1) then do
    match ← kdeWalk keyData keyDataLen 0 ⟨0, []⟩ with
    | none => return (false, s)
    | some gtk => return installGtk env s gtk
  else if bWPA2 = false ∧ ty = .groupMsg1 then do
    writeTo maxLenGtk .writeGtk keyDataLen.toNat
    return installGtk env s ⟨groupKeyIndex, segment keyData 0 keyDataLen.toNat⟩
  else .ok (installGtk env s ⟨0, []⟩)

/-! ## The checks -/

/-- `AES_GTK_KEY_UNWRAP` on the key data of the frame: `KEYDATA`, and `*p_len`. The bound of its
copy is unsigned; without memory it returns. -/
def unwrapIn (g : Grants) (heap r : Mem) (kek : Bytes 16) (f : Received) (cLen : BitVec 32) :
    Except Overrun (Mem × Nat) :=
  if g.unwrap = false then .ok (heap, 0)
  else do
    f.read 99 8
    f.read 107 (cLen - 8).toNat
    writeTo 512 .writeR (cLen - 8).toNat
    writeTo maxLenOfRsnie .writeKeyData cLen.toNat
    return (store heap 0 (aesGtkKeyUnwrap r kek (keyData f.packet cLen.toNat)), (cLen - 8).toNat)

/-- `TKIP_GTK_KEY_UNWRAP`: `KEYDATA`. -/
def tkipUnwrapIn (g : Grants) (heap : Mem) (kek : Bytes 16) (f : Received) (len : Nat) :
    Except Overrun Mem :=
  if g.unwrap = false then .ok heap
  else do
    f.read 49 16
    f.read 99 len
    writeTo maxLenOfRsnie .writeKeyData len
    return store heap 0 (Arc4.tkipGtkKeyWrap (List.ofFn (keyIv f.packet) ++ List.ofFn kek)
      (keyData f.packet len))

/-- `KEYDATA` and the length of the key data; none where it is not looked at. -/
def keyDataIn (g : Grants) (heap r : Mem) (ptk : Bytes 64) (f : Received) (ty : MsgType)
    (bWPA2 : Bool) : Except Overrun (Option (Mem × Nat)) := do
  f.read 97 2
  let len := keyDataLen f.packet
  if len = 0 then return none
  else if keyDataEncrypted ty bWPA2 then
    if (keyInfo f.packet).KeyDescVer = keyDescAes then
      return some (← unwrapIn g heap r (kek ptk) f (BitVec.ofNat 32 len))
    else return some (← tkipUnwrapIn g heap (kek ptk) f len, len)
  else if ty = .pairMsg2 ∨ ty = .pairMsg3 then
    f.read 99 len
    writeTo maxLenOfRsnie .writeKeyData len
    return some (store heap 0 (keyData f.packet len), len)
  else return none

/-- The packet is read for its MIC, but for the first message. -/
def readMic (f : Received) (ty : MsgType) : Except Overrun Unit :=
  if ty = .pairMsg1 then .ok ()
  else do
    f.read 2 2
    f.read 81 16
    if (keyInfo f.packet).KeyDescVer = keyDescTkip ∨ (keyInfo f.packet).KeyDescVer = keyDescAes then
      f.read 0 (bodyLen f.packet + lengthEapolH)

/-- The key data is parsed, once it is decrypted. -/
def parseIn (env : Env) (s : Station) (f : Received) (ty : MsgType) :
    Option (Mem × Nat) → Except Overrun (Bool × Station)
  | none => .ok (true, s)
  | some (keyData, len) =>
      rtmpParseEapolKeyDataIn env s keyData (BitVec.ofNat 8 len)
        (if !s.entry.AuthMode.isWpa2 && ty == .groupMsg1 then (keyInfo f.packet).KeyIndex.toNat
          else 0)
        ty s.entry.AuthMode.isWpa2

/-- `PeerWpaMessageSanity`. All bytes of the counter count as read, of which `RTMPCompareMemory`
reads those up to the first that differs. -/
def peerWpaMessageSanityIn (env : Env) (g : Grants) (r : Mem) (s : Station) (f : Received)
    (ty : MsgType) : Except Overrun (Bool × Station) :=
  match g.keyData with
  | none => .ok (false, s)
  | some heap => do
    f.read 5 2
    f.read 9 8
    if replayDiff s.entry f.packet ty = true then return (false, s)
    else
      readMic f ty
      if ty ≠ .pairMsg1 ∧ keyMic f.packet ≠ desiredMic env.toCrypto s.entry.PTK f.packet then
        return (false, s)
      else
        let found ← keyDataIn g heap r s.entry.PTK f ty s.entry.AuthMode.isWpa2
        parseIn env s f ty found

end ExtDrv.Rt3370.Wpa
