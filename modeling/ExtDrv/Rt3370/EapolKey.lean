import ExtDrv.Lib.Endian
import ExtDrv.Rt3370.Eapol

/-!
# EAPOL-Key packets

The fields of `EAPOL_PACKET` (`dot11i_wpa.h`) in the element the MLME queue hands
over, the six messages of the handshakes, and the comparison the replay counters
are put to.
-/

namespace ExtDrv.Rt3370

open BigEndian Memory

/-! ## Bytes of a structure -/

/-- `n` bytes of a structure. -/
abbrev Bytes (n : Nat) := Fin n → BitVec 8

/-- All zero. -/
def Bytes.zero (n : Nat) : Bytes n := fun _ => 0

/-- The `m` bytes from `o` on. -/
def Bytes.sub {n : Nat} (b : Bytes n) (o m : Nat) (h : o + m ≤ n) : Bytes m :=
  fun i => b ⟨o + i, by omega⟩

/-- `n` bytes of a memory. -/
def field (p : Mem) (o n : Nat) : Bytes n := fun i => p (o + i)

/-- `CONV_ARRARY_TO_UINT16`. -/
def word16 (p : Mem) (o : Nat) : Nat := (p o).toNat * 256 + (p (o + 1)).toNat

/-! ## The packet -/

/-- `MLME_QUEUE_ELEM`: the message buffer and the length of the message in it. -/
structure MlmeElem where
  Msg : Mem
  MsgLen : BitVec 32

/-- `LENGTH_802_11 + LENGTH_802_1_H`. -/
abbrev lengthHeaders : Nat := length80211 + length8021H

/-- The EAPOL packet in the message. -/
def MlmeElem.packet (e : MlmeElem) : Mem := fun i => e.Msg (lengthHeaders + i)

/-- `pHeader->Addr2`. -/
def MlmeElem.addr2 (e : MlmeElem) : Bytes 6 := field e.Msg 10 6

/-- `KEY_INFO`. -/
structure KeyInfo where
  KeyMic : Bool
  Secure : Bool
  Error : Bool
  Request : Bool
  KeyDescVer : BitVec 3
  -- `PAIRWISEKEY`, else `GROUPKEY`
  KeyType : Bool
  KeyIndex : BitVec 2
  KeyAck : Bool
deriving DecidableEq

section Packet

variable (p : Mem)

def bodyLen : Nat := word16 p 2

def keyInfo : KeyInfo where
  KeyMic := (p 5).getLsbD 0
  Secure := (p 5).getLsbD 1
  Error := (p 5).getLsbD 2
  Request := (p 5).getLsbD 3
  KeyDescVer := (p 6).extractLsb' 0 3
  KeyType := (p 6).getLsbD 3
  KeyIndex := (p 6).extractLsb' 4 2
  KeyAck := (p 6).getLsbD 7

def replayCounter : Bytes 8 := field p 9 8

def keyNonce : Bytes 32 := field p 17 32

def keyIv : Bytes 16 := field p 49 16

def keyMic : Bytes 16 := field p 81 16

def keyDataLen : Nat := word16 p 97

/-- The first `n` bytes of `KeyData`. -/
def keyData (n : Nat) : List (BitVec 8) := segment p 99 n

/-- The packet with its MIC cleared, as long as its header says. -/
def micText : List (BitVec 8) :=
  segment (store p 81 (List.replicate 16 0)) 0 (bodyLen p + lengthEapolH)

end Packet

/-- `KEY_DESC_TKIP` and `KEY_DESC_AES`. -/
abbrev keyDescTkip : BitVec 3 := 1

abbrev keyDescAes : BitVec 3 := 2

/-- `MIN_LEN_OF_EAPOL_KEY_MSG` and the headers in front of it. -/
abbrev minLenOfKeyFrame : Nat := lengthHeaders + lengthEapolH + 95

/-- `EAPOL_PAIR_MSG_1` to `EAPOL_GROUP_MSG_2`. -/
inductive MsgType
  | pairMsg1
  | pairMsg2
  | pairMsg3
  | pairMsg4
  | groupMsg1
  | groupMsg2
deriving DecidableEq, Repr

/-- The messages of the authenticator. -/
def MsgType.fromAuthenticator (ty : MsgType) : Bool :=
  ty == .pairMsg1 || ty == .pairMsg3 || ty == .groupMsg1

/-- The handler `WpaEAPOLKeyAction` chooses, by `KEY_INFO` and the key data length. -/
def handlerOf (k : KeyInfo) (keyDataLen : Nat) : Option MsgType :=
  if k.KeyAck then
    if !k.Secure && !k.Request && !k.Error && k.KeyType then
      if k.KeyMic then some .pairMsg3 else some .pairMsg1
    else if k.Secure && k.KeyMic && !k.Request && !k.Error then
      if k.KeyType then some .pairMsg3 else some .groupMsg1
    else none
  else if !k.Request && !k.Error && k.KeyMic then
    if !k.Secure && k.KeyType then
      if keyDataLen = 0 then some .pairMsg4 else some .pairMsg2
    else if k.Secure && k.KeyType then some .pairMsg4
    else if k.Secure && !k.KeyType then some .groupMsg2
    else none
  else none

/-! ## Comparison -/

/-- `RTMPCompareMemory`: 1 and 2 say which of the two is larger, 0 that they are equal. -/
def rtmpCompareMemory : List (BitVec 8) → List (BitVec 8) → Nat
  | a :: as, b :: bs =>
      if b.toNat < a.toNat then 1
      else if a.toNat < b.toNat then 2
      else rtmpCompareMemory as bs
  | _, _ => 0

/-- The comparison is that of big-endian numbers. -/
theorem rtmpCompareMemory_eq_one {as bs : List (BitVec 8)} (hlen : as.length = bs.length) :
    rtmpCompareMemory as bs = 1 ↔ beNat bs < beNat as := by
  induction as generalizing bs with
  | nil =>
      obtain rfl := List.length_eq_zero_iff.mp hlen.symm
      exact ⟨fun h => absurd h (by decide), fun h => absurd h (Nat.lt_irrefl 0)⟩
  | cons a as ih =>
      cases bs with
      | nil => cases hlen
      | cons b bs =>
          have hlen' : as.length = bs.length := Nat.succ_inj.mp hlen
          rw [rtmpCompareMemory]
          by_cases hlt : b.toNat < a.toNat
          · rw [if_pos hlt]
            exact ⟨fun _ => beNat_cons_lt hlen'.symm hlt, fun _ => rfl⟩
          by_cases hgt : a.toNat < b.toNat
          · rw [if_neg hlt, if_pos hgt]
            have hless := beNat_cons_lt hlen' hgt
            exact ⟨fun h => absurd h (by decide), fun h => absurd h (Nat.lt_asymm hless)⟩
          · rw [if_neg hlt, if_neg hgt, ih hlen']
            have hab : a.toNat = b.toNat := by omega
            rw [beNat_cons, beNat_cons, hab, hlen', Nat.add_lt_add_iff_left]

theorem rtmpCompareMemory_eq_zero {as bs : List (BitVec 8)} (hlen : as.length = bs.length) :
    rtmpCompareMemory as bs = 0 ↔ as = bs := by
  induction as generalizing bs with
  | nil =>
      obtain rfl := List.length_eq_zero_iff.mp hlen.symm
      exact ⟨fun _ => rfl, fun _ => rfl⟩
  | cons a as ih =>
      cases bs with
      | nil => cases hlen
      | cons b bs =>
          have hlen' : as.length = bs.length := Nat.succ_inj.mp hlen
          rw [rtmpCompareMemory, List.cons.injEq, ← ih hlen', ← BitVec.toNat_inj]
          by_cases hlt : b.toNat < a.toNat
          · rw [if_pos hlt]
            exact ⟨fun h => absurd h (by decide), fun h => absurd h.1 (by omega)⟩
          by_cases hgt : a.toNat < b.toNat
          · rw [if_neg hlt, if_pos hgt]
            exact ⟨fun h => absurd h (by decide), fun h => absurd h.1 (by omega)⟩
          · rw [if_neg hlt, if_neg hgt]
            exact ⟨fun h => ⟨by omega, h⟩, fun h => h.2⟩

/-- A replay counter as a number. -/
def counterNat (c : Bytes 8) : Nat := beNat (List.ofFn c)

end ExtDrv.Rt3370
