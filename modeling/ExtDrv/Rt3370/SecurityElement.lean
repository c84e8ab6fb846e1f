import ExtDrv.Rt3370.BssTable

/-!
# Security elements

What a well-formed `WPA` or `RSN` element says, and where `BssCipherParse` makes of it what it says
when it is the only one of an infrastructure network.
-/

namespace ExtDrv.Rt3370.Bss

open Memory

/-! ## Elements -/

/-- The two formats. -/
inductive Protocol
  | wpa
  | rsn
  deriving DecidableEq

/-- `CIPHER_SUITE_STRUCT` and `AKM_SUITE_STRUCT`. -/
structure Suite where
  OUI : Bytes 3
  suiteType : BitVec 8
  deriving DecidableEq

/-- The OUI of `RSN_OUI`. -/
def rsnSuite : Bytes 3
  | 0 => 0x00
  | 1 => 0x0f
  | 2 => 0xac

def Suite.bytes (s : Suite) : List (BitVec 8) := List.ofFn s.OUI ++ [s.suiteType]

def Protocol.eid : Protocol → BitVec 8
  | .wpa => ieWpa
  | .rsn => ieRsn

/-- The OUI of the suites that the format defines itself. -/
def Protocol.oui : Protocol → List (BitVec 8)
  | .wpa => [0x00, 0x50, 0xf2]
  | .rsn => rsnOui

def Suite.Own (p : Protocol) (s : Suite) : Prop := List.ofFn s.OUI = p.oui

instance (p : Protocol) (s : Suite) : Decidable (s.Own p) :=
  inferInstanceAs (Decidable (List.ofFn s.OUI = p.oui))

/-- Two bytes, the lower one first. -/
def le16 (n : Nat) : List (BitVec 8) := [BitVec.ofNat 8 n, BitVec.ofNat 8 (n / 256)]

/-- The number in the first two bytes. -/
def number : List (BitVec 8) → Nat
  | lo :: hi :: _ => hi.toNat * 256 + lo.toNat
  | _ => 0

/-- The capabilities at the end of a `WPA` element may be left out; behind those of an `RSN` element
may stand a counted list of PMKIDs and what follows it. -/
def Protocol.tailOk (tail : List (BitVec 8)) : Protocol → Prop
  | .wpa => tail.length = 0 ∨ tail.length = 2
  | .rsn => tail.length = 2 ∨ 4 + 16 * number (tail.drop 2) ≤ tail.length

/-- What stands before the suites: the OUI with its type, for `WPA`, and the version. -/
def Protocol.head : Protocol → List (BitVec 8)
  | .wpa => wpaOui ++ le16 1
  | .rsn => le16 1

/-- A well-formed element. -/
structure SecurityElement where
  protocol : Protocol
  group : Suite
  pairs : List Suite
  akms : List Suite
  /-- What stands behind the AKM list. -/
  tail : List (BitVec 8)
  tail_ok : protocol.tailOk tail
  fits : protocol.head.length + 8 + 4 * pairs.length + 4 * akms.length + tail.length ≤ 255

namespace SecurityElement

variable (e : SecurityElement)

def suites (ss : List Suite) : List (BitVec 8) := le16 ss.length ++ ss.flatMap Suite.bytes

def body : List (BitVec 8) :=
  e.protocol.head ++ (e.group.bytes ++ (suites e.pairs ++ (suites e.akms ++ e.tail)))

/-- The element as it is sent. -/
def bytes : List (BitVec 8) := e.protocol.eid :: BitVec.ofNat 8 e.body.length :: e.body

/-! ## What an element says -/

/-- The group cipher, where the driver has a value for it. -/
def groupCipher : WepStatus :=
  if ¬ e.group.Own e.protocol then .encryptionDisabled
  else if e.group.suiteType = 1#8 then .groupWep40Enabled
  else if e.group.suiteType = 5#8 then .groupWep104Enabled
  else if e.group.suiteType = 2#8 then .encryption2Enabled
  else if e.group.suiteType = 4#8 then .encryption3Enabled
  else .encryptionDisabled

/-- The pairwise cipher of the type `t` is advertised: 2 is TKIP, 4 is CCMP. -/
def Advertises (t : BitVec 8) : Prop := ∃ s ∈ e.pairs, s.Own e.protocol ∧ s.suiteType = t

instance (t : BitVec 8) : Decidable (e.Advertises t) :=
  inferInstanceAs (Decidable (∃ s ∈ e.pairs, s.Own e.protocol ∧ s.suiteType = t))

/-- The strongest of the advertised ones of TKIP and CCMP. -/
def strongest : WepStatus :=
  if e.Advertises 4#8 then .encryption3Enabled
  else if e.Advertises 2#8 then .encryption2Enabled
  else .encryptionDisabled

def secondStrongest : WepStatus :=
  if e.Advertises 4#8 ∧ e.Advertises 2#8 then .encryption2Enabled else .encryptionDisabled

/-- The authentication mode of an AKM suite. Of those it does not know the driver has
`Ndis802_11AuthModeMax` for `RSN`, and leaves `Ndis802_11AuthModeOpen` for `WPA`. -/
def akmMode (p : Protocol) (s : Suite) : Option AuthMode :=
  match p with
  | .wpa =>
      if s.Own .wpa ∧ s.suiteType = 1#8 then some .wpa
      else if s.Own .wpa ∧ s.suiteType = 2#8 then some .wpaPsk
      else some .openSystem
  | .rsn =>
      if s.Own .rsn ∧ s.suiteType = 0#8 then some .wpaNone
      else if s.Own .rsn ∧ s.suiteType = 1#8 then some .wpa2
      else if s.Own .rsn ∧ s.suiteType = 2#8 then some .wpa2Psk
      else none

/-- The mode of the `i`th AKM suite. -/
def mode (i : Nat) : Option AuthMode :=
  match e.akms[i]? with
  | some s => akmMode e.protocol s
  | none => some .openSystem

/-- `WPA` or `WPA2`. -/
def suiteOf (sec : Security) : CipherSuite :=
  match e.protocol with
  | .wpa => sec.WPA
  | .rsn => sec.WPA2

/-- What was parsed is what the element says. -/
structure Shown (sec : Security) : Prop where
  group : (e.suiteOf sec).GroupCipher = e.groupCipher
  pair : (e.suiteOf sec).PairCipher = e.strongest
  pairAux : (e.suiteOf sec).PairCipherAux = e.secondStrongest
  auth : sec.AuthMode = e.mode 0
  authAux : sec.AuthModeAux = e.mode 1
  capability : e.protocol = .rsn → sec.WPA2.RsnCapability = number e.tail

/-! ## The element in an entry -/

/-- No element for `BssCipherParse`. -/
def Plain (vie : Mem) (o : Nat) : Prop :=
  ¬ (vie o = ieWpa ∧ segment vie (o + 2) 4 = wpaOui) ∧ vie o ≠ ieRsn

/-- `VarIEs` holds elements, the one at `o` is this and no other is one of security. -/
structure OnlyAt (vie : Mem) (len o : Nat) : Prop where
  whole : Tlv.Whole vie len 0
  mem : o ∈ Tlv.offsets vie len 0
  spells : Spells vie o e.bytes
  others : ∀ i ∈ Tlv.offsets vie len 0, i ≠ o → Plain vie i

/-- Wherever the element is stored as the only one of security, `BssCipherParse` makes of it what it
says. -/
def Conforms : Prop :=
  ∀ (vie : Mem) (len o : Nat) (privacy : Bool), e.OnlyAt vie len o →
    e.Shown ((bssCipherParse privacy false len).run vie).1

/-! ## Where the parse is right -/

/-- Some pairwise suite has the type `t`, of whatever OUI. -/
def Lists (ss : List Suite) (t : BitVec 8) : Prop := ∃ s ∈ ss, s.suiteType = t

instance (ss : List Suite) (t : BitVec 8) : Decidable (Lists ss t) :=
  inferInstanceAs (Decidable (∃ s ∈ ss, s.suiteType = t))

/-- No suite of another OUI has the type of a stronger cipher than those advertised. -/
def PairRight : Prop :=
  (Lists e.pairs 4#8 → e.Advertises 4#8) ∧
    (¬ Lists e.pairs 4#8 → Lists e.pairs 2#8 → e.Advertises 2#8)

/-- The last pairwise suite is not WEP. If it has the type of CCMP it is the first one that has, and
both ciphers are advertised if that of TKIP comes before it; if it has the type of TKIP, both are
advertised if one of the two types comes before it; and otherwise not both are. -/
def AuxRight : Prop :=
  ∀ ss s, e.pairs = ss ++ [s] →
    s.suiteType ≠ 1#8 ∧ s.suiteType ≠ 5#8 ∧
    (s.suiteType = 4#8 → ¬ Lists ss 4#8 ∧ (Lists ss 2#8 → e.Advertises 4#8 ∧ e.Advertises 2#8)) ∧
    (s.suiteType = 2#8 → Lists ss 4#8 ∨ Lists ss 2#8 → e.Advertises 4#8 ∧ e.Advertises 2#8) ∧
    (s.suiteType ≠ 4#8 → s.suiteType ≠ 2#8 → ¬ (e.Advertises 4#8 ∧ e.Advertises 2#8))

/-- The pairwise suites and the AKM suites are such that the parse is right. For `WPA` the OUIs are
not looked at, and of the AKM suites only the first is; in an `RSN` element the second AKM suite is
looked for behind the list, and an OUI that is not known ends the parse. -/
def Right : Prop :=
  match e.protocol with
  | .wpa =>
      (e.group.Own .wpa ∨ e.group.suiteType ∉ [1, 2, 4, 5]) ∧ e.PairRight ∧ e.AuxRight ∧
        (∃ s ss, e.akms = s :: ss ∧ (s.Own .wpa ∨ s.suiteType ∉ [1, 2]) ∧
          ∀ s' ∈ ss.head?, ¬ (s'.Own .wpa ∧ s'.suiteType ∈ [1, 2]))
  | .rsn =>
      (e.group.Own .rsn ∧ e.PairRight ∧ e.AuxRight ∧
          (e.akms = [] ∨ ∃ s, e.akms = [s] ∧ s.Own .rsn)) ∨
        (¬ e.group.Own .rsn ∧ ¬ e.Advertises 4#8 ∧ ¬ e.Advertises 2#8 ∧ e.akms = [] ∧
          number e.tail = 0)

end SecurityElement

end ExtDrv.Rt3370.Bss
