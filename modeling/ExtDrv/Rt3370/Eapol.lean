import ExtDrv.Rt3370.Amsdu

/-!
# EAPOL frames

What the station knows of an EAPOL frame: the encryption and authentication
methods, the check `RTMPCheckWPAframe` that tells such a frame from other data,
and the fields of an EAPOL-Key packet (`dot11i_wpa.h`).

A packet is a memory; the fields are read where the little-endian layout of
`EAPOL_PACKET` has them.
-/

namespace ExtDrv.Rt3370

open Memory

/-! ## Methods -/

/-- `NDIS_802_11_WEP_STATUS`. -/
inductive WepStatus
  | encryption1Enabled
  | encryptionDisabled
  | encryption1KeyAbsent
  | encryptionNotSupported
  | encryption2Enabled
  | encryption2KeyAbsent
  | encryption3Enabled
  | encryption3KeyAbsent
  | encryption4Enabled
  | encryption4KeyAbsent
  | groupWep40Enabled
  | groupWep104Enabled
deriving DecidableEq, Repr

/-- `NDIS_802_11_AUTHENTICATION_MODE`. -/
inductive AuthMode
  | openSystem
  | shared
  | autoSwitch
  | wpa
  | wpaPsk
  | wpaNone
  | wpa2
  | wpa2Psk
  | wpa1Wpa2
  | wpa1PskWpa2Psk
deriving DecidableEq, Repr

/-- The value of the enumerator. -/
def AuthMode.toNat : AuthMode → Nat
  | .openSystem => 0
  | .shared => 1
  | .autoSwitch => 2
  | .wpa => 3
  | .wpaPsk => 4
  | .wpaNone => 5
  | .wpa2 => 6
  | .wpa2Psk => 7
  | .wpa1Wpa2 => 8
  | .wpa1PskWpa2Psk => 9

/-- `bWPA2`: WPA2 or WPA2PSK. -/
def AuthMode.isWpa2 (m : AuthMode) : Bool := m == .wpa2 || m == .wpa2Psk

/-! ## Telling an EAPOL frame -/

/-- `LENGTH_EAPOL_H`. -/
abbrev lengthEapolH : Nat := 4

/-- `EAPOL`, the Ethernet type. -/
def eapol : List (BitVec 8) := [0x88, 0x8e]

/-- `RTMPCheckWPAframe` on the data at `pData`. The timer an EAPOL-Start cancels is
left out. -/
def rtmpCheckWpaFrame (m : Mem) (pData dataByteCount : Nat) : Bool :=
  if dataByteCount < length8021H + lengthEapolH then false
  else
    -- skip the LLC header
    let pData :=
      if segment m pData 6 == snap8021H || segment m pData 6 == snapBridgeTunnel then pData + 6
      else pData
    if segment m pData 2 == eapol then
      -- `EAPPacket` to `EAPOLASFAlert`
      decide ((m (pData + 2 + 1)).toNat ≤ 4)
    else false

end ExtDrv.Rt3370
