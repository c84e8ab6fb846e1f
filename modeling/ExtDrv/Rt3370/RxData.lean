import ExtDrv.Rt3370.Defrag
import ExtDrv.Rt3370.Eapol
import ExtDrv.Rt3370.BaTable

/-!
# Received data frames

`STAHandleRxDataFrame` and `STARxDataFrameAnnounce` of `sta/rtmp_data.c`, and the
routines of `common/cmm_data.c` they hand a frame to, up to the network stack.
The build is the repository's: no WDS, DLS or XLINK, no software decryption.
Power save, counters and signal strength are left out.

Every received frame is written down with the frames its data comes from
(`Received`); its place there names its packet.
-/

namespace ExtDrv.Rt3370

open Memory

/-! ## Frames -/

/-- A received data frame: the bytes from `pHeader`, `MPDUtotalByteCount`, and the
fields of the `RXD` and the `RXWI` that are read. -/
structure RxDataFrame where
  pHeader : Mem
  DataSize : BitVec 16
  MyBss : Bool
  Bcast : Bool
  Mcast : Bool
  U2M : Bool
  L2PAD : Bool
  BA : Bool
  Decrypted : Bool
  WirelessCliID : BitVec 8
  TID : Fin 16
  PHYMODE : Fin 4

namespace RxDataFrame

variable (f : RxDataFrame)

/-- `FC.SubType & 0x04`: no data. -/
def noData : Bool := (f.pHeader 0).getLsbD 6

/-- `FC.SubType & 0x08`: a QoS frame. -/
def qos : Bool := (f.pHeader 0).getLsbD 7

def toDs : Bool := (f.pHeader 1).getLsbD 0
def frDs : Bool := (f.pHeader 1).getLsbD 1
def moreFrag : Bool := (f.pHeader 1).getLsbD 2

/-- `FC.Wep`, the protected bit. -/
def wep : Bool := (f.pHeader 1).getLsbD 6

def order : Bool := (f.pHeader 1).getLsbD 7
def addr2 : List (BitVec 8) := segment f.pHeader 10 macAddrLen
def addr3 : List (BitVec 8) := segment f.pHeader 16 macAddrLen

/-- `Frag`, of the sequence control. -/
def frag : Nat := (f.pHeader 22).toNat % 16

/-- `fRX_AMSDU`: bit 7 of the QoS control. -/
def amsdu : Bool := f.qos && (f.pHeader length80211).getLsbD 7

/-- A group-addressed frame. -/
def group : Bool := f.Bcast || f.Mcast

end RxDataFrame

/-- `FC.Wep` of a packet. -/
def RxFragment.wep (x : RxFragment) : Bool := (x.frame 1).getLsbD 6

/-- `Sequence` of a packet, as the reordering code takes it. -/
def RxFragment.sequenceFin (x : RxFragment) : Fin 4096 :=
  ⟨x.sequence, by
    have h22 := (x.frame 22).isLt
    have h23 := (x.frame 23).isLt
    unfold RxFragment.sequence
    omega⟩

/-- The data is that of an EAPOL frame, as far as `RTMPCheckWPAframe` sees. -/
def RxFragment.looksEapol (x : RxFragment) : Bool :=
  rtmpCheckWpaFrame x.frame x.headerRoom.toNat x.dataSize.toNat

/-- `DataSize` after `RTMP_802_11_REMOVE_LLC_AND_CONVERT_TO_802_3`. -/
def RxFragment.convertedSize (x : RxFragment) : BitVec 16 :=
  let pData := x.headerRoom.toNat
  let snap := segment x.frame pData 6
  if snap == snap8021H || snap == snapBridgeTunnel then
    let proto := segment x.frame (pData + 6) 2
    if (proto == ipx || proto == appleTalk) && snap == snap8021H then x.dataSize
    else x.dataSize - BitVec.ofNat 16 length8021H
  else x.dataSize

/-! ## The station -/

/-- The settings and the state of the link that the data path reads. -/
structure RxCfg where
  infra : Bool
  mlmeBssid : List (BitVec 8)
  commonBssid : List (BitVec 8)
  currentAddress : List (BitVec 8)
  aggregationInused : Bool
  mediaStateConnected : Bool
  WepStatus : WepStatus
  portSecured : Bool
  entryWepStatus : Fin 32 → Rt3370.WepStatus

/-- A frame as received: the frames its data comes from, and whether the data is an
EAPOL frame. -/
structure Received where
  sources : List RxDataFrame
  eapol : Bool

/-- The receiving station. `recorded` are the frames whose bytes the reassembly
buffer holds, `log` what was received. -/
structure RxStation where
  ad : RtmpAdapter
  cfg : RxCfg
  fragFrame : FragFrame
  recorded : List RxDataFrame
  log : List Received

/-- What a reception meets: the new buffer of the reassembly, the MIC check of a
reassembled TKIP frame, the copy of the second packet, and the clock. -/
structure RxEnv where
  fresh : Option Mem
  micOk : Bool
  dupOk : Bool
  now32 : BitVec 32
  nowInd : BitVec 32

/-! ## Skipping headers -/

/-- `fRX_ARALINK`. -/
def RxCfg.araLink (cfg : RxCfg) (f : RxDataFrame) : Bool :=
  f.order && decide ((f.PHYMODE : Nat) ≤ 1) && cfg.aggregationInused

/-- `fRX_HTC`. -/
def RxCfg.htc (cfg : RxCfg) (f : RxDataFrame) : Bool := f.order && !cfg.araLink f

/-- The frame past its headers: the padding of the hardware is not in `DataSize`. -/
def RxCfg.skipHeaders (cfg : RxCfg) (f : RxDataFrame) : RxFragment :=
  let skipped := length80211 + (if f.qos then 2 else 0) + (if cfg.htc f then 4 else 0)
  { frame := f.pHeader
    headerRoom := BitVec.ofNat 8 (skipped + if f.L2PAD then 2 else 0)
    dataSize := f.DataSize - BitVec.ofNat 16 skipped }

/-- The frame passes the checks of its header, up to `find pEntry`. -/
def RxCfg.admits (cfg : RxCfg) (f : RxDataFrame) : Bool :=
  !(f.frDs && f.toDs) && f.MyBss && !f.noData
    && (if cfg.infra then f.addr2 == cfg.mlmeBssid else f.addr3 == cfg.commonBssid)
    && decide (f.WirelessCliID.toNat < maxLenOfMacTable)

/-! ## Indication -/

/-- The block-ack code's view of a packet, under the name `id`. -/
def RxDataFrame.rxBlk (f : RxDataFrame) (x : RxFragment) (eap : Bool) (id : Nat) : RxBlk :=
  { Sequence := x.sequenceFin, DataSize := x.dataSize.toNat, OpMode := 0, fRX_AMSDU := f.amsdu,
    fRX_EAP := eap, pRxPacket := id, WirelessCliID := f.WirelessCliID.toNat, TID := f.TID }

/-- `Indicate_Legacy_Packet`. -/
def RtmpAdapter.indicateLegacyPacket (ad : RtmpAdapter) (f : RxDataFrame) (x : RxFragment)
    (id : Nat) (env : RxEnv) : RtmpAdapter :=
  if maxRxPktLen < x.convertedSize.toNat then ad
  else
    let ad := ad.legacyFlush f.WirelessCliID.toNat f.TID env.nowInd
    { ad with up := ad.up ++ [⟨x.sequenceFin, id⟩] }

/-- `fRX_AMPDU` and `bDisableReordering == 0`. -/
def RtmpAdapter.reorders (ad : RtmpAdapter) (f : RxDataFrame) : Bool :=
  f.BA && !ad.cfg.bDisableReordering

/-- `CmmRxnonRalinkFrameIndicate`. -/
def RtmpAdapter.cmmRxnonRalinkFrameIndicate (ad : RtmpAdapter) (f : RxDataFrame) (x : RxFragment)
    (id : Nat) (env : RxEnv) : RtmpAdapter :=
  if ad.reorders f then ad.indicateAmpduPacket (f.rxBlk x false id) env.now32 env.nowInd
  else if f.amsdu then
    -- `Indicate_AMSDU_Packet`: the sub-frames go up
    { ad with up := ad.up ++ [⟨x.sequenceFin, id⟩] }
  else ad.indicateLegacyPacket f x id env

/-- `Msdu2Size`. -/
def RxFragment.msdu2Size (x : RxFragment) : Nat :=
  (x.frame x.headerRoom.toNat).toNat + (x.frame (x.headerRoom.toNat + 1)).toNat * 256

/-- `CmmRxRalinkFrameIndicate`: both packets are of this frame. -/
def RtmpAdapter.cmmRxRalinkFrameIndicate (ad : RtmpAdapter) (x : RxFragment) (id : Nat)
    (env : RxEnv) : RtmpAdapter :=
  if x.msdu2Size ≤ 1536 ∧ x.msdu2Size < x.dataSize.toNat then
    if env.dupOk then
      { ad with up := ad.up ++ [⟨x.sequenceFin, id⟩] ++ [⟨x.sequenceFin, id⟩] }
    else ad
  else ad

/-- `STARxDataFrameAnnounce`. An EAPOL frame that is not reordered goes to the state
machine of the driver. -/
def RxStation.staRxDataFrameAnnounce (s : RxStation) (f : RxDataFrame) (x : RxFragment)
    (id : Nat) (env : RxEnv) : RtmpAdapter :=
  if !x.looksEapol then
    -- before LINK UP, all DATA frames are rejected
    if !s.cfg.mediaStateConnected then s.ad
    else if x.wep && s.cfg.WepStatus == .encryptionDisabled then s.ad
    else if !x.wep && s.cfg.WepStatus != .encryptionDisabled && !s.cfg.portSecured then s.ad
    else if !s.cfg.araLink f then s.ad.cmmRxnonRalinkFrameIndicate f x id env
    else s.ad.cmmRxRalinkFrameIndicate x id env
  else if s.ad.reorders f then
    s.ad.indicateAmpduPacket (f.rxBlk x true id) env.now32 env.nowInd
  else s.ad

/-! ## The handler -/

/-- The frame is whole: neither a fragment nor followed by one. -/
def RxDataFrame.unfragmented (f : RxDataFrame) : Bool := f.frag == 0 && !f.moreFrag

/-- The packet of a unicast frame, if it is whole or completes a reassembly, and the
reassembly after it. -/
def RxStation.packetOf (s : RxStation) (f : RxDataFrame) (fresh : Option Mem) :
    Option RxFragment × FragFrame :=
  if f.unfragmented then (some (s.cfg.skipHeaders f), s.fragFrame)
  else rtmpDeFragmentDataFrame fresh (s.cfg.skipHeaders f) s.fragFrame

/-- A reassembled TKIP frame the hardware decrypted: its MIC is checked here. -/
def RxStation.tkipReassembly (s : RxStation) (f : RxDataFrame) : Bool :=
  !f.unfragmented && f.Decrypted &&
    (if h : f.WirelessCliID.toNat < 32 then
      s.cfg.entryWepStatus ⟨f.WirelessCliID.toNat, h⟩ == .encryption2Enabled
    else false)

/-- `DataSize -= 8`, the MIC. -/
def RxFragment.dropMic (x : RxFragment) : RxFragment := { x with dataSize := x.dataSize - 8 }

/-- The packet that is announced. -/
def RxStation.announced (s : RxStation) (f : RxDataFrame) (x : RxFragment) : RxFragment :=
  if s.tkipReassembly f then x.dropMic else x

/-- `STAHandleRxDataFrame`: the adapter and the reassembly after the frame, whose
packet goes under the name `id`. -/
def RxStation.staHandleRxDataFrame (s : RxStation) (f : RxDataFrame) (id : Nat) (env : RxEnv) :
    RtmpAdapter × FragFrame :=
  if !s.cfg.admits f then (s.ad, s.fragFrame)
  else if f.group then
    -- drop a fragment, and what the AP relayed for us
    if f.moreFrag then (s.ad, s.fragFrame)
    else if f.frDs && f.addr3 == s.cfg.currentAddress then (s.ad, s.fragFrame)
    else (s.ad.indicateLegacyPacket f (s.cfg.skipHeaders f) id env, s.fragFrame)
  else if f.U2M then
    match s.packetOf f env.fresh with
    | (none, fragFrame) => (s.ad, fragFrame)
    | (some x, fragFrame) =>
        if s.tkipReassembly f && !env.micOk then (s.ad, fragFrame)
        else (s.staRxDataFrameAnnounce f (s.announced f x) id env, fragFrame)
  else (s.ad, s.fragFrame)

/-! ## What is written down -/

/-- The frames the data of `f` comes from. -/
def RxStation.sourcesOf (s : RxStation) (f : RxDataFrame) : List RxDataFrame :=
  if f.group || f.unfragmented then [f] else s.recorded ++ [f]

/-- The frames in the reassembly buffer after `f`: a fragment out of order or one too
many empties it, and so does the last one. -/
def RxStation.recordedAfter (s : RxStation) (f : RxDataFrame) : List RxDataFrame :=
  let x := s.cfg.skipHeaders f
  if !s.cfg.admits f || f.group || !f.U2M || f.unfragmented then s.recorded
  else if x.frag = 0 then [f]
  else if x.sequence ≠ s.fragFrame.sequence ∨ x.frag ≠ s.fragFrame.lastFrag + 1 then []
  else if maxFrameSize < s.fragFrame.rxSize + x.dataSize.toNat then []
  else if x.hasSnap then s.recorded
  else if x.moreFrag then s.recorded ++ [f]
  else []

/-- The data of `f` is an EAPOL frame. An A-MSDU is none, whatever its first bytes. -/
def RxStation.eapolOf (s : RxStation) (f : RxDataFrame) (env : RxEnv) : Bool :=
  !f.amsdu &&
    if f.group then (s.cfg.skipHeaders f).looksEapol
    else match (s.packetOf f env.fresh).1 with
      | none => false
      | some x => (s.announced f x).looksEapol

/-- A data frame is received. -/
def RxStation.receive (s : RxStation) (f : RxDataFrame) (env : RxEnv) : RxStation :=
  let (ad, fragFrame) := s.staHandleRxDataFrame f s.log.length env
  { ad := ad, cfg := s.cfg, fragFrame := fragFrame, recorded := s.recordedAfter f,
    log := s.log ++ [⟨s.sourcesOf f, s.eapolOf f env⟩] }

/-- What happens to the station: a data frame, another step of the block-ack code,
or a change of the link and its settings. -/
inductive RxEvent
  | data (f : RxDataFrame) (env : RxEnv)
  | blockAck (op : BaOp) (notData : ∀ rx now32 nowInd, op ≠ .ampdu rx now32 nowInd)
  | link (cfg : RxCfg)

/-- **One step** of the station. -/
def rxStep (s : RxStation) : RxEvent → RxStation
  | .data f env => s.receive f env
  | .blockAck op _ => { s with ad := baStep s.ad op }
  | .link cfg => { s with cfg := cfg }

/-- The station before anything is received. -/
def RxStation.start (ba : BaCfg) (caps : Fin 32 → StaCaps) (num : Nat) (cfg : RxCfg)
    (buffer : Mem) : RxStation :=
  { ad := baStart ba caps num, cfg := cfg, fragFrame := ⟨buffer, 0, 0, 0⟩, recorded := [],
    log := [] }

end ExtDrv.Rt3370
