import ExtDrv.Rt3370.RxBulk
import ExtDrv.Rt3370.RxData

/-!
# Stripping the headers of a received frame

What `STARxDoneInterruptHandle` (`sta/rtmp_data.c`) makes of a packet from the bulk-in
buffer, past `RTMPCheckRxError` (`common/cmm_data_usb.c`), and the pointer and the size that
`STAHandleRxDataFrame` leaves for the later stages: when they lie in the bytes of the
frame that the packet holds.
-/

namespace ExtDrv.Rt3370.RxStrip

open Memory RxBulk

/-! ## From the packet to the frame -/

/-- A packet in memory, and what lies behind its record. -/
structure RxCell where
  packet : RxPacket
  behind : Mem

namespace RxCell

variable (c : RxCell)

/-- The bytes from `GET_OS_PKT_DATAPTR` on. -/
def byte (i : Nat) : BitVec 8 :=
  if i < c.packet.data.length then c.packet.data.getD i 0 else c.behind i

/-- The bytes of the frame that the packet holds, behind the RXWI. -/
def present : Nat := c.packet.data.length - rxwiSize

/-- `MPDUtotalByteCount`. -/
def mpduTotalByteCount : Nat := RxBulk.mpduTotalByteCount (segment c.byte 0 4)

/-- `KeyIndex`. -/
def keyIndex : Nat := (c.byte 1).toNat % 4

/-- A byte of the RXINFO. -/
def info (i : Nat) : BitVec 8 := c.packet.rxInfo.getD i 0

def crc : Bool := (c.info 1).getLsbD 0
def cipherErr : Bool := (c.info 1).getLsbD 1 || (c.info 1).getLsbD 2

/-- The frame behind the RXWI, with the fields of the RXWI and the RXINFO. -/
def frame : RxDataFrame where
  pHeader i := c.byte (rxwiSize + i)
  DataSize := BitVec.ofNat 16 c.mpduTotalByteCount
  MyBss := (c.info 0).getLsbD 7
  Bcast := (c.info 0).getLsbD 6
  Mcast := (c.info 0).getLsbD 5
  U2M := (c.info 0).getLsbD 4
  L2PAD := (c.info 1).getLsbD 6
  BA := (c.info 0).getLsbD 0
  Decrypted := (c.info 2).getLsbD 0
  WirelessCliID := c.byte 0
  TID := ⟨(c.byte 3).toNat / 16, by have h := (c.byte 3).isLt; omega⟩
  PHYMODE := ⟨(c.byte 7).toNat / 64, by have h := (c.byte 7).isLt; omega⟩

/-- `FC.Type`. -/
def frameType : Nat := (c.frame.pHeader 0).toNat / 4 % 4

end RxCell

/-! ## What is done with a frame -/

/-- `MAX_AGGREGATION_SIZE`. -/
abbrev maxAggregationSize : Nat := 3840

/-- `BTYPE_DATA`. -/
abbrev btypeData : Nat := 2

/-- The modes of the adapter, whether a shared key is an AES key, and the sequence number of
the fragments. -/
structure RxMode where
  monitorOn : Bool
  ateOn : Bool
  bPromiscuous : Bool
  aesKey : Nat → Bool
  fragSequence : Nat

/-- `RTMPCheckRxError`: `NDIS_STATUS_SUCCESS`. -/
def rtmpCheckRxError (m : RxMode) (c : RxCell) : Bool :=
  if m.bPromiscuous then true
  else if c.crc then false
  else if c.frame.toDs then false
  else if maxAggregationSize < c.mpduTotalByteCount then false
  -- drop decyption fail frame, but for the first fragments
  else if c.frame.Decrypted && c.cipherErr then
    m.aesKey c.keyIndex && (c.frame.pHeader 22).toNat / 16 + (c.frame.pHeader 23).toNat * 16
      == m.fragSequence
  else true

/-- `STARxDoneInterruptHandle` hands the frame to `STAHandleRxDataFrame`. The status of a frame
of less than 14 bytes is overwritten. -/
def handlesData (m : RxMode) (c : RxCell) : Bool :=
  if m.monitorOn then false
  else if m.ateOn then false
  else rtmpCheckRxError m c && c.frameType == btypeData

/-- The frame goes on to a later stage: to `Indicate_Legacy_Packet`, the reassembly or the
announcement. -/
def goesOn (cfg : RxCfg) (f : RxDataFrame) : Bool :=
  cfg.admits f &&
    if f.group then !f.moreFrag && !(f.frDs && f.addr3 == cfg.currentAddress) else f.U2M

/-- What the later stages find of the packet, if it is not released. -/
def staRxDoneData (m : RxMode) (cfg : RxCfg) (c : RxCell) : Option RxFragment :=
  if handlesData m c && goesOn cfg c.frame then some (cfg.skipHeaders c.frame) else none

/-- The headers a frame claims to have. -/
def headerSize (cfg : RxCfg) (f : RxDataFrame) : Nat :=
  length80211 + (if f.qos then 2 else 0) + (if cfg.htc f then 4 else 0)

/-- The padding of the hardware. -/
def padding (f : RxDataFrame) : Nat := if f.L2PAD then 2 else 0

/-! ## What it has to be -/

/-- The size is what is left of the frame behind its headers, and these bytes are in the
packet. -/
structure Inside (cfg : RxCfg) (c : RxCell) (x : RxFragment) : Prop where
  size : x.dataSize.toNat + headerSize cfg c.frame = c.mpduTotalByteCount
  present : x.headerRoom.toNat + x.dataSize.toNat ≤ c.present

/-- Whatever goes on lies in the packet. -/
def StripsInside (m : RxMode) (cfg : RxCfg) (c : RxCell) : Prop :=
  ∀ x, staRxDoneData m cfg c = some x → Inside cfg c x

/-- The frame is long enough for its headers, and the packet for the frame. -/
structure LongEnough (cfg : RxCfg) (c : RxCell) : Prop where
  headers : headerSize cfg c.frame ≤ c.mpduTotalByteCount
  frame : c.mpduTotalByteCount + padding c.frame ≤ c.present

/-! ## The sizes -/

theorem headerSize_le (cfg : RxCfg) (f : RxDataFrame) : headerSize cfg f ≤ 30 := by
  unfold headerSize
  show 24 + _ + _ ≤ 30
  split_ifs <;> omega

theorem mpduTotalByteCount_lt (c : RxCell) : c.mpduTotalByteCount < 4096 := by
  unfold RxCell.mpduTotalByteCount RxBulk.mpduTotalByteCount
  have h := ((segment c.byte 0 4).getD 2 0).isLt
  omega

theorem headerRoom_toNat (cfg : RxCfg) (f : RxDataFrame) :
    (cfg.skipHeaders f).headerRoom.toNat = headerSize cfg f + padding f := by
  have hle := headerSize_le cfg f
  have hpad : padding f ≤ 2 := by
    unfold padding
    split_ifs <;> omega
  show (BitVec.ofNat 8 (headerSize cfg f + padding f)).toNat = _
  rw [BitVec.toNat_ofNat]
  omega

theorem dataSize_toNat (cfg : RxCfg) (c : RxCell) :
    (cfg.skipHeaders c.frame).dataSize.toNat
      = (2 ^ 16 - headerSize cfg c.frame + c.mpduTotalByteCount) % 2 ^ 16 := by
  have hle := headerSize_le cfg c.frame
  have hlt := mpduTotalByteCount_lt c
  show (BitVec.ofNat 16 c.mpduTotalByteCount - BitVec.ofNat 16 (headerSize cfg c.frame)).toNat = _
  rw [BitVec.toNat_sub, BitVec.toNat_ofNat, BitVec.toNat_ofNat]
  omega

theorem inside_iff (cfg : RxCfg) (c : RxCell) :
    Inside cfg c (cfg.skipHeaders c.frame) ↔ LongEnough cfg c := by
  have hle := headerSize_le cfg c.frame
  have hlt := mpduTotalByteCount_lt c
  have hsize := dataSize_toNat cfg c
  have hroom := headerRoom_toNat cfg c.frame
  constructor
  · intro h
    have hsum := h.size
    have hpresent := h.present
    exact ⟨by omega, by omega⟩
  · intro h
    have hheaders := h.headers
    have hframe := h.frame
    exact ⟨by omega, by omega⟩

/-! ## The result -/

/-- **Header stripping stays inside** exactly where a frame is released, or is long enough for
the headers it claims and held by its packet. -/
theorem stripsInside_iff (m : RxMode) (cfg : RxCfg) (c : RxCell) : StripsInside m cfg c ↔
    (handlesData m c = true → goesOn cfg c.frame = true → LongEnough cfg c) := by
  unfold StripsInside staRxDoneData
  constructor
  · intro h hdata hgoes
    rw [hdata, hgoes] at h
    exact (inside_iff cfg c).mp (h _ rfl)
  · intro h x hx
    split_ifs at hx with hboth
    cases hx
    rw [Bool.and_eq_true] at hboth
    exact (inside_iff cfg c).mpr (h hboth.1 hboth.2)

/-- A bulk-in buffer with a data frame to us of 20 bytes, in a record of 40. -/
def runtBuffer : RxContext where
  TransferBuffer i := [40, 0, 0, 0, 1, 0, 20, 0, 0, 0, 0, 0, 0, 0, 0, 0, 0, 0, 0, 0, 0x08,
    0x02].getD i (if i = 44 then 0x90 else 0)
  BulkInOffset := 48
  bRxHandling := true
  InUse := false
  Readable := true

def runt : RxCell := ⟨packetAt runtBuffer.received 0, fun _ => 0⟩

def quiet : RxMode := ⟨false, false, false, fun _ => false, 0⟩

/-- A station of the access point with the address zero. -/
def station : RxCfg where
  infra := true
  mlmeBssid := List.replicate 6 0
  commonBssid := List.replicate 6 0
  currentAddress := List.replicate 6 0
  aggregationInused := false
  mediaStateConnected := true
  WepStatus := .encryptionDisabled
  portSecured := true
  entryWepStatus _ := .encryptionDisabled

/-- The packet comes from the buffer, and the size of its payload wraps. -/
theorem runt_wraps :
    getPacketFromRxRing true runtBuffer 0 = .ok (some (runt.packet, 48)) ∧
      ¬ StripsInside quiet station runt := by
  constructor
  · have hrecord : Record runtBuffer.received (0#32).toNat := by decide
    exact (getPacket_eq true rfl rfl (Nat.zero_le _)).trans (by rw [if_pos ⟨hrecord, rfl⟩]; rfl)
  · intro h
    have hboth : (handlesData quiet runt && goesOn station runt.frame) = true := by decide
    have hinside := h _ (if_pos hboth)
    exact absurd ((inside_iff station runt).mp hinside).headers (by decide)

end ExtDrv.Rt3370.RxStrip
