import ExtDrv.Lib.Disposal
import ExtDrv.Rt3370.DeQueue

/-!
# What becomes of transmitted packets

`STAHardTransmit` with the builders of `sta/rtmp_data.c` and the resource writers of
`common/cmm_data_usb.c`: where a packet is looked at, replaced by a copy, or released. The bytes
that are built are left out here.

The rings, the memory and the ciphers answer as they like; `SOFT_ENCRYPT` is built in.
-/

namespace ExtDrv.Rt3370.HardTransmit

open Disposal DeQueue

/-! ## Packets and answers -/

/-- A packet of the batch, and how often it was replaced by a copy. -/
structure Handle where
  packet : Nat
  copy : Nat
  deriving DecidableEq, Repr

def Handle.next (h : Handle) : Handle := ⟨h.packet, h.copy + 1⟩

abbrev Acts := List (Act Handle)

/-- What a routine that makes room in a packet does: nothing, a copy, or the packet is lost. -/
inductive Room
  | enough | copied | failed
  deriving DecidableEq, Repr

/-- The answers while one packet is handled. -/
structure Answers where
  -- `fTX_bSwEncrypt`
  swEncrypt : Bool
  -- `CIPHER_TKIP`
  tkip : Bool
  expand : Room
  duplicate : Room
  -- memory for `tmp_ptr`
  memory : Bool
  -- the number of the last fragment
  lastFrag : Nat
  lastFrag_lt : lastFrag < 255
  -- whether the ring takes a fragment: `RtmpUSBCanDoWrite` for the first, `bCurWriting` for the others
  takes : Nat → Bool

/-! ## Routines -/

/-- `ExpandPacket` and `duplicate_pkt_with_TKIP_MIC`: the old packet is released before it is known
whether there is a new one. -/
def makeRoom (room : Room) (h : Handle) : Acts × Option Handle :=
  match room with
  | .enough => ([.touch (some h)], some h)
  | .copied => ([.touch (some h), .alloc h.next, .release (some h)], some h.next)
  | .failed => ([.touch (some h), .release (some h)], none)

/-- `RTMP_FillTxBlkInfo`. -/
def rtmpFillTxBlkInfo (h : Handle) : Acts := [.touch (some h)]

/-- `RTMPExpandPacketForSwEncrypt`, where the packet is to be encrypted. -/
def expandForSwEncrypt (a : Answers) (h : Handle) : Acts × Option Handle :=
  if a.swEncrypt then makeRoom a.expand h else ([], some h)

/-- `RtmpUSB_WriteSingleTxResource` and `RtmpUSB_WriteMultiTxResource`: the packet is released in
any case. -/
def writeTxResource (takes : Bool) (h : Handle) : Acts :=
  (if takes then [.touch (some h)] else []) ++ [.release (some h)]

/-- `RtmpUSB_WriteFragTxResource`. -/
def rtmpUsbWriteFragTxResource (a : Answers) (h : Handle) (fragNum : Nat) : Acts :=
  if a.takes fragNum then
    .touch (some h) :: if fragNum = a.lastFrag then [.release (some h)] else []
  else [.release (some h)]

/-! ## Builders -/

/-- What follows the expansion. -/
def afterExpand (x : Acts × Option Handle) (k : Handle → Acts) : Acts :=
  x.1 ++ match x.2 with
    | none => [.release none]
    | some h => k h

/-- `STA_Legacy_Frame_Tx`, and one turn of `STA_AMPDU_Frame_Tx`. -/
def staLegacyFrameTx (a : Answers) (h : Handle) : Acts :=
  rtmpFillTxBlkInfo h ++ afterExpand (expandForSwEncrypt a h) fun h =>
    .touch (some h) :: writeTxResource (a.takes 0) h

/-- One turn of `STA_AMSDU_Frame_Tx`. -/
def amsduTurn (a : Answers) (h : Handle) : Acts :=
  rtmpFillTxBlkInfo h ++ .touch (some h) :: writeTxResource (a.takes h.packet) h

/-- One turn of `STA_ARalink_Frame_Tx`: with the first packet the length of the next one is
written. -/
def aralinkTurn (n : Nat) (a : Answers) (h : Handle) : Acts :=
  rtmpFillTxBlkInfo h
    ++ (if h.packet = 0 then [.touch (if 1 < n then some ⟨1, 0⟩ else none)] else [])
    ++ .touch (some h) :: writeTxResource (a.takes h.packet) h

/-- The loop of `STA_Fragment_Frame_Tx`, of which the result of the writer is not looked at. -/
def fragmentLoop (a : Answers) (h : Handle) : Acts :=
  (List.range (a.lastFrag + 1)).flatMap fun fragNum =>
    (if a.swEncrypt then [.touch (some h)] else []) ++ rtmpUsbWriteFragTxResource a h fragNum

/-- `STA_Fragment_Frame_Tx` behind the duplication. -/
def fragmentFrame (a : Answers) (h : Handle) : Acts :=
  .touch (some h) :: if a.swEncrypt ∧ a.memory = false then [.release (some h)] else fragmentLoop a h

/-- `STA_Fragment_Frame_Tx`. -/
def staFragmentFrameTx (a : Answers) (h : Handle) : Acts :=
  rtmpFillTxBlkInfo h ++ afterExpand (expandForSwEncrypt a h) fun h =>
    if a.tkip then
      let x := makeRoom a.duplicate h
      x.1 ++ match x.2 with
        | none => []
        | some h => fragmentFrame a h
    else fragmentFrame a h

/-- `STAHardTransmit` on a batch; `answers` by the number of the packet in it. -/
def staHardTransmit (answers : Nat → Answers) (b : Batch) : Acts :=
  let n := b.TxPacketList.length
  if n = 0 then []
  else
    .touch (some ⟨0, 0⟩) ::
      match b.TxFrameType with
      | .ampdu => (List.range n).flatMap fun k => staLegacyFrameTx (answers k) ⟨k, 0⟩
      | .amsdu => (List.range n).flatMap fun k => amsduTurn (answers k) ⟨k, 0⟩
      | .ralink => (List.range n).flatMap fun k => aralinkTurn n (answers k) ⟨k, 0⟩
      | .legacy | .mcast => staLegacyFrameTx (answers 0) ⟨0, 0⟩
      | .frag => staFragmentFrameTx (answers 0) ⟨0, 0⟩

/-- The packets of a batch of `n`, from packet `k` on. -/
def queued (n k : Nat) : Handle → Bool := fun h => decide (h.copy = 0 ∧ k ≤ h.packet ∧ h.packet < n)

end ExtDrv.Rt3370.HardTransmit
