import ExtDrv.Rt3370.AmsduTx
import ExtDrv.Rt3370.Sizes

/-!
# The transmit queues

`RTMPDeQueuePacket` with `TxPktClassification` and `CanDoAggregateTransmit` of
`common/cmm_data.c`: packets are taken off the software queue of an access category, one batch after
the other, and handed to `STAHardTransmit`.

What the peers can do, whether a descriptor is free and which flags are set is looked up anew in
each round; another thread may have changed it.
-/

namespace ExtDrv.Rt3370.DeQueue

/-! ## Packets and peers -/

/-- `MCAST_WCID`. -/
abbrev mcastWcid : BitVec 8 := 0

/-- `RATE_6`. -/
abbrev rate6 : Nat := 4

/-- A packet in a software queue, with what else `STASendPacket` writes into its control block. -/
structure QueuedPacket extends TxPacket where
  Wcid : BitVec 8
  UserPriority : BitVec 8
  TxRate : BitVec 8
  Fragments : BitVec 8
  MoreData : Bool
  mcast_eq : mcast = (Wcid == mcastWcid)

/-- `RTMP_GET_PACKET_LOWRATE`. -/
def QueuedPacket.lowRate (p : QueuedPacket) : Bool := p.eapol || p.dhcp || p.wai

inductive TxFrameType
  | mcast | legacy | ampdu | amsdu | ralink | frag
  deriving DecidableEq, Repr

/-- What the classification looks up in a `MAC_TABLE_ENTRY`. -/
structure Peer where
  isHtRate : Bool
  powerSave : Bool
  TXBAbitmap : BitVec 16
  amsduInUsed : Bool
  aggregationCapable : Bool
  wmmCapable : Bool

/-- What one round of the loop looks up. -/
structure Round where
  Content : BitVec 8 → Peer
  bAggregationCapable : Bool
  wmmInUsed : Bool
  -- `INFRA_ON`, and a station
  infraSta : Bool
  -- a scan, a reset, or no device
  stopped : Bool
  -- `RTUSBFreeDescriptorRequest`, for that many bytes
  freeDescriptor : Nat → Bool
  -- `RTUSBNeedQueueBackForAgg`
  needQueueBack : Bool

variable (r : Round)

/-- `TXBAbitmap & (1 << UP)`. -/
def Round.blockAck (p : QueuedPacket) : Bool :=
  (r.Content p.Wcid).TXBAbitmap.toNat.testBit p.UserPriority.toNat

/-- `TxPktClassification`, before packets of more than one fragment are looked for. -/
def unfragmented (p : QueuedPacket) : TxFrameType :=
  let peer := r.Content p.Wcid
  if p.lowRate then .legacy
  else if peer.isHtRate then
    if p.MoreData || peer.powerSave then .legacy
    else if r.blockAck p then .ampdu
    else if peer.amsduInUsed then .amsdu
    else .legacy
  else if (peer.aggregationCapable && r.bAggregationCapable) && rate6 ≤ p.TxRate.toNat
      && !(r.wmmInUsed && peer.wmmCapable) then .ralink
  else .legacy

/-- `TxPktClassification`. -/
def txPktClassification (p : QueuedPacket) : TxFrameType :=
  if p.Wcid = mcastWcid then .mcast
  else
    let ty := unfragmented r p
    if 1 < p.Fragments.toNat ∧ ty = .legacy ∧ ¬ r.blockAck p then .frag else ty

/-- `CanDoAggregateTransmit`, with the type, the total length and the number of packets of the
batch. -/
def canDoAggregateTransmit (ty : TxFrameType) (totalFrameLen : BitVec 16) (number : Nat)
    (p : QueuedPacket) : Bool :=
  if p.Wcid = mcastWcid then false
  else if p.dhcp || p.eapol || p.wai then false
  -- allow the packets with total length < max-amsdu size
  else if ty = .amsdu ∧ rxBufferAggresize - 100 < totalFrameLen.toNat + p.len then false
  -- allow two frames in one batch
  else if ty = .ralink ∧ number = 2 then false
  else r.infraSta

/-! ## Batches -/

/-- The `TX_BLK` handed over. -/
structure Batch where
  TxFrameType : TxFrameType
  TxPacketList : List QueuedPacket

/-- The inner loop, for a batch of `number` packets: what it adds, and what stays. `TotalFrameLen`
is an unsigned short. -/
def addAggregates (ty : TxFrameType) : BitVec 16 → Nat → List QueuedPacket →
    List QueuedPacket × List QueuedPacket
  | _, _, [] => ([], [])
  | totalFrameLen, number, p :: rest =>
      if r.freeDescriptor (totalFrameLen.toNat + p.len)
          && canDoAggregateTransmit r ty totalFrameLen number p then
        let t := addAggregates ty (totalFrameLen + BitVec.ofNat 16 p.len) (number + 1) rest
        (p :: t.1, t.2)
      else ([], p :: rest)

/-- The batch that begins with `p`, and the queue behind it. -/
def formBatch (p : QueuedPacket) (rest : List QueuedPacket) : Batch × List QueuedPacket :=
  let ty := txPktClassification r p
  if ty = .ralink ∨ ty = .amsdu then
    let t := addAggregates r ty (BitVec.ofNat 16 p.len) 1 rest
    (⟨if t.1 = [] then .legacy else ty, p :: t.1⟩, t.2)
  else (⟨ty, [p]⟩, rest)

theorem length_addAggregates (ty : TxFrameType) (totalFrameLen : BitVec 16) (number : Nat)
    (queue : List QueuedPacket) : (addAggregates r ty totalFrameLen number queue).2.length ≤
      queue.length := by
  induction queue generalizing totalFrameLen number with
  | nil => exact Nat.le_refl 0
  | cons p rest ih =>
    unfold addAggregates
    split
    · exact Nat.le_succ_of_le (ih _ _)
    · exact Nat.le_refl _

theorem length_formBatch (p : QueuedPacket) (rest : List QueuedPacket) :
    (formBatch r p rest).2.length < (p :: rest).length := by
  refine Nat.lt_succ_of_le ?_
  unfold formBatch
  dsimp only
  split
  · exact length_addAggregates r _ _ 1 rest
  · exact Nat.le_refl _

/-- The rounds for one queue from round `n` on: the batches, the queue, and whether the function
returns. -/
def rounds (env : Nat → Round) (maxTxPackets : BitVec 8) (n : Nat) (count : BitVec 8) :
    List QueuedPacket → List Batch × List QueuedPacket × Bool
  | [] => ([], [], (env n).stopped)
  | p :: rest =>
      if (env n).stopped then ([], p :: rest, true)
      else if maxTxPackets.toNat ≤ count.toNat then ([], p :: rest, false)
      else if (env n).freeDescriptor p.len then
        if txPktClassification (env n) p = .ralink ∧ (env n).needQueueBack then
          -- the packet is taken off and put back
          ([], p :: rest, false)
        else
          let b := formBatch (env n) p rest
          let t := rounds env maxTxPackets (n + 1)
            (count + BitVec.ofNat 8 b.1.TxPacketList.length) b.2
          (b.1 :: t.1, t.2)
      else ([], p :: rest, false)
termination_by queue => queue.length
decreasing_by exact length_formBatch _ p rest

/-! ## Calls -/

/-- The queues, and what each has handed to `STAHardTransmit`. -/
structure TxQueues where
  TxSwQueue : Fin 4 → List QueuedPacket
  handed : Fin 4 → List Batch

/-- A call of `RTMPDeQueuePacket`: all queues for `NUM_OF_TX_RING`. -/
structure Call where
  QIdx : Option (Fin 4)
  Max_Tx_Packets : BitVec 8
  -- `DeQueueRunning`
  running : Fin 4 → Bool
  env : Fin 4 → Nat → Round

/-- One queue; whether the function returns. -/
def serve (c : Call) (s : TxQueues) (QueIdx : Fin 4) : TxQueues × Bool :=
  if c.running QueIdx then (s, false)
  else
    let t := rounds (c.env QueIdx) c.Max_Tx_Packets 0 0 (s.TxSwQueue QueIdx)
    (⟨Function.update s.TxSwQueue QueIdx t.2.1,
      Function.update s.handed QueIdx (s.handed QueIdx ++ t.1)⟩, t.2.2)

/-- The queues from `sQIdx` to `eQIdx`. -/
def serveAll (c : Call) (s : TxQueues) : List (Fin 4) → TxQueues
  | [] => s
  | QueIdx :: rest =>
      let t := serve c s QueIdx
      if t.2 then t.1 else serveAll c t.1 rest

/-- `RTMPDeQueuePacket`. -/
def rtmpDeQueuePacket (s : TxQueues) (c : Call) : TxQueues :=
  match c.QIdx with
  | none => serveAll c s [0, 1, 2, 3]
  | some QueIdx => serveAll c s [QueIdx]

/-- Queues from which nothing was handed over yet. -/
def TxQueues.start (queues : Fin 4 → List QueuedPacket) : TxQueues := ⟨queues, fun _ => []⟩

end ExtDrv.Rt3370.DeQueue
