import ExtDrv.Lib.Run
import ExtDrv.Rt3370.DeQueue

/-!
# The batches of a transmit queue

Every packet is handed over once and in order, a Ralink aggregate has two packets and an A-MSDU is
short enough for the receiver's buffer; but a batch goes to one receiver with one priority only if
no packets that could be put together stand behind each other in the queue for different ones.
-/

namespace ExtDrv.Rt3370.DeQueue

/-! ## Soundness -/

/-- A packet that may be aggregated: unicast, and none of the special ones. -/
structure QueuedPacket.Plain (p : QueuedPacket) : Prop where
  unicast : p.Wcid ≠ mcastWcid
  ordinary : p.lowRate = false

/-- The same receiver and the same priority. -/
def Same (p p' : QueuedPacket) : Prop := p'.Wcid = p.Wcid ∧ p'.UserPriority = p.UserPriority

def totalLen (ps : List QueuedPacket) : Nat := (ps.map fun p => p.len).sum

/-- A batch of more than one packet that can be sent under the header of the first. -/
structure BatchSound (b : Batch) : Prop where
  same : ∀ p ∈ b.TxPacketList, ∀ p' ∈ b.TxPacketList, Same p p'
  plain : ∀ p ∈ b.TxPacketList, p.Plain
  ralink : b.TxFrameType = .ralink → b.TxPacketList.length = 2
  amsdu : b.TxFrameType = .amsdu → totalLen b.TxPacketList ≤ rxBufferAggresize - 100

/-- Nothing is lost, doubled or overtaken, and the batches are sound; `queues` is what the queues
held at first. -/
structure Sound (queues : Fin 4 → List QueuedPacket) (s : TxQueues) : Prop where
  order : ∀ i, (s.handed i).flatMap Batch.TxPacketList ++ s.TxSwQueue i = queues i
  batches : ∀ i, ∀ b ∈ s.handed i, 1 < b.TxPacketList.length → BatchSound b

/-! ## One batch -/

/-- What a batch of more than one packet looks like. -/
structure Formed (p : QueuedPacket) (ps : List QueuedPacket) (b : Batch) : Prop where
  list : b.TxPacketList = p :: ps
  first : p.Plain
  rest : ∀ p' ∈ ps, p'.Plain
  kind : (b.TxFrameType = .amsdu ∧ p.MoreData = false ∧
      p.len % 65536 + totalLen ps ≤ rxBufferAggresize - 100) ∨
    (b.TxFrameType = .ralink ∧ rate6 ≤ p.TxRate.toNat ∧ ps.length = 1)

section Aggregates

variable {r : Round} {ty : TxFrameType}

theorem totalLen_cons (p : QueuedPacket) (ps : List QueuedPacket) :
    totalLen (p :: ps) = p.len + totalLen ps := by
  unfold totalLen
  rw [List.map_cons, List.sum_cons]

theorem totalLen_append (ps qs : List QueuedPacket) :
    totalLen (ps ++ qs) = totalLen ps + totalLen qs := by
  unfold totalLen
  rw [List.map_append, List.sum_append]

theorem lowRate_eq_false {p : QueuedPacket} :
    p.lowRate = false ↔ (p.dhcp || p.eapol || p.wai) = false := by
  unfold QueuedPacket.lowRate
  rw [Bool.or_comm p.eapol p.dhcp]

theorem canDo_iff {total : BitVec 16} {number : Nat} {p : QueuedPacket} :
    canDoAggregateTransmit r ty total number p = true ↔
      p.Plain ∧ (ty = .amsdu → total.toNat + p.len ≤ rxBufferAggresize - 100) ∧
        (ty = .ralink → number ≠ 2) ∧ r.infraSta = true := by
  unfold canDoAggregateTransmit
  constructor
  · intro h
    split at h
    · cases h
    · rename_i hcast
      split at h
      · cases h
      · rename_i hlow
        split at h
        · cases h
        · rename_i hlong
          split at h
          · cases h
          · rename_i htwo
            refine ⟨⟨hcast, lowRate_eq_false.mpr (Bool.eq_false_iff.mpr hlow)⟩, fun hty => ?_,
              fun hty hn => htwo ⟨hty, hn⟩, h⟩
            exact Nat.le_of_not_lt fun hlt => hlong ⟨hty, hlt⟩
  · rintro ⟨hplain, hlong, htwo, hinfra⟩
    rw [if_neg hplain.unicast,
      if_neg (Bool.eq_false_iff.mp (lowRate_eq_false.mp hplain.ordinary)),
      if_neg (fun h => absurd (hlong h.1) (Nat.not_le_of_lt h.2)), if_neg (fun h => htwo h.1 h.2)]
    exact hinfra

/-- What the inner loop adds is the head of the queue. -/
theorem addAggregates_append (total : BitVec 16) (number : Nat) (queue : List QueuedPacket) :
    (addAggregates r ty total number queue).1 ++ (addAggregates r ty total number queue).2
      = queue := by
  induction queue generalizing total number with
  | nil => rfl
  | cons p rest ih =>
    unfold addAggregates
    split
    · exact congrArg (p :: ·) (ih _ _)
    · rfl

theorem addAggregates_plain (total : BitVec 16) (number : Nat) (queue : List QueuedPacket) :
    ∀ p ∈ (addAggregates r ty total number queue).1, p.Plain := by
  induction queue generalizing total number with
  | nil => nofun
  | cons p rest ih =>
    intro q hq
    unfold addAggregates at hq
    split at hq
    · rename_i h
      have hcan := canDo_iff.mp (Bool.and_eq_true_iff.mp h).2
      rcases List.mem_cons.mp hq with rfl | hq
      · exact hcan.1
      · exact ih _ _ q hq
    · cases hq

/-- The total length stays in bounds, once something was added. -/
theorem addAggregates_amsdu (total : BitVec 16) (number : Nat) (queue : List QueuedPacket)
    (hne : (addAggregates r .amsdu total number queue).1 ≠ []) :
    total.toNat + totalLen (addAggregates r .amsdu total number queue).1
      ≤ rxBufferAggresize - 100 := by
  induction queue generalizing total number with
  | nil => exact absurd rfl hne
  | cons p rest ih =>
    unfold addAggregates at hne ⊢
    split
    · rename_i h
      have hle := (canDo_iff.mp (Bool.and_eq_true_iff.mp h).2).2.1 rfl
      have hsum : (total + BitVec.ofNat 16 p.len).toNat = total.toNat + p.len := by
        rw [show rxBufferAggresize - 100 = 3740 from rfl] at hle
        rw [BitVec.toNat_add, BitVec.toNat_ofNat]
        omega
      dsimp only
      rw [totalLen_cons]
      by_cases hmore : (addAggregates r .amsdu (total + BitVec.ofNat 16 p.len) (number + 1) rest).1
          = []
      · rw [hmore]
        exact hle
      · have hrest := ih _ _ hmore
        rw [hsum] at hrest
        omega
    · rename_i h
      rw [if_neg h] at hne
      exact absurd rfl hne

theorem addAggregates_ralink (total : BitVec 16) (queue : List QueuedPacket) :
    (addAggregates r .ralink total 1 queue).1.length ≤ 1 := by
  cases queue with
  | nil => exact Nat.zero_le _
  | cons p rest =>
    unfold addAggregates
    split
    · refine Nat.succ_le_succ (Nat.le_of_eq ?_)
      cases rest with
      | nil => rfl
      | cons p' rest =>
        unfold addAggregates
        rw [if_neg]
        · rfl
        · intro h
          exact (canDo_iff.mp (Bool.and_eq_true_iff.mp h).2).2.2.1 rfl rfl
    · exact Nat.zero_le _

end Aggregates

/-! ## The first packet -/

section Classification

variable {r : Round} {p : QueuedPacket}

theorem unfragmented_amsdu (h : unfragmented r p = .amsdu) :
    p.lowRate = false ∧ p.MoreData = false := by
  unfold unfragmented at h
  dsimp only at h
  split at h
  · cases h
  · rename_i hlow
    split at h
    · split at h
      · cases h
      · rename_i hmore
        refine ⟨Bool.eq_false_iff.mpr hlow, Bool.eq_false_iff.mpr fun hm => hmore ?_⟩
        rw [hm, Bool.true_or]
    · split at h <;> cases h

theorem unfragmented_ralink (h : unfragmented r p = .ralink) :
    p.lowRate = false ∧ rate6 ≤ p.TxRate.toNat := by
  unfold unfragmented at h
  dsimp only at h
  split at h
  · cases h
  · rename_i hlow
    split at h
    · split at h
      · cases h
      · split at h
        · cases h
        · split at h <;> cases h
    · split at h
      · rename_i hcan
        refine ⟨Bool.eq_false_iff.mpr hlow, ?_⟩
        have hrate := (Bool.and_eq_true_iff.mp (Bool.and_eq_true_iff.mp hcan).1).2
        exact of_decide_eq_true hrate
      · cases h

/-- The type of an aggregate. -/
theorem txPktClassification_aggregate {ty : TxFrameType} (hty : ty = .ralink ∨ ty = .amsdu) :
    txPktClassification r p = ty ↔ p.Wcid ≠ mcastWcid ∧ unfragmented r p = ty := by
  unfold txPktClassification
  dsimp only
  by_cases hcast : p.Wcid = mcastWcid
  · rw [if_pos hcast]
    refine iff_of_false (fun h => ?_) fun h => h.1 hcast
    rcases hty with rfl | rfl <;> cases h
  · rw [if_neg hcast]
    refine Iff.trans ?_ (and_iff_right hcast).symm
    by_cases hfrag : 1 < p.Fragments.toNat ∧ unfragmented r p = .legacy ∧ ¬ r.blockAck p = true
    · rw [if_pos hfrag, hfrag.2.1]
      rcases hty with rfl | rfl <;> exact iff_of_false nofun nofun
    · rw [if_neg hfrag]

end Classification

/-- **One batch**: the head of the queue, in order; more than one packet only in an aggregate. -/
theorem formBatch_spec (r : Round) (p : QueuedPacket) (rest : List QueuedPacket) :
    (formBatch r p rest).1.TxPacketList ++ (formBatch r p rest).2 = p :: rest ∧
      (1 < (formBatch r p rest).1.TxPacketList.length →
        ∃ p' ps, Formed p' ps (formBatch r p rest).1) := by
  unfold formBatch
  dsimp only
  by_cases hty : txPktClassification r p = .ralink ∨ txPktClassification r p = .amsdu
  · rw [if_pos hty]
    refine ⟨congrArg (p :: ·) (addAggregates_append _ 1 rest), fun hlen => ⟨p,
      (addAggregates r (txPktClassification r p) (BitVec.ofNat 16 p.len) 1 rest).1, ?_⟩⟩
    dsimp only at hlen ⊢
    have hne : (addAggregates r (txPktClassification r p) (BitVec.ofNat 16 p.len) 1 rest).1 ≠ [] := by
      intro hnil
      rw [hnil] at hlen
      exact absurd hlen (Nat.lt_irrefl 1)
    have hrest := @addAggregates_plain r (txPktClassification r p)
      (BitVec.ofNat 16 p.len) 1 rest
    rcases hty with hr | ha
    · obtain ⟨hcast, hun⟩ := (txPktClassification_aggregate (Or.inl rfl)).mp hr
      obtain ⟨hlow, hrate⟩ := unfragmented_ralink hun
      have hone := addAggregates_ralink (r := r) (BitVec.ofNat 16 p.len) rest
      rw [hr] at hne hrest ⊢
      refine ⟨rfl, ⟨hcast, hlow⟩, hrest, Or.inr ⟨if_neg hne, hrate, ?_⟩⟩
      have hpos := List.length_pos_of_ne_nil hne
      omega
    · obtain ⟨hcast, hun⟩ := (txPktClassification_aggregate (Or.inr rfl)).mp ha
      obtain ⟨hlow, hmore⟩ := unfragmented_amsdu hun
      rw [ha] at hne hrest ⊢
      have htotal := addAggregates_amsdu _ _ _ hne
      rw [BitVec.toNat_ofNat] at htotal
      exact ⟨rfl, ⟨hcast, hlow⟩, hrest, Or.inl ⟨if_neg hne, hmore, htotal⟩⟩
  · rw [if_neg hty]
    exact ⟨rfl, fun hlen => absurd hlen (Nat.lt_irrefl 1)⟩

/-! ## All rounds -/

/-- **All rounds for a queue** take its packets in order, each batch as one is formed. -/
theorem rounds_spec (env : Nat → Round) (maxTxPackets : BitVec 8) (n : Nat) (count : BitVec 8)
    (queue : List QueuedPacket) :
    (rounds env maxTxPackets n count queue).1.flatMap Batch.TxPacketList
        ++ (rounds env maxTxPackets n count queue).2.1 = queue ∧
      ∀ b ∈ (rounds env maxTxPackets n count queue).1, 1 < b.TxPacketList.length →
        ∃ p ps, Formed p ps b := by
  induction n, count, queue using rounds.induct env maxTxPackets with
  | case1 n count =>
    unfold rounds
    exact ⟨rfl, nofun⟩
  | case2 n count p rest h =>
    unfold rounds
    rw [if_pos h]
    exact ⟨rfl, nofun⟩
  | case3 n count p rest h hmax =>
    unfold rounds
    rw [if_neg h, if_pos hmax]
    exact ⟨rfl, nofun⟩
  | case4 n count p rest h hmax hfree hback =>
    unfold rounds
    rw [if_neg h, if_neg hmax, if_pos hfree, if_pos hback]
    exact ⟨rfl, nofun⟩
  | case5 n count p rest h hmax hfree hback b ih =>
    obtain ⟨happend, hformed⟩ := formBatch_spec (env n) p rest
    unfold rounds
    rw [if_neg h, if_neg hmax, if_pos hfree, if_neg hback]
    dsimp only
    constructor
    · rw [List.flatMap_cons, List.append_assoc, ih.1, happend]
    · intro b' hb' hlen
      rcases List.mem_cons.mp hb' with rfl | hb'
      · exact hformed hlen
      · exact ih.2 b' hb' hlen
  | case6 n count p rest h hmax hfree =>
    unfold rounds
    rw [if_neg h, if_neg hmax, if_neg hfree]
    exact ⟨rfl, nofun⟩

/-! ## All calls -/

/-- What holds of the queues between two calls. -/
structure Inv (queues : Fin 4 → List QueuedPacket) (s : TxQueues) : Prop where
  order : ∀ i, (s.handed i).flatMap Batch.TxPacketList ++ s.TxSwQueue i = queues i
  formed : ∀ i, ∀ b ∈ s.handed i, 1 < b.TxPacketList.length → ∃ p ps, Formed p ps b

section Calls

variable {queues : Fin 4 → List QueuedPacket} {s : TxQueues}

theorem inv_serve (c : Call) (h : Inv queues s) (QueIdx : Fin 4) :
    Inv queues (serve c s QueIdx).1 := by
  unfold serve
  split
  · exact h
  · obtain ⟨happend, hformed⟩ := rounds_spec (c.env QueIdx) c.Max_Tx_Packets 0 0 (s.TxSwQueue QueIdx)
    constructor
    · intro i
      by_cases hi : i = QueIdx
      · subst hi
        simp only [Function.update_self]
        rw [List.flatMap_append, List.append_assoc, happend, h.order i]
      · simp only [Function.update_of_ne hi]
        exact h.order i
    · intro i b hb hlen
      by_cases hi : i = QueIdx
      · subst hi
        simp only [Function.update_self] at hb
        rcases List.mem_append.mp hb with hb | hb
        · exact h.formed i b hb hlen
        · exact hformed b hb hlen
      · simp only [Function.update_of_ne hi] at hb
        exact h.formed i b hb hlen

theorem inv_serveAll (c : Call) (h : Inv queues s) (is : List (Fin 4)) :
    Inv queues (serveAll c s is) := by
  induction is generalizing s with
  | nil => exact h
  | cons i is ih =>
    unfold serveAll
    dsimp only
    split
    · exact inv_serve c h i
    · exact ih (inv_serve c h i)

theorem inv_rtmpDeQueuePacket (c : Call) (h : Inv queues s) : Inv queues (rtmpDeQueuePacket s c) := by
  unfold rtmpDeQueuePacket
  split
  · exact inv_serveAll c h _
  · exact inv_serveAll c h _

theorem inv_exec (queues : Fin 4 → List QueuedPacket) (calls : List Call) :
    Inv queues (Run.exec rtmpDeQueuePacket (.start queues) calls) := by
  have hall : ∀ s, Inv queues s → Inv queues (Run.exec rtmpDeQueuePacket s calls) := by
    induction calls with
    | nil => exact fun s h => h
    | cons c calls ih => exact fun s h => ih _ (inv_rtmpDeQueuePacket c h)
  exact hall _ ⟨fun i => rfl, fun i b hb => nomatch hb⟩

end Calls

/-! ## Queues of one receiver and one priority -/

/-- An A-MSDU that begins with `p` may get as far as `p'`; `ps` stand between them. -/
structure AmsduJoins (p : QueuedPacket) (ps : List QueuedPacket) (p' : QueuedPacket) : Prop where
  first : p.Plain
  rest : ∀ x ∈ ps ++ [p'], x.Plain
  last : p.MoreData = false
  fits : p.len % 65536 + totalLen (ps ++ [p']) ≤ rxBufferAggresize - 100

/-- A Ralink aggregate may be made of the two packets. -/
structure RalinkJoins (p p' : QueuedPacket) : Prop where
  first : p.Plain
  second : p'.Plain
  rate : rate6 ≤ p.TxRate.toNat

/-- Packets of a queue that can be put together are for one receiver and of one priority. -/
structure Uniform (queue : List QueuedPacket) : Prop where
  amsdu : ∀ l p ps p' l', queue = l ++ p :: (ps ++ p' :: l') → AmsduJoins p ps p' →
    Same p p' ∧ p.len < 65536
  ralink : ∀ l p p' l', queue = l ++ p :: p' :: l' → RalinkJoins p p' → Same p p'

theorem Same.symm {p p' : QueuedPacket} (h : Same p p') : Same p' p := ⟨h.1.symm, h.2.symm⟩

theorem Same.trans {p p' p'' : QueuedPacket} (h : Same p p') (h' : Same p' p'') : Same p p'' :=
  ⟨h'.1.trans h.1, h'.2.trans h.2⟩

/-- A batch that was formed from a uniform queue. -/
theorem Formed.sound {p : QueuedPacket} {ps : List QueuedPacket} {b : Batch} (h : Formed p ps b)
    (hlen : 1 < b.TxPacketList.length) {queue l l' : List QueuedPacket} (hq : Uniform queue)
    (hin : queue = l ++ (b.TxPacketList ++ l')) : BatchSound b := by
  rw [h.list] at hin hlen
  have hplain : ∀ x ∈ p :: ps, x.Plain := by
    intro x hx
    rcases List.mem_cons.mp hx with rfl | hx
    · exact h.first
    · exact h.rest x hx
  -- all packets are the same as the first one, and an A-MSDU did not wrap
  have hall : (∀ x ∈ p :: ps, Same p x) ∧ (b.TxFrameType = .amsdu →
      totalLen (p :: ps) ≤ rxBufferAggresize - 100) ∧
      (b.TxFrameType = .ralink → (p :: ps).length = 2) := by
    rcases h.kind with ⟨hty, hmore, hfits⟩ | ⟨hty, hrate, hone⟩
    · have hjoin : ∀ qs x qs', ps = qs ++ x :: qs' → Same p x ∧ p.len < 65536 := by
        intro qs x qs' hps
        refine hq.amsdu l p qs x (qs' ++ l') ?_ ⟨h.first, fun y hy => h.rest y ?_, hmore, ?_⟩
        · rw [hin, hps]
          simp
        · rw [hps]
          rcases List.mem_append.mp hy with hy | hy
          · exact List.mem_append_left _ hy
          · rw [List.mem_singleton.mp hy]
            exact List.mem_append_right _ List.mem_cons_self
        · rw [hps, totalLen_append, totalLen_cons] at hfits
          rw [totalLen_append, totalLen_cons]
          exact Nat.le_trans (by have : totalLen [] = 0 := rfl; omega) hfits
      refine ⟨fun x hx => ?_, fun _ => ?_, fun hr => ?_⟩
      · rcases List.mem_cons.mp hx with rfl | hx
        · exact ⟨rfl, rfl⟩
        · obtain ⟨qs, qs', hps⟩ := List.append_of_mem hx
          exact (hjoin qs x qs' hps).1
      · cases ps with
        | nil => exact absurd hlen (Nat.lt_irrefl 1)
        | cons x xs =>
          have hshort := (hjoin [] x xs rfl).2
          rw [Nat.mod_eq_of_lt hshort] at hfits
          rw [totalLen_cons]
          exact hfits
      · rw [hty] at hr
        cases hr
    · refine ⟨fun x hx => ?_, fun ha => ?_, fun _ => congrArg (· + 1) hone⟩
      · rcases List.mem_cons.mp hx with rfl | hx
        · exact ⟨rfl, rfl⟩
        · obtain ⟨y, rfl⟩ := List.length_eq_one_iff.mp hone
          rw [List.mem_singleton.mp hx]
          exact hq.ralink l p y l' hin ⟨h.first, h.rest y List.mem_cons_self, hrate⟩
      · rw [hty] at ha
        cases ha
  rw [← h.list] at hplain hall
  exact ⟨fun x hx y hy => (hall.1 x hx).symm.trans (hall.1 y hy), hplain, hall.2.2, hall.2.1⟩

theorem sound_of_uniform {queues : Fin 4 → List QueuedPacket} (h : ∀ i, Uniform (queues i))
    (calls : List Call) : Sound queues (Run.exec rtmpDeQueuePacket (.start queues) calls) := by
  have hinv := inv_exec queues calls
  refine ⟨hinv.order, fun i b hb hlen => ?_⟩
  obtain ⟨p, ps, hformed⟩ := hinv.formed i b hb hlen
  obtain ⟨bs, bs', hsplit⟩ := List.append_of_mem hb
  have hin : queues i = bs.flatMap Batch.TxPacketList ++ (b.TxPacketList
      ++ (bs'.flatMap Batch.TxPacketList
        ++ (Run.exec rtmpDeQueuePacket (.start queues) calls).TxSwQueue i)) := by
    rw [← hinv.order i, hsplit, List.flatMap_append, List.flatMap_cons]
    simp
  exact hformed.sound hlen (h i) hin

/-! ## Queues that are not uniform -/

/-- A round in which everything but an aggregate goes. -/
def alone : Round where
  Content _ := ⟨false, false, 0, false, false, false⟩
  bAggregationCapable := false
  wmmInUsed := false
  infraSta := true
  stopped := false
  freeDescriptor _ := true
  needQueueBack := false

/-- A round in which A-MSDUs go. -/
def amsduRound : Round :=
  { alone with Content := fun _ => ⟨true, false, 0, true, false, false⟩ }

/-- A round in which Ralink aggregates go. -/
def ralinkRound : Round :=
  { alone with
    Content := fun _ => ⟨false, false, 0, false, true, false⟩
    bAggregationCapable := true }

/-- A call for one batch of a queue. -/
def oneBatch (i : Fin 4) (r : Round) : Call := ⟨some i, 1, fun _ => false, fun _ _ => r⟩

section Attained

variable {s : TxQueues} {i : Fin 4} {r : Round} {p : QueuedPacket} {rest : List QueuedPacket}

/-- The first batch of a call. -/
theorem rounds_first (hstop : r.stopped = false) (hfree : r.freeDescriptor p.len = true)
    (hback : r.needQueueBack = false) :
    rounds (fun _ => r) 1 0 0 (p :: rest) =
      ((formBatch r p rest).1 :: (rounds (fun _ => r) 1 1
          (BitVec.ofNat 8 (formBatch r p rest).1.TxPacketList.length) (formBatch r p rest).2).1,
        (rounds (fun _ => r) 1 1
          (BitVec.ofNat 8 (formBatch r p rest).1.TxPacketList.length) (formBatch r p rest).2).2) := by
  have hback' : ¬ (txPktClassification r p = .ralink ∧ r.needQueueBack = true) := by
    rw [hback]
    exact fun h => Bool.noConfusion h.2
  rw [rounds, if_neg (by rw [hstop]; exact Bool.noConfusion), if_neg (by decide), if_pos hfree,
    if_neg hback']
  have hzero : ∀ x : BitVec 8, 0 + x = x := BitVec.zero_add
  dsimp only
  rw [hzero]

theorem txPktClassification_alone (p : QueuedPacket) :
    ¬ (txPktClassification alone p = .ralink ∨ txPktClassification alone p = .amsdu) := by
  have hlegacy : unfragmented alone p = .legacy := by
    unfold unfragmented
    dsimp only
    split
    · rfl
    · rfl
  rintro (h | h)
  · have hun := ((txPktClassification_aggregate (Or.inl rfl)).mp h).2
    rw [hlegacy] at hun
    cases hun
  · have hun := ((txPktClassification_aggregate (Or.inr rfl)).mp h).2
    rw [hlegacy] at hun
    cases hun

theorem rtmpDeQueuePacket_oneBatch (s : TxQueues) (i : Fin 4) (r : Round) :
    (rtmpDeQueuePacket s (oneBatch i r)).TxSwQueue i
        = (rounds (fun _ => r) 1 0 0 (s.TxSwQueue i)).2.1 ∧
      (rtmpDeQueuePacket s (oneBatch i r)).handed i
        = s.handed i ++ (rounds (fun _ => r) 1 0 0 (s.TxSwQueue i)).1 := by
  have hserve : serve (oneBatch i r) s i =
      (⟨Function.update s.TxSwQueue i (rounds (fun _ => r) 1 0 0 (s.TxSwQueue i)).2.1,
        Function.update s.handed i (s.handed i ++ (rounds (fun _ => r) 1 0 0 (s.TxSwQueue i)).1)⟩,
        (rounds (fun _ => r) 1 0 0 (s.TxSwQueue i)).2.2) := rfl
  have hcall : rtmpDeQueuePacket s (oneBatch i r) = (serve (oneBatch i r) s i).1 := by
    show serveAll (oneBatch i r) s [i] = _
    unfold serveAll
    dsimp only
    split
    · rfl
    · rfl
  rw [hcall, hserve]
  exact ⟨Function.update_self _ _ _, Function.update_self _ _ _⟩

/-- The head of a queue is handed over packet by packet. -/
theorem exec_alone (l : List QueuedPacket) {q : List QueuedPacket} (hs : s.TxSwQueue i = l ++ q) :
    (Run.exec rtmpDeQueuePacket s (List.replicate l.length (oneBatch i alone))).TxSwQueue i = q := by
  induction l generalizing s with
  | nil => exact hs
  | cons p l ih =>
    refine ih ?_
    have hform : formBatch alone p (l ++ q) = (⟨txPktClassification alone p, [p]⟩, l ++ q) :=
      if_neg (txPktClassification_alone p)
    have hround := @rounds_first alone p (l ++ q) rfl rfl rfl
    rw [hform] at hround
    rw [(rtmpDeQueuePacket_oneBatch s i alone).1, hs, List.cons_append, hround]
    show (rounds (fun _ => alone) 1 1 1 (l ++ q)).2.1 = l ++ q
    cases l ++ q with
    | nil => rw [rounds]
    | cons p' l' => rw [rounds, if_neg Bool.noConfusion, if_pos (by decide)]

/-- **A batch that begins anywhere** in the queue can be handed over. -/
theorem exists_handed (queues : Fin 4 → List QueuedPacket) {l : List QueuedPacket}
    (hq : queues i = l ++ p :: rest) (hstop : r.stopped = false)
    (hfree : r.freeDescriptor p.len = true) (hback : r.needQueueBack = false) :
    ∃ calls, (formBatch r p rest).1 ∈
      (Run.exec rtmpDeQueuePacket (.start queues) calls).handed i := by
  refine ⟨List.replicate l.length (oneBatch i alone) ++ [oneBatch i r], ?_⟩
  have hleft := exec_alone (s := .start queues) l hq
  rw [Run.exec_append, Run.exec_cons, Run.exec_nil, (rtmpDeQueuePacket_oneBatch _ i r).2, hleft,
    rounds_first hstop hfree hback]
  exact List.mem_append_right _ List.mem_cons_self

end Attained

/-- A packet is added. -/
theorem addAggregates_admit {r : Round} {ty : TxFrameType} {total : BitVec 16} {number : Nat}
    {p : QueuedPacket} {rest : List QueuedPacket}
    (hfree : r.freeDescriptor (total.toNat + p.len) = true)
    (hcan : canDoAggregateTransmit r ty total number p = true) :
    (addAggregates r ty total number (p :: rest)).1 =
      p :: (addAggregates r ty (total + BitVec.ofNat 16 p.len) (number + 1) rest).1 := by
  rw [addAggregates, if_pos (Bool.and_eq_true_iff.mpr ⟨hfree, hcan⟩)]

theorem addAggregates_amsduRound {ps : List QueuedPacket} (l' : List QueuedPacket)
    (hplain : ∀ x ∈ ps, x.Plain) {total : BitVec 16} (number : Nat)
    (hfits : total.toNat + totalLen ps ≤ rxBufferAggresize - 100) :
    ∃ more, (addAggregates amsduRound .amsdu total number (ps ++ l')).1 = ps ++ more := by
  induction ps generalizing total number with
  | nil => exact ⟨_, rfl⟩
  | cons p ps ih =>
    rw [totalLen_cons] at hfits
    have hsum : (total + BitVec.ofNat 16 p.len).toNat = total.toNat + p.len := by
      rw [show rxBufferAggresize - 100 = 3740 from rfl] at hfits
      rw [BitVec.toNat_add, BitVec.toNat_ofNat]
      omega
    obtain ⟨more, hmore⟩ := ih (fun x hx => hplain x (List.mem_cons_of_mem p hx))
      (number + 1) (show (total + BitVec.ofNat 16 p.len).toNat + totalLen ps
        ≤ rxBufferAggresize - 100 by rw [hsum]; omega)
    have hcan : canDoAggregateTransmit amsduRound .amsdu total number p = true :=
      canDo_iff.mpr ⟨hplain p List.mem_cons_self, fun _ => by omega, nofun, rfl⟩
    refine ⟨more, ?_⟩
    rw [List.cons_append, addAggregates_admit rfl hcan]
    exact congrArg (p :: ·) hmore

/-- The A-MSDU gets as far as `p'`. -/
theorem AmsduJoins.formBatch {p p' : QueuedPacket} {ps : List QueuedPacket} (h : AmsduJoins p ps p')
    (l' : List QueuedPacket) : ∃ more, (formBatch amsduRound p (ps ++ p' :: l')).1
      = ⟨.amsdu, p :: (ps ++ p' :: more)⟩ := by
  have hclass : txPktClassification amsduRound p = .amsdu := by
    refine (txPktClassification_aggregate (Or.inr rfl)).mpr ⟨h.first.unicast, ?_⟩
    unfold unfragmented
    dsimp only
    have hba : ¬ amsduRound.blockAck p = true := by
      show ¬ Nat.testBit 0 _ = true
      rw [Nat.zero_testBit]
      exact Bool.noConfusion
    have hmore : ¬ (p.MoreData || (amsduRound.Content p.Wcid).powerSave) = true := by
      rw [h.last]
      exact Bool.noConfusion
    rw [if_neg (Bool.eq_false_iff.mp h.first.ordinary),
      if_pos (show (amsduRound.Content p.Wcid).isHtRate = true from rfl), if_neg hmore, if_neg hba,
      if_pos (show (amsduRound.Content p.Wcid).amsduInUsed = true from rfl)]
  have hfits := h.fits
  obtain ⟨more, hmore⟩ := addAggregates_amsduRound l' h.rest 1
    (show (BitVec.ofNat 16 p.len).toNat + totalLen (ps ++ [p']) ≤ rxBufferAggresize - 100 by
      rw [BitVec.toNat_ofNat]; exact hfits)
  rw [List.append_assoc, List.append_assoc, List.singleton_append, List.singleton_append] at hmore
  refine ⟨more, ?_⟩
  unfold DeQueue.formBatch
  dsimp only
  rw [hclass, if_pos (Or.inr rfl), hmore, if_neg (by simp)]

theorem RalinkJoins.formBatch {p p' : QueuedPacket} (h : RalinkJoins p p') (l' : List QueuedPacket) :
    ∃ more, (formBatch ralinkRound p (p' :: l')).1 = ⟨.ralink, p :: p' :: more⟩ := by
  have hclass : txPktClassification ralinkRound p = .ralink := by
    refine (txPktClassification_aggregate (Or.inl rfl)).mpr ⟨h.first.unicast, ?_⟩
    unfold unfragmented
    dsimp only
    have hht : ¬ (ralinkRound.Content p.Wcid).isHtRate = true := Bool.noConfusion
    rw [if_neg (Bool.eq_false_iff.mp h.first.ordinary), if_neg hht, decide_eq_true h.rate]
    rfl
  have hcan : canDoAggregateTransmit ralinkRound .ralink (BitVec.ofNat 16 p.len) 1 p' = true :=
    canDo_iff.mpr ⟨h.second, nofun, fun _ => by decide, rfl⟩
  unfold DeQueue.formBatch
  dsimp only
  rw [hclass, if_pos (Or.inl rfl), addAggregates_admit rfl hcan]
  exact ⟨_, rfl⟩

theorem uniform_of_sound {queues : Fin 4 → List QueuedPacket}
    (h : ∀ calls, Sound queues (Run.exec rtmpDeQueuePacket (.start queues) calls)) (i : Fin 4) :
    Uniform (queues i) := by
  constructor
  · intro l p ps p' l' hq hjoin
    obtain ⟨calls, hcalls⟩ := exists_handed (r := amsduRound) queues hq rfl rfl rfl
    obtain ⟨more, hmore⟩ := hjoin.formBatch l'
    rw [hmore] at hcalls
    have hsound := (h calls).batches i _ hcalls (by
      simp only [List.length_cons, List.length_append]
      omega)
    refine ⟨hsound.same p List.mem_cons_self p' ?_, ?_⟩
    · exact List.mem_cons_of_mem p (List.mem_append_right ps List.mem_cons_self)
    · have hle := hsound.amsdu rfl
      rw [totalLen_cons, show rxBufferAggresize - 100 = 3740 from rfl] at hle
      omega
  · intro l p p' l' hq hjoin
    obtain ⟨calls, hcalls⟩ := exists_handed (r := ralinkRound) queues hq rfl rfl rfl
    obtain ⟨more, hmore⟩ := hjoin.formBatch l'
    rw [hmore] at hcalls
    exact ((h calls).batches i _ hcalls (Nat.succ_lt_succ (Nat.succ_pos _))).same p
      List.mem_cons_self p' (List.mem_cons_of_mem p List.mem_cons_self)

/-- **The batches are sound** in every run exactly if the queues are uniform. -/
theorem sound_iff_uniform (queues : Fin 4 → List QueuedPacket) :
    (∀ calls, Sound queues (Run.exec rtmpDeQueuePacket (.start queues) calls)) ↔
      ∀ i, Uniform (queues i) :=
  ⟨fun h i => uniform_of_sound h i, fun h calls => sound_of_uniform h calls⟩

/-- A packet of 60 bytes to the access point. -/
def dataPacket (userPriority : BitVec 8) : QueuedPacket where
  bytes := List.replicate 60 0
  header := by rw [List.length_replicate]; decide
  mcast := false
  vlan := false
  dhcp := false
  eapol := false
  wai := false
  Wcid := 1
  UserPriority := userPriority
  TxRate := 11
  Fragments := 1
  MoreData := false
  mcast_eq := rfl

theorem dataPacket_plain (userPriority : BitVec 8) : (dataPacket userPriority).Plain :=
  ⟨fun h => absurd (show (1 : BitVec 8) = 0 from h) (by decide), rfl⟩

/-- Two packets of priorities 0 and 3 in the background queue. -/
def mixedQueues : Fin 4 → List QueuedPacket :=
  Function.update (fun _ => []) 1 [dataPacket 0, dataPacket 3]

/-- **Priorities are mixed**: both packets are sent with the priority of the first one. -/
theorem sound_broken : ¬ ∀ queues calls,
    Sound queues (Run.exec rtmpDeQueuePacket (.start queues) calls) := by
  intro h
  have huniform := uniform_of_sound (h mixedQueues) 1
  have hsame := huniform.ralink [] (dataPacket 0) (dataPacket 3) [] rfl
    ⟨dataPacket_plain 0, dataPacket_plain 3, by decide⟩
  exact absurd hsame.2 (by decide)

end ExtDrv.Rt3370.DeQueue
