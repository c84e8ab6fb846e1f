import ExtDrv.Lib.Run
import ExtDrv.Rt3370.Amsdu

/-!
# Reassembly of fragments

`RTMPDeFragmentDataFrame` of `common/cmm_data.c` and the `FRAGMENT_FRAME` it works
on. Over it stands what a reassembly is: a first fragment and the fragments after
it, received one number after the other, until it is complete or given up.

The buffer of the reassembly is a memory; `Flags`, which nothing reads, is left out.
-/

namespace ExtDrv.Rt3370

open Run Memory

/-! ## Frames -/

/-- `MAX_FRAME_SIZE`. -/
abbrev maxFrameSize : Nat := 2346

/-- A received MPDU, an `RX_BLK`: the bytes from `pHeader` on, the distance `pData - pHeader` and
`DataSize`. -/
structure RxFragment where
  frame : Mem
  headerRoom : BitVec 8
  dataSize : BitVec 16

/-- `pHeader->FC.MoreFrag`, bit 10 of the frame control field. -/
def RxFragment.moreFrag (x : RxFragment) : Bool := (x.frame 1).getLsbD 2

/-- `pHeader->Frag`, the low four bits of the sequence control field. -/
def RxFragment.frag (x : RxFragment) : Nat := (x.frame 22).toNat % 16

/-- `pHeader->Sequence`, its other twelve. -/
def RxFragment.sequence (x : RxFragment) : Nat := (x.frame 22).toNat / 16 + (x.frame 23).toNat * 16

/-- The bytes from `pHeader` to `pData`. -/
def RxFragment.header (x : RxFragment) : List (BitVec 8) := segment x.frame 0 x.headerRoom.toNat

/-- The `DataSize` bytes from `pData` on. -/
def RxFragment.payload (x : RxFragment) : List (BitVec 8) :=
  segment x.frame x.headerRoom.toNat x.dataSize.toNat

/-- `NdisEqualMemory(pData, SNAP_802_1H, sizeof(SNAP_802_1H))`. -/
def RxFragment.hasSnap (x : RxFragment) : Bool :=
  segment x.frame x.headerRoom.toNat snap8021H.length == snap8021H

/-! ## The routine -/

/-- `FRAGMENT_FRAME`. -/
structure FragFrame where
  fragPacket : Mem
  rxSize : Nat
  sequence : Nat
  lastFrag : Nat

/-- `RESET_FRAGFRAME`. -/
def FragFrame.reset (f : FragFrame) : FragFrame := { f with rxSize := 0, sequence := 0, lastFrag := 0 }

/-- A fragment arrives: the packet that is returned, if one is. `fresh` is the new
buffer, if `RTMP_AllocateFragPacketBuffer` succeeds. -/
def rtmpDeFragmentDataFrame (fresh : Option Mem) (x : RxFragment) (f : FragFrame) :
    Option RxFragment × FragFrame :=
  if x.frag = 0 then
    if x.moreFrag then
      -- the first pkt of fragment, record it
      let rxSize := x.dataSize.toNat + x.headerRoom.toNat
      (none, { f with
        fragPacket := store f.fragPacket 0 (segment x.frame 0 rxSize)
        rxSize := rxSize
        sequence := x.sequence
        lastFrag := x.frag })
    else (none, f)
  else if x.sequence ≠ f.sequence ∨ x.frag ≠ f.lastFrag + 1 then (none, f.reset)
  else if maxFrameSize < f.rxSize + x.dataSize.toNat then (none, f.reset)
  else if x.hasSnap then (none, f)
  else
    -- concatenate this fragment into the re-assembly buffer
    let f := { f with
      fragPacket := store f.fragPacket f.rxSize x.payload
      rxSize := f.rxSize + x.dataSize.toNat
      lastFrag := x.frag }
    if x.moreFrag then (none, f)
    else
      match fresh with
      | none => (none, f.reset)
      | some buffer =>
          (some ⟨f.fragPacket, x.headerRoom,
              BitVec.ofNat 16 f.rxSize - x.headerRoom.setWidth 16⟩,
            { f with fragPacket := buffer })

/-! ## What a reassembly is -/

/-- The fragments of the reassembly in progress, the first one first; none if there
is none. -/
abbrev Progress := List RxFragment

/-- The bytes they make: the first fragment whole, and the payloads of the others. -/
def bytesOf : Progress → List (BitVec 8)
  | [] => []
  | first :: rest => first.header ++ first.payload ++ rest.flatMap RxFragment.payload

/-- `x` is the next fragment of a reassembly in progress. -/
def Continues (p : Progress) (x : RxFragment) : Prop :=
  (p.head?.map RxFragment.sequence) = some x.sequence ∧ x.frag = p.length

instance Continues.decidable (p : Progress) (x : RxFragment) : Decidable (Continues p x) :=
  inferInstanceAs (Decidable (_ ∧ _))

/-- What a fragment does to it. One that repeats the LLC header is ignored; a
fragment out of order or too much of them gives it up, and the last one, with the
new buffer or without, is the end of it. -/
def Progress.next (p : Progress) (x : RxFragment) : Progress :=
  if x.frag = 0 then if x.moreFrag then [x] else p
  else if ¬ Continues p x then []
  else if maxFrameSize < (bytesOf p).length + x.dataSize.toNat then []
  else if x.hasSnap then p
  else if x.moreFrag then p ++ [x]
  else []

/-- The driver and the reassembly in progress side by side. -/
structure Reassembly where
  fragFrame : FragFrame
  progress : Progress

/-- A fragment, and the buffer the driver would get. -/
structure Arrival where
  rx : RxFragment
  fresh : Option Mem

/-- A fragment arrives. -/
def Reassembly.step (s : Reassembly) (a : Arrival) : Reassembly :=
  ⟨(rtmpDeFragmentDataFrame a.fresh a.rx s.fragFrame).2, s.progress.next a.rx⟩

/-- After `NdisZeroMemory(&pAd->FragFrame, ...)`, with a buffer of any contents. -/
def Reassembly.init (buffer : Mem) : Reassembly := ⟨⟨buffer, 0, 0, 0⟩, []⟩

/-- Fragments in order: numbered from zero on, of one sequence number. -/
structure InOrder (p : List RxFragment) : Prop where
  frag : ∀ (i : Nat) (x : RxFragment), p[i]? = some x → x.frag = i
  sequence : ∀ x ∈ p, (p.head?.map RxFragment.sequence) = some x.sequence

/-- **What is returned is a reassembly**: the one in progress began with a first
fragment that has its more-fragments bit, this fragment is next in order, and the
packet has the header of the first and the payloads of all of them, and is not too
long. -/
def ReturnsWhole (s : Reassembly) (a : Arrival) : Prop :=
  ∀ r, (rtmpDeFragmentDataFrame a.fresh a.rx s.fragFrame).1 = some r →
    ∃ first rest, s.progress = first :: rest ∧ first.moreFrag = true ∧
      InOrder (first :: rest ++ [a.rx]) ∧ r.header = first.header ∧
      r.payload = first.payload ++ (rest ++ [a.rx]).flatMap RxFragment.payload ∧
      r.header.length + r.payload.length ≤ maxFrameSize

/-! ## The driver follows the reassembly -/

/-- The driver has recorded the reassembly in progress. -/
structure Tracks (f : FragFrame) (p : Progress) : Prop where
  rxSize : f.rxSize = (bytesOf p).length
  sequence : p.head?.map RxFragment.sequence = some f.sequence
  lastFrag : p.length = f.lastFrag + 1
  bytes : segment f.fragPacket 0 f.rxSize = bytesOf p
  inOrder : InOrder p
  begun : p.head?.map RxFragment.moreFrag = some true

theorem Tracks.continues_iff {f : FragFrame} {p : Progress} (h : Tracks f p) (x : RxFragment) :
    Continues p x ↔ x.sequence = f.sequence ∧ x.frag = f.lastFrag + 1 := by
  rw [Continues, h.sequence, h.lastFrag, Option.some.injEq]
  exact and_congr_left fun _ => eq_comm

theorem length_payload (x : RxFragment) : x.payload.length = x.dataSize.toNat := length_segment _ _ _

theorem length_header (x : RxFragment) : x.header.length = x.headerRoom.toNat := length_segment _ _ _

theorem bytesOf_append {p : Progress} (hp : p ≠ []) (x : RxFragment) :
    bytesOf (p ++ [x]) = bytesOf p ++ x.payload := by
  obtain ⟨first, rest, rfl⟩ := List.exists_cons_of_ne_nil hp
  simp [bytesOf]

theorem InOrder.append {p : Progress} (h : InOrder p) {x : RxFragment} (hx : Continues p x) :
    InOrder (p ++ [x]) := by
  have hne : p ≠ [] := by
    rintro rfl
    exact absurd hx.1 (by simp)
  have hhead : (p ++ [x]).head?.map RxFragment.sequence = p.head?.map RxFragment.sequence := by
    rw [List.head?_append_of_ne_nil _ hne]
  constructor
  · intro i y hi
    obtain hlt | heq | hgt := Nat.lt_trichotomy i p.length
    · rw [List.getElem?_append_left hlt] at hi
      exact h.frag i y hi
    · subst heq
      rw [List.getElem?_concat_length] at hi
      rw [← Option.some.inj hi, hx.2]
    · rw [List.getElem?_eq_none (by simp; omega)] at hi
      cases hi
  · intro y hy
    rw [hhead]
    rcases List.mem_append.mp hy with hold | hnew
    · exact h.sequence y hold
    · rw [List.mem_singleton.mp hnew]
      exact hx.1

/-- A first fragment is recorded whole. -/
theorem tracks_first (fresh : Option Mem) {x : RxFragment} (hfrag : x.frag = 0)
    (hmore : x.moreFrag = true) (f : FragFrame) :
    Tracks (rtmpDeFragmentDataFrame fresh x f).2 [x] := by
  have hbytes : bytesOf [x] = segment x.frame 0 (x.dataSize.toNat + x.headerRoom.toNat) := by
    rw [bytesOf, List.flatMap_nil, List.append_nil, RxFragment.header, RxFragment.payload,
      Nat.add_comm, segment_add, Nat.zero_add]
  simp only [rtmpDeFragmentDataFrame, if_pos hfrag, if_pos hmore]
  refine ⟨?_, rfl, ?_, ?_, ⟨?_, ?_⟩, by simp [hmore]⟩
  · rw [hbytes, length_segment]
  · simp [hfrag]
  · have hself := segment_store_self f.fragPacket 0
      (segment x.frame 0 (x.dataSize.toNat + x.headerRoom.toNat))
    rw [length_segment] at hself
    rw [hbytes, hself]
  · intro i y hi
    cases i with
    | zero =>
      rw [← Option.some.inj hi]
      exact hfrag
    | succ i => cases hi
  · intro y hy
    rw [List.mem_singleton.mp hy]
    rfl

/-- A further fragment is appended to what is recorded. -/
theorem Tracks.append {f : FragFrame} {p : Progress} (h : Tracks f p) {x : RxFragment}
    (hx : Continues p x) :
    Tracks
      { f with
        fragPacket := store f.fragPacket f.rxSize x.payload
        rxSize := f.rxSize + x.dataSize.toNat
        lastFrag := x.frag } (p ++ [x]) := by
  have hp : p ≠ [] := by
    rintro rfl
    exact absurd hx.1 (by simp)
  refine ⟨?_, ?_, ?_, ?_, h.inOrder.append hx, ?_⟩
  · rw [bytesOf_append hp, List.length_append, length_payload]
    exact congrArg (· + _) h.rxSize
  · rw [List.head?_append_of_ne_nil _ hp]
    exact h.sequence
  · rw [List.length_append, ← hx.2]
    rfl
  · show segment (store f.fragPacket f.rxSize x.payload) 0 (f.rxSize + x.dataSize.toNat) = _
    rw [← length_payload, segment_store_append, bytesOf_append hp, h.bytes]
  · rw [List.head?_append_of_ne_nil _ hp]
    exact h.begun

/-- Whatever arrives, a reassembly that is in progress is the one recorded. -/
def Recorded (s : Reassembly) : Prop := s.progress ≠ [] → Tracks s.fragFrame s.progress

theorem Recorded.step {s : Reassembly} (h : Recorded s) (a : Arrival) : Recorded (s.step a) := by
  intro hne
  obtain ⟨x, fresh⟩ := a
  obtain ⟨f, p⟩ := s
  simp only [Reassembly.step, Progress.next] at hne ⊢
  by_cases hfrag : x.frag = 0
  · simp only [if_pos hfrag] at hne ⊢
    by_cases hmore : x.moreFrag = true
    · simp only [if_pos hmore]
      exact tracks_first fresh hfrag hmore f
    · simp only [if_neg hmore] at hne ⊢
      have hsame : (rtmpDeFragmentDataFrame fresh x f).2 = f := by
        simp only [rtmpDeFragmentDataFrame, if_pos hfrag, if_neg hmore]
      rw [hsame]
      exact h hne
  simp only [if_neg hfrag] at hne ⊢
  -- from here on the reassembly goes on, or the claim is empty
  by_cases hcont : Continues p x
  case neg => simp only [if_pos hcont] at hne; exact absurd rfl hne
  have hp : p ≠ [] := by
    rintro rfl
    exact absurd hcont.1 (by simp)
  have ht := h hp
  obtain ⟨hseq, hnum⟩ := (ht.continues_iff x).mp hcont
  have hgo : ¬ (x.sequence ≠ f.sequence ∨ x.frag ≠ f.lastFrag + 1) := by
    rintro (h1 | h2)
    · exact h1 hseq
    · exact h2 hnum
  simp only [not_not_intro hcont, if_false] at hne ⊢
  by_cases hlong : maxFrameSize < (bytesOf p).length + x.dataSize.toNat
  · simp only [if_pos hlong] at hne
    exact absurd rfl hne
  simp only [if_neg hlong] at hne ⊢
  have hroom : ¬ maxFrameSize < f.rxSize + x.dataSize.toNat := by rwa [ht.rxSize]
  by_cases hsnap : x.hasSnap = true
  · have hsame : (rtmpDeFragmentDataFrame fresh x f).2 = f := by
      simp only [rtmpDeFragmentDataFrame, if_neg hfrag, if_neg hgo, if_neg hroom, if_pos hsnap]
    simp only [if_pos hsnap] at hne ⊢
    rw [hsame]
    exact ht
  simp only [if_neg hsnap] at hne ⊢
  by_cases hmore : x.moreFrag = true
  case neg => simp only [if_neg hmore] at hne; exact absurd rfl hne
  simp only [if_pos hmore, rtmpDeFragmentDataFrame, if_neg hfrag, if_neg hgo, if_neg hroom,
    if_neg hsnap]
  exact ht.append hcont

/-! ## When a packet is returned -/

/-- The tests that a fragment passes which makes the driver return a packet. -/
structure Completes (f : FragFrame) (a : Arrival) : Prop where
  follows : a.rx.frag ≠ 0
  sequence : a.rx.sequence = f.sequence
  frag : a.rx.frag = f.lastFrag + 1
  room : f.rxSize + a.rx.dataSize.toNat ≤ maxFrameSize
  noSnap : a.rx.hasSnap = false
  last : a.rx.moreFrag = false
  fresh : a.fresh.isSome = true

/-- The packet they return: the buffer with the last payload behind it, split by the
header room of the last fragment. -/
def FragFrame.returned (f : FragFrame) (x : RxFragment) : RxFragment :=
  ⟨store f.fragPacket f.rxSize x.payload, x.headerRoom,
    BitVec.ofNat 16 (f.rxSize + x.dataSize.toNat) - x.headerRoom.setWidth 16⟩

theorem returns_iff (f : FragFrame) (a : Arrival) (r : RxFragment) :
    (rtmpDeFragmentDataFrame a.fresh a.rx f).1 = some r
      ↔ Completes f a ∧ r = f.returned a.rx := by
  constructor
  · intro h
    unfold rtmpDeFragmentDataFrame at h
    split_ifs at h with hfrag hmore hstray hlong hsnap hmore
    cases hfresh : a.fresh with
    | none =>
      rw [hfresh] at h
      cases h
    | some buffer =>
      rw [hfresh] at h
      rw [not_or, not_not, not_not] at hstray
      refine ⟨⟨hfrag, hstray.1, hstray.2, Nat.not_lt.mp hlong, by simpa using hsnap,
        by simpa using hmore, by rw [hfresh]; rfl⟩, (Option.some.inj h).symm⟩
  · rintro ⟨hc, rfl⟩
    obtain ⟨buffer, hbuffer⟩ := Option.isSome_iff_exists.mp hc.fresh
    have hgo : ¬ (a.rx.sequence ≠ f.sequence ∨ a.rx.frag ≠ f.lastFrag + 1) :=
      not_or.mpr ⟨not_not_intro hc.sequence, not_not_intro hc.frag⟩
    simp only [rtmpDeFragmentDataFrame, if_neg hc.follows, if_neg hgo,
      if_neg (Nat.not_lt.mpr hc.room), hc.noSnap, hc.last, hbuffer, Bool.false_eq_true, if_false]
    rfl

/-- The driver completes a packet out of a reassembly that is in progress, by a
fragment whose payload begins as far behind its header as that of the first. -/
def CompletesWhole (s : Reassembly) (a : Arrival) : Prop :=
  Completes s.fragFrame a →
    ∃ first rest, s.progress = first :: rest ∧ first.headerRoom = a.rx.headerRoom

/-- The bytes of a packet returned are those of the reassembly. -/
theorem Tracks.returned {f : FragFrame} {first : RxFragment} {rest : List RxFragment}
    (h : Tracks f (first :: rest)) {a : Arrival} (hc : Completes f a)
    (hroom : first.headerRoom = a.rx.headerRoom) :
    (f.returned a.rx).header = first.header ∧
      (f.returned a.rx).payload = first.payload ++ (rest ++ [a.rx]).flatMap RxFragment.payload ∧
      (f.returned a.rx).header.length + (f.returned a.rx).payload.length ≤ maxFrameSize := by
  have hlong : f.rxSize + a.rx.dataSize.toNat ≤ 2346 := hc.room
  have hhead : first.headerRoom.toNat ≤ f.rxSize := by
    rw [h.rxSize, bytesOf, List.length_append, List.length_append, length_header]
    omega
  have hsize : (f.returned a.rx).dataSize.toNat + a.rx.headerRoom.toNat
      = f.rxSize + a.rx.dataSize.toNat := by
    have hlt := a.rx.headerRoom.isLt
    rw [hroom] at hhead
    simp only [FragFrame.returned, BitVec.toNat_sub, BitVec.toNat_ofNat, BitVec.toNat_setWidth]
    omega
  have hbytes : (f.returned a.rx).header ++ (f.returned a.rx).payload
      = first.header ++ (first.payload ++ (rest ++ [a.rx]).flatMap RxFragment.payload) := by
    have hall := segment_store_append f.fragPacket f.rxSize a.rx.payload
    rw [length_payload, h.bytes, ← hsize, Nat.add_comm, segment_add, Nat.zero_add] at hall
    refine hall.trans ?_
    simp [bytesOf]
  have hlen : (f.returned a.rx).header.length = first.header.length := by
    rw [length_header, length_header, hroom]
    rfl
  obtain ⟨hheader, hpayload⟩ := List.append_inj hbytes hlen
  refine ⟨hheader, hpayload, ?_⟩
  rw [length_header, length_payload]
  show a.rx.headerRoom.toNat + _ ≤ 2346
  omega

theorem Recorded.returnsWhole_iff {s : Reassembly} (h : Recorded s) (a : Arrival) :
    ReturnsWhole s a ↔ CompletesWhole s a := by
  constructor
  · intro hwhole hc
    obtain ⟨first, rest, hp, -, -, hheader, -⟩ :=
      hwhole _ ((returns_iff s.fragFrame a _).mpr ⟨hc, rfl⟩)
    refine ⟨first, rest, hp, BitVec.eq_of_toNat_eq ?_⟩
    have hlen := congrArg List.length hheader
    rw [length_header, length_header] at hlen
    exact hlen.symm
  · intro hwhole r hr
    obtain ⟨hc, rfl⟩ := (returns_iff s.fragFrame a r).mp hr
    obtain ⟨first, rest, hp, hroom⟩ := hwhole hc
    have ht := h (by rw [hp]; exact List.cons_ne_nil _ _)
    have hcont := (ht.continues_iff a.rx).mpr ⟨hc.sequence, hc.frag⟩
    rw [hp] at ht hcont
    obtain ⟨hheader, hpayload, hlen⟩ := ht.returned hc hroom
    exact ⟨first, rest, hp, Option.some.inj ht.begun, ht.inOrder.append hcont, hheader, hpayload,
      hlen⟩

/-- **Reassembly**: in a run of fragments from the reset state, every packet that is
returned is a reassembly as received, exactly when the driver completes packets only
out of a reassembly in progress and by a fragment with the header room of its first. -/
theorem defragment_iff (buffer : Mem) (arrivals : List Arrival) :
    Along Reassembly.step ReturnsWhole (.init buffer) arrivals
      ↔ Along Reassembly.step CompletesWhole (.init buffer) arrivals :=
  along_iff_along (fun _ a h => Recorded.returnsWhole_iff h a) (fun _ a h _ => Recorded.step h a)
    fun hne => absurd rfl hne

/-- A frame with the given fragment number, sequence number 0 and no more fragments. -/
def lastFragment (frag : BitVec 8) : RxFragment := ⟨fun i => if i = 22 then frag else 0, 24, 30⟩

/-- **A fragment out of nowhere**: in the reset state fragment 1 of sequence number 0
is taken for the last of a reassembly that never began. -/
theorem stray_fragment_returned :
    ¬ ReturnsWhole (.init fun _ => 0) ⟨lastFragment 1, some fun _ => 0⟩
      ∧ ((rtmpDeFragmentDataFrame (some fun _ => 0) (lastFragment 1)
          (Reassembly.init fun _ => 0).fragFrame).1.map RxFragment.dataSize) = some 6 := by
  have hret : ((rtmpDeFragmentDataFrame (some fun _ => 0) (lastFragment 1)
      (Reassembly.init fun _ => 0).fragFrame).1.map RxFragment.dataSize) = some 6 := by
    decide +kernel
  refine ⟨fun h => ?_, hret⟩
  obtain ⟨r, hr, -⟩ := Option.map_eq_some_iff.mp hret
  obtain ⟨first, rest, hp, -⟩ := h r hr
  cases hp

end ExtDrv.Rt3370
