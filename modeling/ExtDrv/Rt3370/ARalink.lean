import ExtDrv.Rt3370.AmsduRoundTrip
import ExtDrv.Rt3370.EapolKey

/-!
# Ralink aggregates

Two packets in one frame: what `STA_ARalink_Frame_Tx` of the station builds, and how
`CmmRxRalinkFrameIndicate` splits it. The first packet has its addresses in the 802.11 header, the
second one keeps its 802.3 header.

The frame begins with the 802.11 header; `pData` is behind the QoS field and the padding.
-/

namespace ExtDrv.Rt3370.ARalink

open Memory

/-! ## Transmission -/

/-- What `STABuildCommon802_11Header` writes for the infrastructure mode: the receiver is the access
point, and the source is the station. -/
structure Header where
  toDs : Bool
  order : Bool
  Addr1 : List (BitVec 8)
  Addr2 : List (BitVec 8)
  Addr3 : List (BitVec 8)

/-- The frame that is sent: its header, and the body from the length of the second packet on. -/
structure Aggregate where
  header : Header
  body : List (BitVec 8)

variable (CurrentAddress Bssid : Bytes 6)

/-- The header, with the "order" bit stolen for "aggregation". -/
def header (p : TxPacket) : Header where
  toDs := true
  order := true
  Addr1 := List.ofFn Bssid
  Addr2 := List.ofFn CurrentAddress
  Addr3 := p.bytes.take 6

/-- `nextBufLen`. -/
def nextBufLen (next : TxPacket) : Nat := if next.vlan then next.len - 4 else next.len

/-- The length in the first frame, in little endian format. -/
def lengthField (n : Nat) : List (BitVec 8) := [BitVec.ofNat 8 n, BitVec.ofNat 8 (n / 256)]

/-- A subsequent frame: the 802.3 header without a tag, and the payload. -/
def subsequent (p : TxPacket) : List (BitVec 8) := p.bytes.take 12 ++ p.typeOfLen ++ p.srcBuf

/-- `STA_ARalink_Frame_Tx`; the first frame needs a second one. -/
def staARalinkFrameTx : List TxPacket → Option Aggregate
  | p :: next :: rest => some
      ⟨header CurrentAddress Bssid p,
        lengthField (nextBufLen next) ++ p.encap ++ p.srcBuf ++ (next :: rest).flatMap subsequent⟩
  | _ => none

/-! ## Reception -/

/-- The `RX_BLK`, with the whole frame. -/
structure RxBlk where
  frame : Body
  pData : Nat
  DataSize : BitVec 16
  infra : Bool
  dls : Bool

/-- Where the destination and the source stand. -/
def RxBlk.addresses (rx : RxBlk) : Nat × Nat :=
  if rx.infra then if rx.dls then (4, 10) else (4, 16) else (4, 10)

/-- `Msdu2Size`. -/
def msdu2Size (octets : List (BitVec 8)) : BitVec 16 :=
  (octets.getD 0 0).setWidth 16 + (octets.getD 1 0).setWidth 16 <<< 8

/-- `CmmRxRalinkFrameIndicate`: the packets handed up. `granted` is whether `duplicate_pkt` gets its
memory. -/
def cmmRxRalinkFrameIndicate (granted : Bool) (rx : RxBlk) :
    Except BodyFault (List (List (BitVec 8))) := do
  let msdu2 := msdu2Size (← rx.frame.read rx.pData 2)
  if msdu2.toNat ≤ 1536 ∧ msdu2.toNat < rx.DataSize.toNat then
    -- skip two byte MSDU2 len
    let c ← convertTo8023 rx.frame rx.addresses.1 rx.addresses.2 (rx.pData + 2) (rx.DataSize - 2)
    let payload1 := c.payloadSize - msdu2
    let payload2 := msdu2 - BitVec.ofNat 16 length8023
    let pData2 := c.pPayload + payload1.toNat + length8023
    if granted then
      let header2 ← rx.frame.read (pData2 - length8023) length8023
      let data2 ← rx.frame.read pData2 payload2.toNat
      -- the header of the first packet is pushed in front of its payload
      let frame ← rx.frame.write (c.pPayload - length8023) c.header8023
      let packet1 ← frame.read (c.pPayload - length8023) (length8023 + payload1.toNat)
      pure [packet1, header2 ++ data2]
    else pure []
  else pure []

/-! ## The round trip -/

/-- **The frame as the access point passes it on**: the body as it was sent, the destination and the
source in the first and the third address of a frame from the distribution system. -/
structure Relayed (a : Aggregate) (rx : RxBlk) : Prop where
  infra : rx.infra = true
  direct : rx.dls = false
  destination : rx.frame.slice 4 6 = a.header.Addr3
  source : rx.frame.slice 16 6 = a.header.Addr2
  start : length80211 ≤ rx.pData
  size : rx.DataSize.toNat = a.body.length
  fits : rx.pData + a.body.length ≤ rx.frame.size
  body : rx.frame.slice rx.pData a.body.length = a.body

/-- The packet with the station as its source. -/
def asSent (p : TxPacket) : List (BitVec 8) :=
  p.bytes.take 6 ++ List.ofFn CurrentAddress ++ p.bytes.drop 12

/-- Both packets arrive as they were, in order, where there is memory for the second one. -/
def RoundTrips (p next : TxPacket) : Prop :=
  ∃ a, staARalinkFrameTx CurrentAddress Bssid [p, next] = some a ∧
    ∀ rx, Relayed a rx → cmmRxRalinkFrameIndicate true rx = .ok [p.bytes, next.bytes]

section Parts

variable {b : Body} {o : Nat}

/-- The bytes of a slice by parts. -/
theorem slice_split {u v : List (BitVec 8)} (h : b.slice o (u ++ v).length = u ++ v) :
    b.slice o u.length = u ∧ b.slice (o + u.length) v.length = v := by
  rw [List.length_append, slice_append] at h
  exact List.append_inj h (length_slice b o u.length)

theorem msdu2Size_lengthField {n : Nat} (h : n < 65536) : (msdu2Size (lengthField n)).toNat = n := by
  simp only [msdu2Size, lengthField, List.getD_cons_zero, List.getD_cons_succ, BitVec.toNat_add,
    BitVec.toNat_setWidth, BitVec.toNat_shiftLeft, BitVec.toNat_ofNat, Nat.shiftLeft_eq]
  omega

end Parts

/-- The parts of the body, from the place `o + 14` of the encapsulation on. -/
structure Body2 (b : Body) (o : Nat) (p next : TxPacket) : Prop where
  field : b.slice (o + 12) 2 = lengthField (nextBufLen next)
  encap : b.slice (o + 14) p.encap.length = p.encap
  payload : b.slice (o + 14 + p.encap.length) p.srcBuf.length = p.srcBuf
  second : b.slice (o + 14 + p.encap.length + p.srcBuf.length) (subsequent next).length
    = subsequent next

theorem bodyParts {b : Body} {o : Nat} {p next : TxPacket} {bs : List (BitVec 8)}
    (hbs : bs = lengthField (nextBufLen next) ++ p.encap ++ p.srcBuf ++ [next].flatMap subsequent)
    (h : b.slice (o + 12) bs.length = bs) : Body2 b o p next := by
  have hsplit : bs = lengthField (nextBufLen next) ++ (p.encap ++ (p.srcBuf ++ subsequent next)) := by
    rw [hbs]
    simp
  rw [hsplit] at h
  obtain ⟨hfield, h⟩ := slice_split h
  obtain ⟨hencap, h⟩ := slice_split h
  obtain ⟨hpayload, hsecond⟩ := slice_split h
  exact ⟨hfield, hencap, hpayload, hsecond⟩

theorem subsequent_untagged {next : TxPacket} (h : next.vlan = false) :
    subsequent next = next.bytes := by
  have hskip : next.skipped = 14 := by
    unfold TxPacket.skipped
    rw [h]
    rfl
  unfold subsequent TxPacket.typeOfLen TxPacket.srcBuf
  rw [hskip]
  show next.bytes.take 12 ++ (next.bytes.drop 12).take 2 ++ _ = _
  rw [take_twelve_append, List.take_append_drop]

/-- The second packet stands behind the payload of the first. -/
theorem Body2.second_whole {b : Body} {o : Nat} {p next : TxPacket} (h : Body2 b o p next)
    (hp : p.Plain) (hn : next.vlan = false) :
    b.slice (o + 8 + 14 + p.srcBuf.length) 14
      ++ b.slice (o + 8 + 14 + p.srcBuf.length + 14) (next.len - 14) = next.bytes := by
  have hsecond := h.second
  rw [subsequent_untagged hn, hp.length_encap] at hsecond
  have h14 : 14 ≤ next.len := next.header
  have hall : 14 + (next.len - 14) = next.bytes.length := by
    show _ = next.len
    omega
  rw [← slice_append, hall]
  exact hsecond

/-- The header in front of the payload makes the first packet again. -/
theorem Body2.first_whole {b : Body} {o : Nat} {p next : TxPacket} {hdr : List (BitVec 8)}
    (h : Body2 b o p next) (hp : p.Plain)
    (hhdr : hdr = p.bytes.take 6 ++ List.ofFn CurrentAddress ++ (p.bytes.drop 12).take 2)
    (hlen : hdr.length = 14) :
    segment (store b.byte (o + 8) hdr) (o + 8) (14 + p.srcBuf.length)
      = asSent CurrentAddress p := by
  have hpayload := h.payload
  rw [hp.length_encap] at hpayload
  have hfront := segment_store_front b.byte (o + 8) p.srcBuf.length hdr
  rw [hlen] at hfront
  rw [hfront, show segment b.byte (o + 8 + 14) p.srcBuf.length = p.srcBuf from hpayload, hhdr]
  unfold asSent TxPacket.srcBuf
  rw [hp.skipped_eq, List.append_assoc, List.append_assoc, List.append_assoc]
  congr 2
  rw [← List.drop_drop (i := 2) (j := 12), List.take_append_drop]

/-- The sizes of the two payloads. -/
theorem payloads_toNat {d m : BitVec 16} {n₁ n₂ : Nat} (hd : d.toNat = 10 + n₁ + n₂)
    (hm : m.toNat = n₂) (h14 : 14 ≤ n₂) :
    (d - 2 - BitVec.ofNat 16 length8021H - m).toNat = n₁ ∧
      (m - BitVec.ofNat 16 length8023).toNat = n₂ - 14 := by
  have hlt := d.isLt
  have hrest : (d - 2 - BitVec.ofNat 16 length8021H).toNat = n₁ + n₂ := by
    rw [BitVec.toNat_sub, BitVec.toNat_sub, BitVec.toNat_ofNat]
    show (2 ^ 16 - 8 % 2 ^ 16 + (2 ^ 16 - 2 + d.toNat) % 2 ^ 16) % 2 ^ 16 = _
    omega
  constructor
  · rw [BitVec.toNat_sub, hrest, hm]
    omega
  · rw [BitVec.toNat_sub, BitVec.toNat_ofNat, hm]
    show (2 ^ 16 - 14 % 2 ^ 16 + n₂) % 2 ^ 16 = _
    omega

/-- What is handed up of a frame that is converted: the payload of the first packet with
the new header in front, and the second packet as it stands. -/
theorem indicate_of_conv {rx : RxBlk} {octets : List (BitVec 8)} {c : Converted} {q n₁ n₂ : Nat}
    (granted : Bool) (hread : rx.frame.read rx.pData 2 = .ok octets)
    (hgo : (msdu2Size octets).toNat ≤ 1536 ∧ (msdu2Size octets).toNat < rx.DataSize.toNat)
    (hconv : convertTo8023 rx.frame rx.addresses.1 rx.addresses.2 (rx.pData + 2)
      (rx.DataSize - 2) = .ok c)
    (hq : c.pPayload = q + 14) (h₁ : (c.payloadSize - msdu2Size octets).toNat = n₁)
    (h₂ : (msdu2Size octets - BitVec.ofNat 16 length8023).toNat = n₂)
    (hhdr : c.header8023.length = 14) (hend : q + 14 + n₁ + 14 + n₂ ≤ rx.frame.size) :
    cmmRxRalinkFrameIndicate granted rx = .ok (if granted then
      [segment (store rx.frame.byte q c.header8023) q (14 + n₁),
        rx.frame.slice (q + 14 + n₁) 14 ++ rx.frame.slice (q + 14 + n₁ + 14) n₂] else []) := by
  have hback : c.pPayload - length8023 = q := by
    rw [hq]
    exact Nat.add_sub_cancel q 14
  have hdata : c.pPayload + n₁ + length8023 = q + 14 + n₁ + 14 := by rw [hq]
  have hwrite : rx.frame.write q c.header8023
      = .ok { rx.frame with byte := store rx.frame.byte q c.header8023 } := if_pos (by omega)
  have hheader2 : rx.frame.read (q + 14 + n₁ + 14 - length8023) length8023
      = .ok (rx.frame.slice (q + 14 + n₁) 14) := read_of_le (by show _ + 14 ≤ _; omega)
  have hdata2 : rx.frame.read (q + 14 + n₁ + 14) n₂
      = .ok (rx.frame.slice (q + 14 + n₁ + 14) n₂) := read_of_le hend
  have hpacket1 : Body.read { rx.frame with byte := store rx.frame.byte q c.header8023 } q
      (length8023 + n₁) = .ok (segment (store rx.frame.byte q c.header8023) q (14 + n₁)) :=
    read_of_le (by show q + (14 + n₁) ≤ rx.frame.size; omega)
  unfold cmmRxRalinkFrameIndicate
  rw [hread]
  show (if _ then _ else _) = _
  rw [if_pos hgo, hconv]
  show (if granted = true then _ else _) = _
  cases granted with
  | false => rfl
  | true =>
      rw [if_pos rfl, if_pos rfl, h₁, h₂, hback, hdata, hheader2]
      show (rx.frame.read _ n₂ >>= _) = _
      rw [hdata2]
      show (rx.frame.write q c.header8023 >>= _) = _
      rw [hwrite]
      show (Body.read _ q (length8023 + n₁) >>= _) = _
      rw [hpacket1]
      rfl

/-- **The split**: two untagged packets as long as an Ethernet frame can be. -/
theorem indicate_relayed {p next : TxPacket} {a : Aggregate} {rx : RxBlk} (granted : Bool)
    (hp : p.Plain) (hpl : p.len ≤ 1514) (hn : next.vlan = false) (hnl : next.len ≤ 1514)
    (ha : staARalinkFrameTx CurrentAddress Bssid [p, next] = some a) (hrx : Relayed a rx) :
    cmmRxRalinkFrameIndicate granted rx
      = .ok (if granted then [asSent CurrentAddress p, next.bytes] else []) := by
  obtain ⟨rfl⟩ : a = _ := (Option.some.inj ha).symm
  have hstart : 24 ≤ rx.pData := hrx.start
  obtain ⟨o, ho⟩ : ∃ o, rx.pData = o + 12 := ⟨rx.pData - 12, by omega⟩
  have hsrc := hp.length_srcBuf
  have hencap := hp.length_encap
  have h14 : 14 ≤ next.len := next.header
  have hnext : nextBufLen next = next.len := by
    unfold nextBufLen
    rw [hn]
    rfl
  have hparts := bodyParts rfl (ho ▸ hrx.body)
  have hlen : (lengthField (nextBufLen next) ++ p.encap ++ p.srcBuf
      ++ [next].flatMap subsequent).length = 10 + p.srcBuf.length + next.len := by
    simp only [List.length_append, hencap, List.flatMap_cons, List.flatMap_nil, List.append_nil,
      subsequent_untagged hn]
    show 2 + 8 + _ + next.len = _
    omega
  have hsize := hrx.size
  have hfits := hrx.fits
  dsimp only at hsize hfits
  rw [hlen] at hsize hfits
  obtain ⟨hremoves, htype⟩ := removes_of_encap hparts.encap hp
  have hmsdu : (msdu2Size (lengthField (nextBufLen next))).toNat = next.len := by
    rw [msdu2Size_lengthField (by omega), hnext]
  obtain ⟨hpay1, hpay2⟩ := payloads_toNat hsize hmsdu h14
  -- the header of the first packet, with the station as its source
  have hda : rx.addresses = (4, 16) := by
    unfold RxBlk.addresses
    rw [hrx.infra, hrx.direct]
    rfl
  obtain ⟨hdr, hhdr⟩ : ∃ hdr,
      hdr = p.bytes.take 6 ++ List.ofFn CurrentAddress ++ (p.bytes.drop 12).take 2 := ⟨_, rfl⟩
  have hhdrlen : hdr.length = 14 := by
    have hfirst : p.bytes.length = p.len := rfl
    simp only [hhdr, List.length_append, List.length_take, List.length_drop, List.length_ofFn]
    omega
  have hconv := (convertTo8023_cases 4 16 (by omega) (by omega) (by omega) (fun _ => by omega)
    (rx.DataSize - 2)).1 hremoves
  rw [hrx.destination, hrx.source, htype, hp.typeOfLen_eq] at hconv
  have hread : rx.frame.read rx.pData 2 = .ok (lengthField (nextBufLen next)) := by
    rw [read_of_le (by omega), ho, hparts.field]
  rw [indicate_of_conv granted hread ⟨by omega, by omega⟩ (c := withoutSnap hdr o (rx.DataSize - 2))
    (by rw [hda, ho, hhdr]; exact hconv) (q := o + 8) rfl hpay1 hpay2 hhdrlen (by omega),
    hparts.second_whole hp hn]
  show Except.ok (if granted = true then [segment (store _ _ hdr) _ _, _] else []) = _
  rw [hparts.first_whole CurrentAddress hp hhdr hhdrlen]

/-- The station's own packets are sent as they are. -/
theorem asSent_own {p : TxPacket} (h : (p.bytes.drop 6).take 6 = List.ofFn CurrentAddress) :
    asSent CurrentAddress p = p.bytes := by
  unfold asSent
  rw [← h, List.append_assoc, ← List.drop_drop (i := 6) (j := 6), List.take_append_drop,
    List.take_append_drop]

/-- **Both packets come through**, in order; the first one with the station as its source. -/
theorem aralink_split {p next : TxPacket} (hp : p.Plain) (hpl : p.len ≤ 1514)
    (hn : next.vlan = false) (hnl : next.len ≤ 1514) :
    ∃ a, staARalinkFrameTx CurrentAddress Bssid [p, next] = some a ∧
      ((p.bytes.drop 6).take 6 = List.ofFn CurrentAddress → asSent CurrentAddress p = p.bytes) ∧
      ∀ rx, Relayed a rx → ∀ granted, cmmRxRalinkFrameIndicate granted rx
        = .ok (if granted then [asSent CurrentAddress p, next.bytes] else []) :=
  ⟨_, rfl, asSent_own CurrentAddress,
    fun _ hrx granted => indicate_relayed CurrentAddress Bssid granted hp hpl hn hnl rfl hrx⟩

/-- A frame from the access point, with this body. -/
def relay (a : Aggregate) : RxBlk where
  frame := bodyOf ([0x08, 0x02, 0, 0] ++ a.header.Addr3 ++ a.header.Addr1 ++ a.header.Addr2
    ++ [0, 0] ++ a.body)
  pData := 24
  DataSize := BitVec.ofNat 16 a.body.length
  infra := true
  dls := false

theorem relayed_relay {a : Aggregate} (h1 : a.header.Addr1.length = 6) (h2 : a.header.Addr2.length = 6)
    (h3 : a.header.Addr3.length = 6) (hbody : a.body.length < 65536) : Relayed a (relay a) := by
  have hall := (holds_bodyOf ([0x08, 0x02, 0, 0] ++ (a.header.Addr3 ++ (a.header.Addr1
    ++ (a.header.Addr2 ++ ([0, 0] ++ a.body)))))).bytes
  have hframe : (relay a).frame = bodyOf ([0x08, 0x02, 0, 0] ++ (a.header.Addr3 ++ (a.header.Addr1
      ++ (a.header.Addr2 ++ ([0, 0] ++ a.body))))) := by
    simp [relay]
  rw [← hframe] at hall
  have hsize : (relay a).frame.size = 24 + a.body.length := by
    rw [hframe]
    simp only [bodyOf, List.length_append, h1, h2, h3]
    show 4 + (6 + (6 + (6 + (2 + _)))) = _
    omega
  obtain ⟨-, hall⟩ := slice_split hall
  obtain ⟨hda, hall⟩ := slice_split hall
  obtain ⟨-, hall⟩ := slice_split hall
  obtain ⟨hsa, hall⟩ := slice_split hall
  obtain ⟨-, hall⟩ := slice_split hall
  rw [h3] at hda hsa hall
  rw [h1, h2] at hsa
  rw [h1, h2] at hall
  exact ⟨rfl, rfl, hda, hsa, Nat.le_refl 24, by
    show (BitVec.ofNat 16 a.body.length).toNat = _
    rw [BitVec.toNat_ofNat]
    exact Nat.mod_eq_of_lt hbody, Nat.le_of_eq hsize.symm, hall⟩

/-- A packet with these addresses. -/
def packetFrom (source : BitVec 8) : TxPacket where
  bytes := List.replicate 6 0 ++ List.replicate 6 source ++ [0x08, 0x00] ++ List.replicate 46 0
  header := by simp [length8023]
  mcast := false
  vlan := false
  dhcp := false
  eapol := false
  wai := false

theorem packetFrom_plain (source : BitVec 8) : (packetFrom source).Plain := by
  refine ⟨rfl, ?_⟩
  show 1500 < beWord [0x08, 0x00]
  decide

theorem aralink_split_own : ∃ a,
    staARalinkFrameTx (.zero 6) (.zero 6) [packetFrom 0, packetFrom 1] = some a ∧
      cmmRxRalinkFrameIndicate true (relay a) = .ok [(packetFrom 0).bytes, (packetFrom 1).bytes] := by
  obtain ⟨a, ha, hown, hall⟩ := aralink_split (.zero 6) (.zero 6) (packetFrom_plain 0)
    (by decide) (show (packetFrom 1).vlan = false from rfl) (by decide)
  refine ⟨a, ha, ?_⟩
  have hrelayed : Relayed a (relay a) := by
    obtain rfl := Option.some.inj ha
    exact relayed_relay rfl rfl rfl (by decide)
  rw [hall _ hrelayed true, hown rfl]
  rfl

/-- **A packet from elsewhere** comes through with the station as its source. -/
theorem aralink_source_lost : ¬ ∀ (CurrentAddress Bssid : Bytes 6) (p next : TxPacket), p.Plain →
    p.len ≤ 1514 → next.vlan = false → next.len ≤ 1514 →
      RoundTrips CurrentAddress Bssid p next := by
  intro h
  obtain ⟨a, ha, hall⟩ := h (.zero 6) (.zero 6) (packetFrom 1) (packetFrom 1) (packetFrom_plain 1)
    (by decide) rfl (by decide)
  have hrelayed : Relayed a (relay a) := by
    obtain rfl := Option.some.inj ha
    exact relayed_relay rfl rfl rfl (by decide)
  have hback := indicate_relayed (.zero 6) (.zero 6) true (packetFrom_plain 1) (by decide) rfl
    (by decide) ha hrelayed
  rw [hall _ hrelayed] at hback
  have hfirst := (List.cons.inj (Except.ok.inj hback)).1
  exact absurd hfirst (by decide)

end ExtDrv.Rt3370.ARalink
