import ExtDrv.Lib.WordHash
import ExtDrv.Rt3370.AmsduTx

/-!
# The Michael MIC

`RTMPTkipSetMICKey`, `RTMPTkipAppend`, `RTMPTkipGetMIC`, `RTMPInitMICEngine`,
`RTMPTkipCompareMICValue` and `RTMPCalculateMICValue` of `common/cmm_tkip.c`, on a
target whose `ULONG` has 32 bits, and what the transmit path sends of a packet:
`RTMPCheckEtherType` (`common/cmm_data.c`) marks a VLAN packet, and
`STA_Fragment_Frame_Tx` (`sta/rtmp_data.c`) strips its tag.
-/

namespace ExtDrv.Rt3370.Tkip

open LittleEndian WordHash Memory

abbrev ULONG := BitVec 32

/-! ## The engine -/

/-- `TKIP_KEY_INFO`, the part the MIC uses. -/
structure TkipKeyInfo where
  nBytesInM : Nat
  K0 : ULONG
  K1 : ULONG
  L : ULONG
  R : ULONG
  M : ULONG
  MIC : List (BitVec 8)

/-- `RTMPTkipGetUInt32`. -/
def rtmpTkipGetUInt32 (pMICKey : List (BitVec 8)) : ULONG :=
  (List.range 4).foldl (fun res i => res ||| (pMICKey.getD i 0).setWidth 32 <<< (8 * i)) 0

/-- `RTMPTkipPutUInt32`, `n` bytes to go. -/
def putBytes : Nat → ULONG → List (BitVec 8)
  | 0, _ => []
  | n + 1, val => (val &&& 0xff).setWidth 8 :: putBytes n (val >>> 8)

def rtmpTkipPutUInt32 (val : ULONG) : List (BitVec 8) := putBytes 4 val

/-- `RTMPTkipSetMICKey`. -/
def rtmpTkipSetMICKey (t : TkipKeyInfo) (pMICKey : List (BitVec 8)) : TkipKeyInfo :=
  let K0 := rtmpTkipGetUInt32 pMICKey
  let K1 := rtmpTkipGetUInt32 (pMICKey.drop 4)
  { t with K0 := K0, K1 := K1, L := K0, R := K1, nBytesInM := 0, M := 0 }

/-- `ROL32`. -/
def rol32 (a : ULONG) (n : Nat) : ULONG := a <<< n ||| (a >>> (32 - n) &&& (1 <<< n - 1))

/-- `ROR32`. -/
def ror32 (a : ULONG) (n : Nat) : ULONG := rol32 a (32 - n)

/-- The bytes of both halves, exchanged. -/
def swapBytes (a : ULONG) : ULONG := (a &&& 0xff00ff00) >>> 8 ||| (a &&& 0x00ff00ff) <<< 8

/-- `RTMPTkipAppendByte`. -/
def rtmpTkipAppendByte (t : TkipKeyInfo) (uChar : BitVec 8) : TkipKeyInfo :=
  -- append the byte to our word-sized buffer
  let M := t.M ||| uChar.setWidth 32 <<< (8 * t.nBytesInM)
  let nBytesInM := t.nBytesInM + 1
  -- process the word if it is full
  if 4 ≤ nBytesInM then
    let L := t.L ^^^ M
    let R := t.R ^^^ rol32 L 17
    let L := L + R
    let R := R ^^^ swapBytes L
    let L := L + R
    let R := R ^^^ rol32 L 3
    let L := L + R
    let R := R ^^^ ror32 L 2
    let L := L + R
    { t with L := L, R := R, M := 0, nBytesInM := 0 }
  else { t with M := M, nBytesInM := nBytesInM }

/-- `RTMPTkipAppend`. -/
def rtmpTkipAppend (t : TkipKeyInfo) (src : List (BitVec 8)) : TkipKeyInfo :=
  src.foldl rtmpTkipAppendByte t

theorem nBytesInM_appendByte (t : TkipKeyInfo) (b : BitVec 8) :
    (rtmpTkipAppendByte t b).nBytesInM = if 4 ≤ t.nBytesInM + 1 then 0 else t.nBytesInM + 1 := by
  rw [rtmpTkipAppendByte]
  split_ifs <;> rfl

/-- The zeroes at the end of `RTMPTkipGetMIC`. -/
def appendZeroes (t : TkipKeyInfo) : TkipKeyInfo :=
  if t.nBytesInM = 0 then t else appendZeroes (rtmpTkipAppendByte t 0)
  termination_by if t.nBytesInM = 0 then 0 else 5 - min t.nBytesInM 4
  decreasing_by
    rw [nBytesInM_appendByte]
    split_ifs <;> omega

/-- `RTMPTkipGetMIC`. -/
def rtmpTkipGetMIC (t : TkipKeyInfo) : TkipKeyInfo :=
  let t := appendZeroes (rtmpTkipAppend t [0x5a, 0, 0, 0, 0])
  { t with MIC := rtmpTkipPutUInt32 t.L ++ rtmpTkipPutUInt32 t.R }

/-- `RTMPInitMICEngine`. -/
def rtmpInitMICEngine (t : TkipKeyInfo) (pDA pSA : List (BitVec 8)) (userPriority : BitVec 8)
    (pMICKey : List (BitVec 8)) : TkipKeyInfo :=
  let t := rtmpTkipSetMICKey t pMICKey
  let t := rtmpTkipAppend t (pDA.take macAddrLen)
  let t := rtmpTkipAppend t (pSA.take macAddrLen)
  rtmpTkipAppend t [userPriority, 0, 0, 0]

/-- `RTMPTkipCompareMICValue`: `pSrc` holds the plain text, and the MIC behind it. -/
def rtmpTkipCompareMICValue (rx : TkipKeyInfo) (pSrc pDA pSA pMICKey : List (BitVec 8))
    (userPriority : BitVec 8) (len : Nat) : TkipKeyInfo × Bool :=
  let t := rtmpTkipSetMICKey rx pMICKey
  let t := rtmpTkipAppend t (pDA.take macAddrLen)
  let t := rtmpTkipAppend t (pSA.take macAddrLen)
  let t := rtmpTkipAppend t [userPriority, 0, 0, 0]
  let t := rtmpTkipAppend t (pSrc.take len)
  let oldMic := (pSrc.drop len).take 8
  let t := rtmpTkipGetMIC t
  (t, t.MIC == oldMic)

/-! ## A packet -/

/-- The big-endian number at `o`. -/
def typeAt (buf : Mem) (o : Nat) : Nat := (buf o).toNat * 256 + (buf (o + 1)).toNat

/-- The packet is in 802.3 format, with an LLC/SNAP header. -/
def llcSnap (buf : Mem) : Prop :=
  typeAt buf 12 ≤ 1500 ∧ buf 14 = 0xaa ∧ buf 15 = 0xaa ∧ buf 16 = 0x03

instance (buf : Mem) : Decidable (llcSnap buf) := inferInstanceAs (Decidable (_ ∧ _ ∧ _ ∧ _))

/-- `RTMP_GET_PACKET_VLAN`, as `RTMPCheckEtherType` leaves it. -/
def packetVlan (buf : Mem) : Bool :=
  let typeLen := if llcSnap buf then typeAt buf 20 else typeAt buf 12
  typeLen == 0x8100

/-- `RTMPCalculateMICValue`, the packet taken as its buffer and length. -/
def rtmpCalculateMICValue (tx : TkipKeyInfo) (pSrc : Mem) (srcBufLen : BitVec 32)
    (userPriority : BitVec 8) (pEncap : Option (List (BitVec 8))) (txMic : List (BitVec 8)) :
    TkipKeyInfo :=
  -- determine if this is a vlan packet
  let vlanOffset := if typeAt pSrc 12 = 0x8100 then 4 else 0
  let t := rtmpInitMICEngine tx (segment pSrc 0 6) (segment pSrc 6 6) userPriority txMic
  let t := match pEncap with
    | some encap =>
        rtmpTkipAppend (rtmpTkipAppend t (encap.take 6)) (segment pSrc (12 + vlanOffset) 2)
    | none => t
  let srcBufLen := srcBufLen - BitVec.ofNat 32 (14 + vlanOffset)
  let t := if 0 < srcBufLen.toNat then
      rtmpTkipAppend t (segment pSrc (14 + vlanOffset) srcBufLen.toNat)
    else t
  rtmpTkipGetMIC t

/-- An Ethernet packet of `len` bytes in its buffer: it holds its header, and the tag
it is marked for. -/
structure EthPacket where
  buf : Mem
  len : BitVec 32
  header : length8023 ≤ len.toNat
  tag : packetVlan buf = true → length8023 + 4 ≤ len.toNat

namespace EthPacket

variable (p : EthPacket)

def da : List (BitVec 8) := segment p.buf 0 6
def sa : List (BitVec 8) := segment p.buf 6 6

/-- `bVLANPkt ? LENGTH_802_1Q : 0`. -/
def vlanSize : Nat := if packetVlan p.buf then 4 else 0

/-- `EXTRA_LLCSNAP_ENCAP_FROM_PKT_START`. -/
def pExtraLlcSnapEncap : Option (List (BitVec 8)) := extraLlcSnapEncap (segment p.buf 12 2)

/-- `pSrcBufData`, `SrcBufLen` bytes. -/
def srcBufData : List (BitVec 8) :=
  segment p.buf (length8023 + p.vlanSize)
    (p.len - BitVec.ofNat 32 length8023 - BitVec.ofNat 32 p.vlanSize).toNat

/-- The payload `STA_Fragment_Frame_Tx` sends: encapsulation, type and data. -/
def sent : List (BitVec 8) :=
  match p.pExtraLlcSnapEncap with
  | some encap => encap ++ segment p.buf (12 + p.vlanSize) 2 ++ p.srcBufData
  | none => p.srcBufData

/-- The sender's engine when it is done. -/
def sender (tx : TkipKeyInfo) (userPriority : BitVec 8) (micKey : List (BitVec 8)) : TkipKeyInfo :=
  rtmpCalculateMICValue tx p.buf p.len userPriority p.pExtraLlcSnapEncap micKey

/-- What the two first hash: addresses and priority. -/
def front (userPriority : BitVec 8) : List (BitVec 8) := p.da ++ p.sa ++ [userPriority, 0, 0, 0]

/-- Whatever the key, the priority and the two engines have seen before, the sender's MIC is
the one of the addresses, the priority and the payload as it is sent, in whatever pieces
these come, and the receiver accepts the payload with that MIC. -/
def MicAgrees : Prop :=
  ∀ (tx rx : TkipKeyInfo) (userPriority : BitVec 8) (micKey : List (BitVec 8))
    (pieces : List (List (BitVec 8))), pieces.flatten = p.front userPriority ++ p.sent →
      let mic := (p.sender tx userPriority micKey).MIC
      (rtmpTkipGetMIC (pieces.foldl rtmpTkipAppend (rtmpTkipSetMICKey rx micKey))).MIC = mic ∧
        (rtmpTkipCompareMICValue rx (p.sent ++ mic) p.da p.sa micKey userPriority
          p.sent.length).2 = true

/-- The packet is in 802.3 format, and the type in its SNAP header is that of a VLAN tag. -/
def TaggedInSnap : Prop := llcSnap p.buf ∧ typeAt p.buf 20 = 0x8100

instance : Decidable p.TaggedInSnap := inferInstanceAs (Decidable (_ ∧ _))

end EthPacket

/-! ## The engine hashes words -/

/-- The block function of Michael. -/
def block (s : ULONG × ULONG) (w : ULONG) : ULONG × ULONG :=
  mix (fun l => ror32 l 2) (mix (fun l => rol32 l 3) (mix swapBytes
    (mix (fun l => rol32 l 17) (s.1 ^^^ w, s.2))))

theorem block_bijective (w : ULONG) : Function.Bijective fun s => block s w :=
  (mix_bijective _).comp <| (mix_bijective _).comp <| (mix_bijective _).comp <|
    (mix_bijective _).comp (xor_bijective w)

/-- A word that is not zero moves the state it cancels. -/
theorem block_ne {w : ULONG} (h : w ≠ 0) : block (w, 0) w ≠ (w, 0) := by
  have hzero : block (w, 0) w = (0, 0) := by
    simp only [block, BitVec.xor_self]
    decide
  rw [hzero]
  intro he
  exact h (congrArg Prod.fst he).symm

/-- The padding: what `RTMPTkipGetMIC` appends to `n` bytes. -/
def padding (n : Nat) : List (BitVec 8) :=
  [0x5a, 0, 0, 0, 0] ++ List.replicate ((4 - (n + 5) % 4) % 4) 0

/-- Michael, of the two words of the key and a message. -/
def michael (key : ULONG × ULONG) (msg : List (BitVec 8)) : ULONG × ULONG :=
  hash block key (msg ++ padding msg.length)

theorem length_padding (n : Nat) : 4 ∣ n + (padding n).length := by
  simp only [padding, List.length_append, List.length_cons, List.length_nil, List.length_replicate]
  omega

/-- The engine's buffer. -/
def TkipKeyInfo.buffer (t : TkipKeyInfo) : Buffer (ULONG × ULONG) :=
  ⟨(t.L, t.R), t.M, t.nBytesInM⟩

theorem buffer_appendByte (t : TkipKeyInfo) (b : BitVec 8) :
    (rtmpTkipAppendByte t b).buffer = push block t.buffer b := by
  by_cases h : 4 ≤ t.nBytesInM + 1
  · have hpush : push block t.buffer b = ⟨block (t.L, t.R)
        (t.M ||| b.setWidth 32 <<< (8 * t.nBytesInM)), 0, 0⟩ := if_pos h
    rw [hpush]
    exact congrArg TkipKeyInfo.buffer (if_pos h)
  · have hpush : push block t.buffer b = ⟨(t.L, t.R),
        t.M ||| b.setWidth 32 <<< (8 * t.nBytesInM), t.nBytesInM + 1⟩ := if_neg h
    rw [hpush]
    exact congrArg TkipKeyInfo.buffer (if_neg h)

theorem buffer_append (t : TkipKeyInfo) (bs : List (BitVec 8)) :
    (rtmpTkipAppend t bs).buffer = bs.foldl (push block) t.buffer := by
  induction bs generalizing t with
  | nil => rfl
  | cons b bs ih => exact (ih _).trans (by rw [buffer_appendByte]; rfl)

theorem append_append (t : TkipKeyInfo) (bs cs : List (BitVec 8)) :
    rtmpTkipAppend (rtmpTkipAppend t bs) cs = rtmpTkipAppend t (bs ++ cs) :=
  List.foldl_append.symm

/-- **Splitting**: the pieces a message is appended in do not matter. -/
theorem foldl_rtmpTkipAppend (pieces : List (List (BitVec 8))) (t : TkipKeyInfo) :
    pieces.foldl rtmpTkipAppend t = rtmpTkipAppend t pieces.flatten := by
  induction pieces generalizing t with
  | nil => rfl
  | cons piece pieces ih => rw [List.foldl_cons, ih, append_append, List.flatten_cons]

theorem nBytesInM_append (t : TkipKeyInfo) (bs : List (BitVec 8)) (h : t.nBytesInM < 4) :
    (rtmpTkipAppend t bs).nBytesInM = (t.nBytesInM + bs.length) % 4 := by
  induction bs generalizing t with
  | nil => exact (Nat.mod_eq_of_lt h).symm
  | cons b bs ih =>
    have hn := nBytesInM_appendByte t b
    show (rtmpTkipAppend (rtmpTkipAppendByte t b) bs).nBytesInM = _
    rw [ih _ (by rw [hn]; split_ifs <;> omega), hn, List.length_cons]
    split_ifs <;> omega

theorem appendZeroes_eq (t : TkipKeyInfo) (h : t.nBytesInM < 4) :
    appendZeroes t = rtmpTkipAppend t (List.replicate ((4 - t.nBytesInM) % 4) 0) := by
  induction t using appendZeroes.induct with
  | case1 t h0 =>
    rw [appendZeroes, if_pos h0, h0]
    rfl
  | case2 t h0 ih =>
    have hn := nBytesInM_appendByte t 0
    rw [appendZeroes, if_neg h0, ih (by rw [hn]; split_ifs <;> omega)]
    have hcount : (4 - t.nBytesInM) % 4 = (4 - (rtmpTkipAppendByte t 0).nBytesInM) % 4 + 1 := by
      rw [hn]
      split_ifs <;> omega
    rw [hcount, List.replicate_succ]
    rfl

/-- **The engine is Michael**: of whatever was appended since the key was set. -/
theorem getMIC_MIC (t : TkipKeyInfo) (micKey msg : List (BitVec 8)) :
    (rtmpTkipGetMIC (rtmpTkipAppend (rtmpTkipSetMICKey t micKey) msg)).MIC =
      let s := michael (rtmpTkipGetUInt32 micKey, rtmpTkipGetUInt32 (micKey.drop 4)) msg
      rtmpTkipPutUInt32 s.1 ++ rtmpTkipPutUInt32 s.2 := by
  let start := rtmpTkipSetMICKey t micKey
  let padded := rtmpTkipAppend start (msg ++ [0x5a, 0, 0, 0, 0])
  have hn : padded.nBytesInM = (msg.length + 5) % 4 := by
    have h := nBytesInM_append start (msg ++ [0x5a, 0, 0, 0, 0]) (Nat.zero_lt_succ 3)
    rw [List.length_append] at h
    exact h.trans (by rw [show start.nBytesInM = 0 from rfl, Nat.zero_add]; rfl)
  have hzeroes : appendZeroes (rtmpTkipAppend (rtmpTkipAppend start msg) [0x5a, 0, 0, 0, 0])
      = rtmpTkipAppend start (msg ++ padding msg.length) := by
    rw [append_append, appendZeroes_eq _ (by rw [hn]; exact Nat.mod_lt _ (by decide)), hn,
      append_append, padding, List.append_assoc]
  obtain ⟨n, hwords⟩ := length_padding msg.length
  have hbuffer : (rtmpTkipAppend start (msg ++ padding msg.length)).buffer
      = ⟨michael (start.L, start.R) msg, 0, 0⟩ := by
    rw [buffer_append]
    exact foldl_push block (by rw [List.length_append, hwords]) (start.L, start.R)
  have hstate := congrArg Buffer.state hbuffer
  rw [rtmpTkipGetMIC, hzeroes]
  exact congrArg (fun s : ULONG × ULONG => rtmpTkipPutUInt32 s.1 ++ rtmpTkipPutUInt32 s.2) hstate

/-! ## Words and bytes -/

theorem rtmpTkipPutUInt32_eq (w : ULONG) : rtmpTkipPutUInt32 w = leBytes w := by
  have hmask : ∀ v : ULONG, (v &&& 0xff).setWidth 8 = v.setWidth 8 := by
    intro v
    apply BitVec.eq_of_toNat_eq
    rw [BitVec.toNat_setWidth, BitVec.toNat_setWidth, BitVec.toNat_and]
    show (v.toNat &&& (2 ^ 8 - 1)) % 2 ^ 8 = _
    rw [Nat.and_two_pow_sub_one_eq_mod, Nat.mod_mod]
  simp only [rtmpTkipPutUInt32, putBytes, hmask, leBytes, ← BitVec.shiftRight_add, Nat.reduceAdd]

theorem rtmpTkipGetUInt32_leBytes (w : ULONG) (rest : List (BitVec 8)) :
    rtmpTkipGetUInt32 (leBytes w ++ rest) = w :=
  (or_bytes _ _ _ _).trans (leWord_leBytes w)

theorem putUInt32_inj {s s' : ULONG × ULONG}
    (h : rtmpTkipPutUInt32 s.1 ++ rtmpTkipPutUInt32 s.2
      = rtmpTkipPutUInt32 s'.1 ++ rtmpTkipPutUInt32 s'.2) : s = s' := by
  have hinj : ∀ {v w : ULONG}, rtmpTkipPutUInt32 v = rtmpTkipPutUInt32 w → v = w := by
    intro v w hvw
    rw [rtmpTkipPutUInt32_eq, rtmpTkipPutUInt32_eq] at hvw
    rw [← leWord_leBytes v, hvw, leWord_leBytes]
  obtain ⟨h1, h2⟩ := List.append_inj h rfl
  exact Prod.ext (hinj h1) (hinj h2)

/-! ## Sender and receiver -/

namespace EthPacket

variable (p : EthPacket)

/-- What the sender hashes behind addresses and priority. -/
def covered : List (BitVec 8) :=
  let vlanOffset := if typeAt p.buf 12 = 0x8100 then 4 else 0
  let data := segment p.buf (14 + vlanOffset) (p.len - BitVec.ofNat 32 (14 + vlanOffset)).toNat
  match p.pExtraLlcSnapEncap with
  | some encap => encap.take 6 ++ segment p.buf (12 + vlanOffset) 2 ++ data
  | none => data

theorem append_if_pos (t : TkipKeyInfo) (m : Mem) (o n : Nat) :
    (if 0 < n then rtmpTkipAppend t (segment m o n) else t) = rtmpTkipAppend t (segment m o n) := by
  split_ifs with h
  · rfl
  · rw [Nat.eq_zero_of_not_pos h]
    rfl

theorem initMICEngine_eq (t : TkipKeyInfo) (up : BitVec 8) (micKey : List (BitVec 8)) :
    rtmpInitMICEngine t p.da p.sa up micKey
      = rtmpTkipAppend (rtmpTkipSetMICKey t micKey) (p.front up) := by
  rw [rtmpInitMICEngine, append_append, append_append]
  rfl

theorem sender_MIC (tx : TkipKeyInfo) (up : BitVec 8) (micKey : List (BitVec 8)) :
    (p.sender tx up micKey).MIC = (rtmpTkipGetMIC (rtmpTkipAppend (rtmpTkipSetMICKey tx micKey)
      (p.front up ++ p.covered))).MIC := by
  have hinit := p.initMICEngine_eq tx up micKey
  simp only [sender, rtmpCalculateMICValue, covered, append_if_pos]
  rw [← append_append, ← hinit]
  cases p.pExtraLlcSnapEncap with
  | none => rfl
  | some encap =>
    simp only [append_append]
    rfl

theorem compare_MIC (rx : TkipKeyInfo) (up : BitVec 8) (micKey mic : List (BitVec 8))
    (hmic : mic.length = 8) :
    (rtmpTkipCompareMICValue rx (p.sent ++ mic) p.da p.sa micKey up p.sent.length).2 = true ↔
      (rtmpTkipGetMIC (rtmpTkipAppend (rtmpTkipSetMICKey rx micKey) (p.front up ++ p.sent))).MIC
        = mic := by
  have hinit := p.initMICEngine_eq rx up micKey
  have hold : ((p.sent ++ mic).drop p.sent.length).take 8 = mic := by
    rw [List.drop_left, List.take_of_length_le (Nat.le_of_eq hmic)]
  rw [← append_append, ← hinit, ← beq_iff_eq (α := List (BitVec 8))]
  simp only [rtmpTkipCompareMICValue, hold, List.take_left]
  rfl

/-! ### Which tag is stripped -/

theorem packetVlan_iff :
    packetVlan p.buf = true ↔ typeAt p.buf 12 = 0x8100 ∨ p.TaggedInSnap := by
  by_cases h : llcSnap p.buf
  · have h12 : typeAt p.buf 12 ≠ 0x8100 := by
      have := h.1
      omega
    simp [packetVlan, TaggedInSnap, h, h12]
  · simp [packetVlan, TaggedInSnap, h]

theorem sent_eq_covered (h : ¬ p.TaggedInSnap) : p.sent = p.covered := by
  have hvlan : (if typeAt p.buf 12 = 0x8100 then 4 else 0) = p.vlanSize := by
    have hiff := p.packetVlan_iff
    rw [or_iff_left h] at hiff
    simp only [vlanSize, hiff]
  have hlen : p.len - BitVec.ofNat 32 length8023 - BitVec.ofNat 32 p.vlanSize
      = p.len - BitVec.ofNat 32 (14 + p.vlanSize) := by
    rw [BitVec.ofNat_add, sub_sub]
  have hsnap : ∀ encap, p.pExtraLlcSnapEncap = some encap → encap.take 6 = encap := by
    intro encap he
    simp only [pExtraLlcSnapEncap, extraLlcSnapEncap] at he
    split_ifs at he
    all_goals
      cases he
      rfl
  simp only [sent, covered, hvlan, srcBufData, hlen]
  cases he : p.pExtraLlcSnapEncap with
  | none => rfl
  | some encap => simp only [hsnap encap he]

/-- A tag in the SNAP header is stripped, and hashed. -/
theorem covered_eq (h : p.TaggedInSnap) : p.covered = segment p.buf 14 4 ++ p.sent := by
  have hvlan : packetVlan p.buf = true := p.packetVlan_iff.mpr (.inr h)
  have hlen : 18 ≤ p.len.toNat := p.tag hvlan
  have h12 : typeAt p.buf 12 ≤ 1500 := h.1.1
  have hsnap : p.pExtraLlcSnapEncap = none := if_neg (Nat.not_lt.mpr h12)
  have hsize : p.vlanSize = 4 := if_pos hvlan
  have hsent : p.sent = segment p.buf 18 (p.len.toNat - 18) := by
    simp only [sent, hsnap, srcBufData, hsize, length8023]
    congr 1
    bv_omega
  have hcovered : p.covered = segment p.buf 14 (4 + (p.len.toNat - 18)) := by
    simp only [covered, hsnap, if_neg (show typeAt p.buf 12 ≠ 0x8100 by omega)]
    congr 1
    bv_omega
  rw [hcovered, hsent, segment_add]

theorem exists_michael_ne (h : p.TaggedInSnap) (up : BitVec 8) :
    ∃ key, michael key (p.front up ++ p.covered) ≠ michael key (p.front up ++ p.sent) := by
  have hword : leWord (segment p.buf 14 4) ≠ 0 := by
    intro h0
    have h14 := congrArg BitVec.toNat h0
    rw [leWord, toNat_append, show (segment p.buf 14 4).getD 0 0 = 0xaa from h.1.2.1] at h14
    have hle : (0xaa#8).toNat ≤ (0#32).toNat := Nat.le.intro ((Nat.add_comm _ _).trans h14)
    exact absurd hle (by decide)
  have hfront : (p.front up).length = 4 * 4 := rfl
  have hlen : (p.front up ++ p.covered).length = (p.front up ++ p.sent).length + 4 := by
    rw [p.covered_eq h]
    simp only [List.length_append, length_segment]
    omega
  have hpad : padding (p.front up ++ p.covered).length
      = padding (p.front up ++ p.sent).length := by
    have hmod (n : Nat) : (n + 4 + 5) % 4 = (n + 5) % 4 := by omega
    rw [hlen, padding, padding, hmod]
  obtain ⟨k, hk⟩ := length_padding (p.front up ++ p.sent).length
  have htail : (p.sent ++ padding (p.front up ++ p.sent).length).length = 4 * (k - 4) := by
    simp only [List.length_append, hfront] at hk ⊢
    omega
  obtain ⟨key, hne⟩ := exists_hash_ne block_bijective hfront (length_segment p.buf 14 4) htail
    (block_ne hword)
  refine ⟨key, ?_⟩
  rw [michael, michael, hpad, p.covered_eq h]
  simpa only [List.append_assoc] using hne

/-! ### Agreement -/

theorem micAgrees_of (h : ¬ p.TaggedInSnap) : p.MicAgrees := by
  intro tx rx up micKey pieces hpieces
  have hmic : (p.sender tx up micKey).MIC = (rtmpTkipGetMIC (rtmpTkipAppend
      (rtmpTkipSetMICKey rx micKey) (p.front up ++ p.sent))).MIC := by
    rw [sender_MIC, getMIC_MIC, getMIC_MIC, p.sent_eq_covered h]
  constructor
  · rw [foldl_rtmpTkipAppend, hpieces]
    exact hmic.symm
  · have hlen : (p.sender tx up micKey).MIC.length = 8 := by
      rw [hmic, getMIC_MIC]
      rfl
    exact (p.compare_MIC rx up micKey _ hlen).mpr hmic.symm

theorem not_micAgrees (h : p.TaggedInSnap) : ¬ p.MicAgrees := by
  intro hagree
  obtain ⟨key, hne⟩ := p.exists_michael_ne h 0
  let t : TkipKeyInfo := ⟨0, 0, 0, 0, 0, 0, []⟩
  have hmic := (hagree t t 0 (leBytes key.1 ++ leBytes key.2) [p.front 0 ++ p.sent]
    (List.append_nil _)).1
  have hkey : rtmpTkipGetUInt32 ((leBytes key.1 ++ leBytes key.2).drop 4) = key.2 := by
    have h2 := rtmpTkipGetUInt32_leBytes key.2 []
    rwa [List.append_nil] at h2
  rw [sender_MIC, foldl_rtmpTkipAppend, List.flatten_singleton, getMIC_MIC, getMIC_MIC,
    rtmpTkipGetUInt32_leBytes, hkey] at hmic
  exact hne (putUInt32_inj hmic).symm

/-- **MIC agreement**: the two sides agree on exactly the packets that bring no VLAN type in
a SNAP header. -/
theorem micAgrees_iff : p.MicAgrees ↔ ¬ p.TaggedInSnap := by
  constructor
  · intro hagree h
    exact p.not_micAgrees h hagree
  · exact p.micAgrees_of

/-- A packet of 60 bytes in 802.3 format, a VLAN tag behind its SNAP header. -/
def snapTagged : EthPacket where
  buf i := [0x00, 0x2e, 0xaa, 0xaa, 0x03, 0x00, 0x00, 0x00, 0x81, 0x00].getD (i - 12) 0
  len := 60
  header := by decide
  tag _ := by decide

theorem snapTagged_broken : ¬ snapTagged.MicAgrees :=
  snapTagged.not_micAgrees (by decide)

end EthPacket

end ExtDrv.Rt3370.Tkip
