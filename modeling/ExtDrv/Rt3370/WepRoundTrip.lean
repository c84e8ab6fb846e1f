import ExtDrv.Rt3370.Wep

/-!
# What was enciphered comes back

The table computes the 32-bit check, the cipher lays one key stream over both texts,
and a byte is read before its place is written. So a payload that was enciphered is
deciphered to itself, and a text is taken only with its own check behind it.
-/

namespace ExtDrv.Rt3370.Wep

open Memory Arc4 LittleEndian
open Ccm hiding Byte
open Crc32 (crc32 divides take take_eq)

/-! ## The check -/

theorem fcsTab32_eq :
    fcsTab32 = (List.range 256).map fun i => divides 8 (BitVec.ofNat 32 i) := by
  decide +kernel

theorem getD_fcsTab32 {w : BitVec 32} (h : w.toNat < 256) :
    fcsTab32.getD w.toNat 0 = divides 8 w := by
  rw [fcsTab32_eq, List.getD_eq_getElem?_getD, List.getElem?_map, List.getElem?_range h,
    Option.map_some, Option.getD_some, BitVec.ofNat_toNat, BitVec.setWidth_eq]

theorem toNat_and_ff (w : BitVec 32) : (w &&& 0xff#32).toNat < 256 := by
  rw [BitVec.toNat_and]
  exact Nat.lt_of_le_of_lt Nat.and_le_right (by decide)

theorem rtmpCalcFcs32_eq (fcs : BitVec 32) (cp : List Byte) :
    rtmpCalcFcs32 fcs cp = cp.foldl take fcs := by
  have hstep : (fun (fcs : BitVec 32) (b : Byte) =>
      (fcs >>> 8) ^^^ fcsTab32.getD ((fcs ^^^ b.setWidth 32) &&& 0xff#32).toNat 0) = take := by
    funext fcs b
    rw [getD_fcsTab32 (toNat_and_ff _), take_eq]
  rw [rtmpCalcFcs32, hstep]

/-- **The check** that the routines compute is the 32-bit one. -/
theorem calcFcs32_crc32 (cp : List Byte) :
    rtmpCalcFcs32 pppInitFcs32 cp ^^^ 0xffffffff#32 = crc32 cp := by
  rw [rtmpCalcFcs32_eq, crc32, pppInitFcs32]

/-! ## The cipher -/

/-- The context after some turns. -/
def turned (ctx : Arc4Ctx) : Nat → Arc4Ctx
  | 0 => ctx
  | i + 1 => (turned ctx i).turn.1

/-- The key stream of a context. -/
def keyStream (ctx : Arc4Ctx) (i : Nat) : Byte := keyByte (turned ctx i)

/-- **The loop** lays the key stream over what is left of the text. -/
theorem arc4Loop_ciphered {ctx : Arc4Ctx} {m : Mem} {src dst turns i : Nat} {t : Tape}
    (hle : dst ≤ src ∨ src + (i + turns) ≤ dst)
    (h : Ciphered m t.mem src dst (keyStream ctx) i) :
    Ciphered m (arc4Loop src dst turns i (turned ctx i) t).mem src dst (keyStream ctx)
      (i + turns) := by
  induction turns generalizing i t with
  | zero => exact h
  | succ turns ih =>
    have hnext : i + (turns + 1) = i + 1 + turns := by omega
    rw [arc4Loop, hnext]
    exact ih (by omega) (h.succ (by omega))

theorem arc4ComputeAt_ciphered (ctx : Arc4Ctx) {src dst n : Nat}
    (hle : dst ≤ src ∨ src + n ≤ dst) (t : Tape) :
    Ciphered t.mem (arc4ComputeAt ctx src n dst t).mem src dst (keyStream ctx) n := by
  have h : Ciphered t.mem (arc4Loop src dst n 0 (turned ctx 0) t).mem src dst (keyStream ctx)
      (0 + n) := arc4Loop_ciphered (by omega) (Ciphered.zero t.mem src dst (keyStream ctx))
  rwa [Nat.zero_add] at h

/-- What the loop touches: a byte of the text, then its place. -/
def loopTouches (src dst i : Nat) : Nat → List Touch
  | 0 => []
  | turns + 1 => .read (src + i) :: .write (dst + i) :: loopTouches src dst (i + 1) turns

theorem arc4Loop_log (src dst turns i : Nat) (ctx : Arc4Ctx) (t : Tape) :
    (arc4Loop src dst turns i ctx t).log = t.log ++ loopTouches src dst i turns := by
  induction turns generalizing i ctx t with
  | zero => exact (List.append_nil _).symm
  | succ turns ih =>
    rw [arc4Loop, ih, Tape.move_log, List.append_assoc]
    rfl

theorem arc4ComputeAt_log (ctx : Arc4Ctx) (src n dst : Nat) (t : Tape) :
    (arc4ComputeAt ctx src n dst t).log = t.log ++ loopTouches src dst 0 n :=
  arc4Loop_log src dst n 0 ctx t

/-- The loop reads from its index on. -/
theorem read_mem_loopTouches {src dst i turns a : Nat}
    (h : .read a ∈ loopTouches src dst i turns) : src + i ≤ a := by
  induction turns generalizing i with
  | zero => exact absurd h List.not_mem_nil
  | succ turns ih =>
    simp only [loopTouches, List.mem_cons, Touch.read.injEq, reduceCtorEq, false_or] at h
    rcases h with rfl | h
    · exact le_rfl
    · exact Nat.le_of_succ_le (ih h)

/-- **No byte is read after it was written**, where the destination is not ahead of the source. -/
theorem loopTouches_readsFirst {src dst : Nat} (hle : dst ≤ src) (i turns : Nat) :
    ReadsFirst (loopTouches src dst i turns) := by
  induction turns generalizing i with
  | zero => exact List.Pairwise.nil
  | succ turns ih =>
    refine List.pairwise_cons.mpr ⟨fun _ _ _ ha => Touch.noConfusion ha, ?_⟩
    refine List.pairwise_cons.mpr ⟨?_, ih (i + 1)⟩
    rintro y hy a ha rfl
    have hread := read_mem_loopTouches hy
    injection ha with ha
    omega

/-! ## The routines -/

/-- The context of `RTMPInitWepEngine`, once the seed is allocated. -/
def seeded (iv : List Byte) (pKey : CipherKey) : Arc4Ctx := arc4Init (iv ++ keyBytes pKey)

/-- The body of a sender's frame: the payload and its check under the key stream. -/
def sealedText (iv : List Byte) (pKey : CipherKey) (payload : List Byte) : List Byte :=
  xorStream (keyStream (seeded iv pKey)) (payload ++ leBytes (crc32 payload))

/-- **`RTMPSoftEncryptWEP`** puts the check behind the payload and enciphers both. -/
theorem rtmpSoftEncryptWep_seals {ctx : Arc4Ctx} {pIvHdr pData : Nat} {pKey : CipherKey}
    (hkey : pKey.KeyLen ≠ 0) {n : BitVec 32} (hn : n.toNat + lenIcv < 2 ^ 32) (t : Tape) :
    (rtmpSoftEncryptWep ⟨some ctx, true⟩ pIvHdr pKey pData n t).1 = true ∧
      segment (rtmpSoftEncryptWep ⟨some ctx, true⟩ pIvHdr pKey pData n t).2.mem pData
          (n.toNat + lenIcv)
        = sealedText (segment t.mem pIvHdr 3) pKey (segment t.mem pData n.toNat) := by
  have hlen : (n + BitVec.ofNat 32 lenIcv).toNat = n.toNat + lenIcv := by
    rw [BitVec.toNat_add, BitVec.toNat_ofNat, Nat.add_mod_mod, Nat.mod_eq_of_lt hn]
  have hrun : rtmpSoftEncryptWep ⟨some ctx, true⟩ pIvHdr pKey pData n t
      = (true, arc4ComputeAt (seeded (segment t.mem pIvHdr 3) pKey) pData (n.toNat + lenIcv) pData
        (((t.note (Tape.reads pIvHdr 3)).note (Tape.reads pData n.toNat)).write (pData + n.toNat)
          (leBytes (crc32 (segment t.mem pData n.toNat))))) := by
    rw [rtmpSoftEncryptWep]
    simp only [if_neg hkey, rtmpInitWepEngine, if_true, Tape.read_fst, Tape.read_snd,
      Tape.note_mem, calcFcs32_crc32, hlen]
    rfl
  rw [hrun]
  refine ⟨rfl, ?_⟩
  have htext := arc4ComputeAt_ciphered (seeded (segment t.mem pIvHdr 3) pKey)
    (n := n.toNat + lenIcv) (.inl (le_refl pData))
    (((t.note (Tape.reads pIvHdr 3)).note (Tape.reads pData n.toNat)).write
      (pData + n.toNat) (leBytes (crc32 (segment t.mem pData n.toNat))))
  rw [htext.segment, sealedText, Tape.write_mem, Tape.note_mem, Tape.note_mem]
  exact congrArg _ (segment_store_behind t.mem pData n.toNat
    (leBytes (crc32 (segment t.mem pData n.toNat))))

/-- The text of a received body, where its header was. -/
def openedTape (os : Allocated) (ctx : Arc4Ctx) (pKey : CipherKey) (pData : Nat)
    (dataByteCnt : BitVec 16) (t : Tape) : Tape :=
  arc4ComputeAt (rtmpInitWepEngine os.seed pData pKey ctx t).1 (pData + lenWepIvHdr)
    (dataByteCnt - BitVec.ofNat 16 lenWepIvHdr).toNat pData
    (rtmpInitWepEngine os.seed pData pKey ctx t).2

/-- `RTMPSoftDecryptWEP` compares the bytes behind the text with its check. -/
theorem rtmpSoftDecryptWep_eq {os : Allocated} {ctx : Arc4Ctx} (hctx : os.ctx = some ctx)
    {pKey : CipherKey} (hkey : pKey.KeyLen ≠ 0) (pData : Nat) (cnt : BitVec 16) (t : Tape)
    {opened : Tape} (hopened : openedTape os ctx pKey pData cnt t = opened) {len : BitVec 16}
    (hlen : cnt - BitVec.ofNat 16 lenWepIvHdr - BitVec.ofNat 16 lenIcv = len) :
    rtmpSoftDecryptWep os pKey pData cnt t
      = if crc32 (segment opened.mem pData len.toNat)
          = leWord (segment opened.mem (pData + len.toNat) lenIcv)
        then (true, (opened.note (Tape.reads (pData + len.toNat) lenIcv)).note
          (Tape.reads pData len.toNat), len)
        else (false, (opened.note (Tape.reads (pData + len.toNat) lenIcv)).note
          (Tape.reads pData len.toNat), cnt) := by
  subst hopened hlen
  rw [rtmpSoftDecryptWep]
  simp only [hctx, if_neg hkey, Tape.read_fst, Tape.read_snd, Tape.note_mem, calcFcs32_crc32]
  exact ite_not _ _ _

/-- **A text is taken only with its check**: whatever the body. -/
theorem rtmpSoftDecryptWep_checks {os : Allocated} {pKey : CipherKey} {pData : Nat}
    {cnt : BitVec 16} {t : Tape} (h : (rtmpSoftDecryptWep os pKey pData cnt t).1 = true) :
    leWord (segment (rtmpSoftDecryptWep os pKey pData cnt t).2.1.mem
        (pData + (rtmpSoftDecryptWep os pKey pData cnt t).2.2.toNat) lenIcv)
      = crc32 (segment (rtmpSoftDecryptWep os pKey pData cnt t).2.1.mem pData
        (rtmpSoftDecryptWep os pKey pData cnt t).2.2.toNat) := by
  cases hctx : os.ctx with
  | none => simp [rtmpSoftDecryptWep, hctx] at h
  | some ctx =>
    by_cases hkey : pKey.KeyLen = 0
    · simp [rtmpSoftDecryptWep, hctx, hkey] at h
    rw [rtmpSoftDecryptWep_eq hctx hkey pData cnt t rfl rfl] at h ⊢
    by_cases hcrc : crc32 (segment (openedTape os ctx pKey pData cnt t).mem pData
        (cnt - BitVec.ofNat 16 lenWepIvHdr - BitVec.ofNat 16 lenIcv).toNat)
      = leWord (segment (openedTape os ctx pKey pData cnt t).mem
        (pData + (cnt - BitVec.ofNat 16 lenWepIvHdr - BitVec.ofNat 16 lenIcv).toNat) lenIcv)
    · rw [if_pos hcrc]
      exact hcrc.symm
    · rw [if_neg hcrc] at h
      exact absurd h Bool.false_ne_true

/-- **A sender's body opens**: an IV header of four bytes, and what was sealed behind it. -/
theorem rtmpSoftDecryptWep_opens {ctx : Arc4Ctx} {pKey : CipherKey} (hkey : pKey.KeyLen ≠ 0)
    {pData : Nat} {cnt : BitVec 16} {t : Tape} {payload : List Byte}
    (hcnt : cnt.toNat = payload.length + 8)
    (hbody : segment t.mem (pData + lenWepIvHdr) (payload.length + lenIcv)
      = sealedText (segment t.mem pData 3) pKey payload) :
    (rtmpSoftDecryptWep ⟨some ctx, true⟩ pKey pData cnt t).1 = true
      ∧ segment (rtmpSoftDecryptWep ⟨some ctx, true⟩ pKey pData cnt t).2.1.mem pData payload.length
        = payload
      ∧ (rtmpSoftDecryptWep ⟨some ctx, true⟩ pKey pData cnt t).2.2.toNat = payload.length := by
  have hcipher : (cnt - BitVec.ofNat 16 lenWepIvHdr).toNat = payload.length + lenIcv := by
    have hlt := cnt.isLt
    have hlens : lenWepIvHdr = 4 ∧ lenIcv = 4 := ⟨rfl, rfl⟩
    rw [BitVec.toNat_sub, BitVec.toNat_ofNat]
    omega
  have hlen : (cnt - BitVec.ofNat 16 lenWepIvHdr - BitVec.ofNat 16 lenIcv).toNat
      = payload.length := by
    have hlt := cnt.isLt
    have hlens : lenIcv = 4 := rfl
    rw [BitVec.toNat_sub, hcipher, BitVec.toNat_ofNat]
    omega
  -- the text and its check, where the header was
  have htext : segment (openedTape ⟨some ctx, true⟩ ctx pKey pData cnt t).mem pData
      (payload.length + lenIcv) = payload ++ leBytes (crc32 payload) := by
    have h := arc4ComputeAt_ciphered (seeded (segment t.mem pData 3) pKey)
      (n := payload.length + lenIcv) (.inl (Nat.le_add_right pData lenWepIvHdr))
      (t.note (Tape.reads pData 3))
    have hopen : openedTape ⟨some ctx, true⟩ ctx pKey pData cnt t
        = arc4ComputeAt (seeded (segment t.mem pData 3) pKey) (pData + lenWepIvHdr)
          (payload.length + lenIcv) pData (t.note (Tape.reads pData 3)) := by
      rw [openedTape, hcipher]
      rfl
    rw [hopen, h.segment, Tape.note_mem, hbody, sealedText, xorStream_xorStream]
  rw [segment_add] at htext
  obtain ⟨hpayload, hicv⟩ := List.append_inj htext (length_segment _ _ _)
  have hcrc : crc32 (segment (openedTape ⟨some ctx, true⟩ ctx pKey pData cnt t).mem pData
        (cnt - BitVec.ofNat 16 lenWepIvHdr - BitVec.ofNat 16 lenIcv).toNat)
      = leWord (segment (openedTape ⟨some ctx, true⟩ ctx pKey pData cnt t).mem
        (pData + (cnt - BitVec.ofNat 16 lenWepIvHdr - BitVec.ofNat 16 lenIcv).toNat) lenIcv) := by
    rw [hlen, hpayload, hicv, leWord_leBytes]
  rw [rtmpSoftDecryptWep_eq rfl hkey pData cnt t rfl rfl, if_pos hcrc]
  exact ⟨rfl, hpayload, hlen⟩

/-! ## A frame on its way -/

/-- A payload that a sender enciphers behind its IV header, and the memory in which a receiver
has the body of the frame. -/
structure Exchange where
  pn : List Byte
  keyIdx : Byte
  key : CipherKey
  payload : List Byte
  sent : Tape
  pIvHdr : Nat
  pText : Nat
  received : Tape
  pData : Nat

namespace Exchange

variable (x : Exchange)

/-- The sender's header. -/
def ivHdr : List Byte := rtmpConstructWepIvHdr x.keyIdx x.pn

/-- The call of `RTMPSoftEncryptWEP`, with a context that held `ctx`. -/
def encrypted (ctx : Arc4Ctx) : Bool × Tape :=
  rtmpSoftEncryptWep ⟨some ctx, true⟩ x.pIvHdr x.key x.pText (BitVec.ofNat 32 x.payload.length)
    x.sent

/-- The call of `RTMPSoftDecryptWEP`. -/
def decrypted (ctx : Arc4Ctx) : Bool × Tape × BitVec 16 :=
  rtmpSoftDecryptWep ⟨some ctx, true⟩ x.key x.pData (BitVec.ofNat 16 (x.payload.length + 8))
    x.received

/-- A packet number of 24 bits, a key of five or thirteen bytes, header and payload in the
sender's memory, and a body whose length has two bytes in the receiver's. -/
structure Fits (ctx : Arc4Ctx) : Prop where
  pn : x.pn.length = 3
  keyLen : x.key.KeyLen = 5 ∨ x.key.KeyLen = 13
  length : x.payload.length + 8 < 2 ^ 16
  header : segment x.sent.mem x.pIvHdr 4 = x.ivHdr
  text : segment x.sent.mem x.pText x.payload.length = x.payload
  body : segment x.received.mem x.pData (4 + (x.payload.length + 4))
    = x.ivHdr ++ segment (x.encrypted ctx).2.mem x.pText (x.payload.length + 4)

variable {x} {ctx : Arc4Ctx}

theorem Fits.key_ne (h : x.Fits ctx) : x.key.KeyLen ≠ 0 := by
  rcases h.keyLen with hkey | hkey <;> rw [hkey] <;> decide

theorem segment_four (m : Mem) (a : Nat) {l : List Byte} (h : segment m a 4 = l) :
    segment m a 3 = l.take 3 := by
  rw [← h]
  rfl

/-- The text that the sender made. -/
theorem Fits.sealed (h : x.Fits ctx) :
    (x.encrypted ctx).1 = true ∧ segment (x.encrypted ctx).2.mem x.pText (x.payload.length + 4)
      = sealedText (x.ivHdr.take 3) x.key x.payload := by
  have hlt := h.length
  have hn : (BitVec.ofNat 32 x.payload.length).toNat = x.payload.length := by
    rw [BitVec.toNat_ofNat]
    omega
  have hseals := @rtmpSoftEncryptWep_seals ctx x.pIvHdr x.pText x.key h.key_ne
    (BitVec.ofNat 32 x.payload.length) (by rw [hn, lenIcv]; omega) x.sent
  rw [hn, segment_four _ _ h.header, h.text] at hseals
  exact hseals

/-- **The payload comes back**, and its length. -/
theorem Fits.opened (h : x.Fits ctx) (ctx' : Arc4Ctx) :
    (x.decrypted ctx').1 = true
      ∧ segment (x.decrypted ctx').2.1.mem x.pData x.payload.length = x.payload
      ∧ (x.decrypted ctx').2.2.toNat = x.payload.length := by
  have hlt := h.length
  have hhdr : x.ivHdr.length = 4 := by
    rw [ivHdr, rtmpConstructWepIvHdr, List.length_append, List.length_take, h.pn]
    rfl
  have hbody := h.body
  rw [segment_add] at hbody
  obtain ⟨hiv, htext⟩ := List.append_inj hbody ((length_segment _ _ _).trans hhdr.symm)
  refine rtmpSoftDecryptWep_opens h.key_ne ?_ ?_
  · rw [BitVec.toNat_ofNat]
    omega
  · rw [segment_four _ _ hiv]
    exact htext.trans h.sealed.2

end Exchange

/-- **WEP, there and back**: an enciphered payload is deciphered to itself; a body is taken only
with the check of its text behind it; and the text that is moved to where the header was is never
read after it was overwritten. -/
theorem wep_exact {x : Exchange} {ctx : Arc4Ctx} (h : x.Fits ctx) (ctx' : Arc4Ctx) :
    ((x.encrypted ctx).1 = true ∧ (x.decrypted ctx').1 = true
        ∧ segment (x.decrypted ctx').2.1.mem x.pData x.payload.length = x.payload
        ∧ (x.decrypted ctx').2.2.toNat = x.payload.length)
      ∧ (∀ (os : Allocated) (pKey : CipherKey) (pData : Nat) (cnt : BitVec 16) (t : Tape),
        (rtmpSoftDecryptWep os pKey pData cnt t).1 = true →
          leWord (segment (rtmpSoftDecryptWep os pKey pData cnt t).2.1.mem
              (pData + (rtmpSoftDecryptWep os pKey pData cnt t).2.2.toNat) lenIcv)
            = crc32 (segment (rtmpSoftDecryptWep os pKey pData cnt t).2.1.mem pData
              (rtmpSoftDecryptWep os pKey pData cnt t).2.2.toNat))
      ∧ ∀ (c : Arc4Ctx) (pData n : Nat) (m : Mem),
        ReadsFirst (arc4ComputeAt c (pData + lenWepIvHdr) n pData ⟨m, []⟩).log := by
  refine ⟨⟨h.sealed.1, h.opened ctx'⟩, fun os pKey pData cnt t => rtmpSoftDecryptWep_checks, ?_⟩
  intro c pData n m
  rw [arc4ComputeAt_log, List.nil_append]
  exact loopTouches_readsFirst (Nat.le_add_right pData lenWepIvHdr) 0 n

/-- A sender of three bytes. -/
def threeBytes : Exchange where
  pn := [1, 2, 3]
  keyIdx := 0
  key := ⟨5, fun _ => 7⟩
  payload := [4, 5, 6]
  sent := ⟨store (fun _ => 0) 0 [1, 2, 3, 0, 4, 5, 6], []⟩
  pIvHdr := 0
  pText := 4
  received := ⟨fun _ => 0, []⟩
  pData := 0

/-- The receiver of what it sends. -/
def threeBytesReceived : Exchange :=
  { threeBytes with
    received := ⟨store (fun _ => 0) 0 (threeBytes.ivHdr
      ++ segment (threeBytes.encrypted (arc4Init [0])).2.mem 4 7), []⟩ }

theorem threeBytesReceived_fits : threeBytesReceived.Fits (arc4Init [0]) where
  pn := rfl
  keyLen := .inl rfl
  length := by decide
  header := by decide
  text := by decide
  body := by
    have hlen : 4 + (threeBytesReceived.payload.length + 4) = (threeBytes.ivHdr
        ++ segment (threeBytes.encrypted (arc4Init [0])).2.mem 4 7).length := by
      rw [List.length_append, length_segment]
      rfl
    rw [hlen]
    exact segment_store_self _ 0 _

theorem wep_exact_threeBytes : threeBytesReceived.Fits (arc4Init [0])
    ∧ (threeBytesReceived.decrypted (arc4Init [0])).1 = true
    ∧ segment (threeBytesReceived.decrypted (arc4Init [0])).2.1.mem 0 3 = [4, 5, 6] :=
  ⟨threeBytesReceived_fits, (wep_exact threeBytesReceived_fits _).1.2.1,
    (wep_exact threeBytesReceived_fits _).1.2.2.1⟩

end ExtDrv.Rt3370.Wep
