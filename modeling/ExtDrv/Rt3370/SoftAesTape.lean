import ExtDrv.Lib.Tape
import ExtDrv.Rt3370.SoftAes

/-!
# The other decryptor, access by access

`RTMPSoftDecryptAES` of `common/cmm_aes.c` over a memory that records accesses. It does
to the memory what the routine over plain memory does, and what it touches depends on the
kind of the frame and the length of its payload alone.
-/

namespace ExtDrv.Rt3370.AesTape

open Memory Ccm

/-! ## What the blocks are made of -/

/-- The priority byte, if it is read. -/
def qosTouches (k : FrameKind) (mpdu : Nat) : List Touch :=
  if k.qcExists && k.a4Exists then [.read (mpdu + 30)]
  else if k.qcExists && !k.a4Exists then [.read (mpdu + 24)]
  else []

/-- `construct_ctr_preload` and `construct_mic_iv`. -/
def ivTouches (k : FrameKind) (mpdu : Nat) : List Touch :=
  qosTouches k mpdu ++ Tape.reads (mpdu + 10) 6

/-- `construct_mic_header1`. -/
def header1Touches (mpdu : Nat) : List Touch := Tape.reads mpdu 2 ++ Tape.reads (mpdu + 4) 12

/-- `construct_mic_header2`. -/
def header2Touches (k : FrameKind) (mpdu : Nat) : List Touch :=
  Tape.reads (mpdu + 16) 7
    ++ (if !k.qcExists && k.a4Exists then Tape.reads (mpdu + 24) 6 else [])
    ++ (if k.qcExists && !k.a4Exists then Tape.reads (mpdu + 24) 2 else [])
    ++ (if k.qcExists && k.a4Exists then Tape.reads (mpdu + 24) 8 else [])

/-! ## The routine -/

section Model

variable (E : Block → Block)

/-- A block of the counter. -/
def ctrPreloadAt (k : FrameKind) (mpdu : Nat) (pn : List Byte) (c : Nat) (t : Tape) :
    Block × Tape :=
  (constructCtrPreload k.a4Exists k.qcExists t.mem mpdu pn c, t.note (ivTouches k mpdu))

/-- The sixteen bytes at `a`. -/
def blockOf (t : Tape) (a : Nat) : Block × Tape := (blockAt t.mem a, t.note (Tape.reads a 16))

/-- The first loop. -/
def payloadLoopAt (pData : Nat) (k : FrameKind) (pn : List Byte) : Nat → Nat → Nat → Tape → Tape
  | 0, _, _, t => t
  | blocks + 1, i, payloadIndex, t =>
      let (ctrPreload, t) := ctrPreloadAt k pData pn (i + 1) t
      let aesOut := E ctrPreload
      let (text, t) := blockOf t (pData + payloadIndex)
      let chainBuffer := xorBlock aesOut text
      payloadLoopAt pData k pn blocks (i + 1) (payloadIndex + 16)
        (t.write (pData + payloadIndex - 8) (List.ofFn chainBuffer))

/-- The bytes behind them, if there are any. -/
def payloadRestAt (pData : Nat) (k : FrameKind) (pn : List Byte)
    (numBlocks payloadRemainder payloadIndex : Nat) (t : Tape) : Tape :=
  if 0 < payloadRemainder then
    let (ctrPreload, t) := ctrPreloadAt k pData pn (numBlocks + 1) t
    let (text, t) := t.read (pData + payloadIndex) payloadRemainder
    let aesOut := E ctrPreload
    let chainBuffer := xorBlock aesOut (pad text)
    t.write (pData + payloadIndex - 8) (prefixOf chainBuffer payloadRemainder)
  else t

/-- The second loop. -/
def micLoopAt : Nat → Nat → Block → Tape → Block × Tape
  | 0, _, aesOut, t => (aesOut, t)
  | blocks + 1, a, aesOut, t =>
      let (text, t) := blockOf t a
      micLoopAt blocks (a + 16) (E (xorBlock aesOut text)) t

/-- The block behind them, if there is one. -/
def micRestAt (a payloadRemainder : Nat) (aesOut : Block) (t : Tape) : Block × Tape :=
  if 0 < payloadRemainder then
    let (text, t) := t.read a payloadRemainder
    (E (xorBlock aesOut (pad text)), t)
  else (aesOut, t)

end Model

/-- `RTMPSoftDecryptAES`: what it returns, and the memory. -/
def rtmpSoftDecryptAesAt (aes128k128d : Block → Block → Block) (pData : Nat)
    (dataByteCnt : BitVec 32) (pWpaKey : CipherKey) (t : Tape) : Bool × Tape :=
  let k := frameKind t.mem pData
  -- the frame control field, by bytes and as a word
  let t := t.note (Tape.reads pData 2 ++ Tape.reads pData 2)
  let headerLen := k.headerLength
  if pWpaKey.KeyLen = 0 then (false, t)
  else
    let E := aes128k128d pWpaKey.Key
    let pn := receivedPn t.mem (pData + headerLen)
    let t := t.note (Tape.reads (pData + headerLen) 2 ++ Tape.reads (pData + headerLen + 4) 4)
    let payloadLen := (dataByteCnt - BitVec.ofNat 32 headerLen - 8 - 8).toNat
    let payloadRemainder := payloadLen % 16
    let numBlocks := payloadLen / 16
    let payloadIndex := headerLen + 8
    let t := payloadLoopAt E pData k pn numBlocks 0 payloadIndex t
    let payloadIndex := payloadIndex + 16 * numBlocks
    let t := payloadRestAt E pData k pn numBlocks payloadRemainder payloadIndex t
    let payloadIndex := payloadIndex + payloadRemainder
    let (ctrPreload, t) := ctrPreloadAt k pData pn 0 t
    let (paddedBuffer, t) := t.read (pData + payloadIndex) 8
    let trailMic := prefixOf (xorBlock (E ctrPreload) (pad paddedBuffer)) 8
    -- force the protected frame bit on
    let t := t.move (pData + 1) (pData + 1) fun b => b ||| 0x40
    let payloadIndex := headerLen
    let micIv := constructMicIv k.qcExists k.a4Exists t.mem pData payloadLen pn
    let t := t.note (ivTouches k pData)
    let micHeader1 := constructMicHeader1 headerLen t.mem pData
    let t := t.note (header1Touches pData)
    let micHeader2 := constructMicHeader2 t.mem pData k.a4Exists k.qcExists
    let t := t.note (header2Touches k pData)
    let aesOut := E (xorBlock (E micIv) micHeader1)
    let aesOut := E (xorBlock aesOut micHeader2)
    let (aesOut, t) := micLoopAt E numBlocks (pData + payloadIndex) aesOut t
    let (aesOut, t) := micRestAt E (pData + payloadIndex + 16 * numBlocks) payloadRemainder aesOut t
    let mic := prefixOf aesOut 8
    if mic ≠ trailMic then (false, t) else (true, t)

/-! ## What it touches -/

/-- The first loop: a counter, a block, and its place. -/
def loopTouches (pData : Nat) (k : FrameKind) : Nat → Nat → List Touch
  | 0, _ => []
  | blocks + 1, payloadIndex =>
      ivTouches k pData ++ Tape.reads (pData + payloadIndex) 16
        ++ Tape.writes (pData + payloadIndex - 8) 16
        ++ loopTouches pData k blocks (payloadIndex + 16)

def restTouches (pData : Nat) (k : FrameKind) (payloadRemainder payloadIndex : Nat) : List Touch :=
  if 0 < payloadRemainder then
    ivTouches k pData ++ Tape.reads (pData + payloadIndex) payloadRemainder
      ++ Tape.writes (pData + payloadIndex - 8) payloadRemainder
  else []

def micTouches : Nat → Nat → List Touch
  | 0, _ => []
  | blocks + 1, a => Tape.reads a 16 ++ micTouches blocks (a + 16)

def micRestTouches (a payloadRemainder : Nat) : List Touch :=
  if 0 < payloadRemainder then Tape.reads a payloadRemainder else []

/-- All of it, of a frame with a key. -/
def touches (pData : Nat) (k : FrameKind) (payloadLen : Nat) : List Touch :=
  let headerLen := k.headerLength
  let numBlocks := payloadLen / 16
  let payloadRemainder := payloadLen % 16
  Tape.reads (pData + headerLen) 2 ++ Tape.reads (pData + headerLen + 4) 4
    ++ loopTouches pData k numBlocks (headerLen + 8)
    ++ restTouches pData k payloadRemainder (headerLen + 8 + 16 * numBlocks)
    ++ ivTouches k pData
    ++ Tape.reads (pData + (headerLen + 8 + 16 * numBlocks + payloadRemainder)) 8
    ++ [.read (pData + 1), .write (pData + 1)]
    ++ ivTouches k pData ++ header1Touches pData ++ header2Touches k pData
    ++ micTouches numBlocks (pData + headerLen)
    ++ micRestTouches (pData + headerLen + 16 * numBlocks) payloadRemainder

section Agreement

variable {E : Block → Block} {pData : Nat} {k : FrameKind} {pn : List Byte}

theorem payloadLoopAt_eq (blocks i payloadIndex : Nat) (t : Tape) :
    payloadLoopAt E pData k pn blocks i payloadIndex t
      = ⟨payloadLoop E pData k pn blocks i payloadIndex t.mem,
        t.log ++ loopTouches pData k blocks payloadIndex⟩ := by
  induction blocks generalizing i payloadIndex t with
  | zero =>
    rw [loopTouches, List.append_nil]
    rfl
  | succ blocks ih =>
    rw [payloadLoopAt, payloadLoop, loopTouches]
    simp only [ctrPreloadAt, blockOf]
    rw [ih]
    simp only [Tape.write_mem, Tape.write_log, Tape.note_mem, Tape.note_log, List.length_ofFn,
      List.append_assoc]

theorem payloadRestAt_eq (numBlocks payloadRemainder payloadIndex : Nat)
    (hrem : payloadRemainder ≤ 16) (t : Tape) :
    payloadRestAt E pData k pn numBlocks payloadRemainder payloadIndex t
      = ⟨payloadRest E pData k pn numBlocks payloadRemainder payloadIndex t.mem,
        t.log ++ restTouches pData k payloadRemainder payloadIndex⟩ := by
  rw [payloadRestAt, payloadRest, restTouches]
  split_ifs
  · simp only [ctrPreloadAt, Tape.read_fst, Tape.read_snd, Tape.write, Tape.note_mem, Tape.note_log,
      length_prefixOf hrem, List.append_assoc]
  · rw [List.append_nil]

theorem micLoopAt_eq (blocks a : Nat) (aesOut : Block) (t : Tape) :
    micLoopAt E blocks a aesOut t
      = (micLoop E t.mem blocks a aesOut, t.note (micTouches blocks a)) := by
  induction blocks generalizing a aesOut t with
  | zero => rw [micTouches, Tape.note, List.append_nil]; rfl
  | succ blocks ih =>
    rw [micLoopAt, micLoop, micTouches]
    simp only [blockOf]
    rw [ih, Tape.note_note, Tape.note_mem]

theorem micRestAt_eq (a payloadRemainder : Nat) (aesOut : Block) (t : Tape) :
    micRestAt E a payloadRemainder aesOut t
      = (micRest E t.mem a payloadRemainder aesOut,
          t.note (micRestTouches a payloadRemainder)) := by
  rw [micRestAt, micRest, micRestTouches]
  split_ifs
  · rfl
  · rw [Tape.note, List.append_nil]

/-- **The two routines agree**, and this is what the one with a record touches. -/
theorem rtmpSoftDecryptAesAt_eq (aes : Block → Block → Block) (pData : Nat) (cnt : BitVec 32)
    (key : CipherKey) (t : Tape) :
    rtmpSoftDecryptAesAt aes pData cnt key t =
      ((rtmpSoftDecryptAes aes pData cnt key t.mem).1,
        ⟨(rtmpSoftDecryptAes aes pData cnt key t.mem).2,
          t.log ++ (Tape.reads pData 2 ++ Tape.reads pData 2) ++ if key.KeyLen = 0 then [] else
            touches pData (frameKind t.mem pData)
              (cnt - BitVec.ofNat 32 (frameKind t.mem pData).headerLength - 8 - 8).toNat⟩) := by
  unfold rtmpSoftDecryptAesAt rtmpSoftDecryptAes
  by_cases hkey : key.KeyLen = 0
  · simp only [if_pos hkey, List.append_nil]
    rfl
  · have hrem (n : Nat) : n % 16 ≤ 16 := Nat.le_of_lt (Nat.mod_lt n (by decide))
    simp only [if_neg hkey, payloadLoopAt_eq, payloadRestAt_eq _ _ _ (hrem _), ctrPreloadAt,
      micLoopAt_eq, micRestAt_eq, Tape.read_fst, Tape.read_snd, Tape.move, Tape.note, touches]
    split_ifs
    · simp only [List.append_assoc]
    · simp only [List.append_assoc]

end Agreement

end ExtDrv.Rt3370.AesTape
