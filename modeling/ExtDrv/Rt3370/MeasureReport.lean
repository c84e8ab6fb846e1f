import ExtDrv.Lib.Reads
import ExtDrv.Lib.Tlv
import ExtDrv.Rt3370.EapolKey

/-!
# Measurement reports

A report is an action frame with one element: a structure of three bytes, and a body whose size
depends on the type. The builder appends argument by argument to a buffer; what it copies
from the structure and from the body it reads from memory.
-/

namespace ExtDrv.Rt3370.Spectrum

open Memory

/-! ## Frames -/

/-- `IE_MEASUREMENT_REPORT`. -/
def ieMeasurementReport : BitVec 8 := 39

/-- `CATEGORY_SPECTRUM`. -/
def categorySpectrum : BitVec 8 := 0

/-- `SPEC_MRP`. -/
def specMrp : BitVec 8 := 1

/-- `RM_BASIC`. -/
def rmBasic : BitVec 8 := 0

/-- `RM_CCA`. -/
def rmCca : BitVec 8 := 1

/-- `RM_RPI_HISTOGRAM`. -/
def rmRpiHistogram : BitVec 8 := 2

/-- `MEASURE_REPORT_INFO`. -/
structure MeasureReportInfo where
  Token : BitVec 8
  ReportMode : BitVec 8
  ReportType : BitVec 8
  deriving DecidableEq

/-- What the builder reads: the bytes from the structure on, and from `pReportInfo` on. -/
inductive Cell
  | reportIE (i : Nat)
  | reportInfo (i : Nat)
  deriving DecidableEq

/-- The memory of the builder. Behind the structure the stack goes on. -/
def memory (info : MeasureReportInfo) (stack pReportInfo : Mem) : Cell → BitVec 8
  | .reportIE 0 => info.Token
  | .reportIE 1 => info.ReportMode
  | .reportIE 2 => info.ReportType
  | .reportIE (i + 3) => stack i
  | .reportInfo i => pReportInfo i

abbrev Build := Reads Cell (BitVec 8)

/-- The output buffer and `*pFrameLen`. -/
structure Out where
  buf : Mem
  FrameLen : Nat

/-- `MakeOutgoingFrame` at `o` of the buffer, with `TotLeng`. -/
def makeOutgoingFrame (o : Nat) : List (Build (List (BitVec 8))) → Mem × Nat → Build (Mem × Nat)
  | [], s => pure s
  | arg :: args, s => do
      let p ← arg
      makeOutgoingFrame o args (store s.1 (o + s.2) p, s.2 + p.length)

/-- The arguments go to `pFrameBuf`, and their length is added. -/
def insertFields (pFrameBuf : Nat) (args : List (Build (List (BitVec 8)))) (out : Out) :
    Build Out := do
  let made ← makeOutgoingFrame pFrameBuf args (out.buf, 0)
  return ⟨made.1, out.FrameLen + made.2⟩

def insertActField (pFrameBuf : Nat) (category actCode : BitVec 8) : Out → Build Out :=
  insertFields pFrameBuf [pure [category], pure [actCode]]

def insertDialogToken (pFrameBuf : Nat) (dialogToken : BitVec 8) : Out → Build Out :=
  insertFields pFrameBuf [pure [dialogToken]]

/-- `Len` bytes are copied from the structure. The body goes `*pFrameLen` behind `pFrameBuf`,
which has the length of the frame in it already. -/
def insertMeasureReportIE (pFrameBuf : Nat) (reportInfoLen : BitVec 8) (hasReport : Bool)
    (out : Out) : Build Out := do
  let len : BitVec 8 := 3 + reportInfoLen
  let out ← insertFields pFrameBuf
    [pure [ieMeasurementReport], pure [len],
      Reads.cells ((List.range len.toNat).map Cell.reportIE)] out
  if 0 < reportInfoLen.toNat ∧ hasReport then
    insertFields (pFrameBuf + out.FrameLen)
      [Reads.cells ((List.range reportInfoLen.toNat).map Cell.reportInfo)] out
  else return out

/-- `MgtMacHeaderInit` for an action frame of a station. -/
def mgtMacHeader (pDA currentAddress : Bytes 6) : List (BitVec 8) :=
  [0xd0, 0, 0, 0] ++ List.ofFn pDA ++ List.ofFn currentAddress ++ List.ofFn currentAddress ++ [0, 0]

@[simp] theorem length_mgtMacHeader (pDA currentAddress : Bytes 6) :
    (mgtMacHeader pDA currentAddress).length = 24 := rfl

/-- `EnqueueMeasurementRep`, in the buffer it was granted. -/
def enqueueMeasurementRep (header : List (BitVec 8)) (dialogToken reportInfoLen : BitVec 8)
    (hasReport : Bool) (pOutBuffer : Mem) : Build Out := do
  let out : Out := ⟨store pOutBuffer 0 header, header.length⟩
  let out ← insertActField out.FrameLen categorySpectrum specMrp out
  let out ← insertDialogToken out.FrameLen dialogToken out
  insertMeasureReportIE out.FrameLen reportInfoLen hasReport out

/-! ## Taking a report apart -/

/-- The outputs of `PeerMeasureReportSanity` beside the dialog token. -/
structure ReportOut where
  info : MeasureReportInfo
  reportBuf : Mem
  result : Bool

/-- `ChNum`, `MeasureStartTime`, `MeasureDuration`, and `last` more bytes. -/
def moveReport (msg : Mem) (ptr last : Nat) (buf : Mem) : Mem :=
  let buf := store buf 0 (segment msg ptr 1)
  let buf := store buf 1 (segment msg (ptr + 1) 8)
  let buf := store buf 9 (segment msg (ptr + 9) 2)
  store buf 11 (segment msg (ptr + 11) last)

def reportElement (msg : Mem) (r : ReportOut) (o : Nat) : ReportOut :=
  if msg o = ieMeasurementReport then
    let info : MeasureReportInfo := ⟨msg (o + 2), msg (o + 3), msg (o + 4)⟩
    { info := info
      reportBuf :=
        if info.ReportType = rmBasic then moveReport msg (o + 5) 1 r.reportBuf
        else if info.ReportType = rmCca then moveReport msg (o + 5) 1 r.reportBuf
        else if info.ReportType = rmRpiHistogram then moveReport msg (o + 5) 8 r.reportBuf
        else r.reportBuf
      result := true }
  else r

/-- The dialog token, and what the elements behind it leave. -/
def peerMeasureReportSanity (msg : Mem) (msgLen : Nat) (r : ReportOut) : BitVec 8 × ReportOut :=
  (msg 26, (Tlv.offsets msg msgLen 27).foldl (reportElement msg) r)

/-! ## What is wanted -/

/-- The size of the body for the types the decoder knows. -/
def bodySize (reportType : BitVec 8) : Option Nat :=
  if reportType = rmBasic then some 12
  else if reportType = rmCca then some 12
  else if reportType = rmRpiHistogram then some 19
  else none

/-- A byte of the structure, or of a body of `n` bytes. -/
def Cell.Inside (n : Nat) : Cell → Prop
  | .reportIE i => i < 3
  | .reportInfo i => i < n

/-- The frame of a report with the body `body`: header, category, action and token, then the
element. -/
structure RoundTrip (dialogToken : BitVec 8) (info : MeasureReportInfo) (body : List (BitVec 8))
    (frame : Out) (reads : List Cell) : Prop where
  length : frame.FrameLen = 24 + 3 + (2 + 3 + body.length)
  inside : ∀ c ∈ reads, c.Inside body.length
  dialog : ∀ r, (peerMeasureReportSanity frame.buf frame.FrameLen r).1 = dialogToken
  parsed : ∀ r, (peerMeasureReportSanity frame.buf frame.FrameLen r).2.result = true ∧
    (peerMeasureReportSanity frame.buf frame.FrameLen r).2.info = info ∧
    segment (peerMeasureReportSanity frame.buf frame.FrameLen r).2.reportBuf 0 body.length = body

/-! ## Length and reads of the frame -/

theorem makeOutgoingFrame_length (m : Cell → BitVec 8) (o : Nat)
    (args : List (Build (List (BitVec 8)))) (s : Mem × Nat) :
    ((makeOutgoingFrame o args s).run m).2 = s.2 + (args.map fun arg => (arg.run m).length).sum := by
  induction args generalizing s with
  | nil => rfl
  | cons arg args ih =>
    simp only [makeOutgoingFrame, Reads.run_bind, ih, List.map_cons, List.sum_cons]
    omega

/-- The arguments are read one after the other. -/
theorem makeOutgoingFrame_addrs (m : Cell → BitVec 8) (o : Nat)
    (args : List (Build (List (BitVec 8)))) (s : Mem × Nat) :
    (makeOutgoingFrame o args s).addrs m = args.flatMap fun arg => arg.addrs m := by
  induction args generalizing s with
  | nil => rfl
  | cons arg args ih => simp only [makeOutgoingFrame, Reads.addrs_bind, ih, List.flatMap_cons]

@[simp] theorem insertFields_length (m : Cell → BitVec 8) (o : Nat)
    (args : List (Build (List (BitVec 8)))) (out : Out) :
    ((insertFields o args out).run m).FrameLen
      = out.FrameLen + (args.map fun arg => (arg.run m).length).sum := by
  simp only [insertFields, Reads.run_bind, Reads.run_pure, makeOutgoingFrame_length, Nat.zero_add]

@[simp] theorem insertFields_addrs (m : Cell → BitVec 8) (o : Nat)
    (args : List (Build (List (BitVec 8)))) (out : Out) :
    (insertFields o args out).addrs m = args.flatMap fun arg => arg.addrs m := by
  simp only [insertFields, Reads.addrs_bind, Reads.addrs_pure, makeOutgoingFrame_addrs,
    List.append_nil]

section

variable (m : Cell → BitVec 8) (pDA currentAddress : Bytes 6) (dialogToken reportInfoLen : BitVec 8)
  (pOutBuffer : Mem)

/-- **The body is counted twice**: in the element, and behind it. -/
theorem enqueueMeasurementRep_length :
    ((enqueueMeasurementRep (mgtMacHeader pDA currentAddress) dialogToken reportInfoLen true
        pOutBuffer).run m).FrameLen
      = 29 + (3 + reportInfoLen).toNat + reportInfoLen.toNat := by
  simp only [enqueueMeasurementRep, insertActField, insertDialogToken, insertMeasureReportIE,
    Reads.run_bind]
  by_cases h : 0 < reportInfoLen.toNat
  · simp [h]
    omega
  · simp [h]
    omega

/-- **The structure is read as if the body stood behind it.** -/
theorem reads_reportIE {i : Nat} (hasReport : Bool) (h : i < (3 + reportInfoLen).toNat) :
    Cell.reportIE i ∈ (enqueueMeasurementRep (mgtMacHeader pDA currentAddress) dialogToken
      reportInfoLen hasReport pOutBuffer).addrs m := by
  have hmem : Cell.reportIE i ∈ (List.range (3 + reportInfoLen).toNat).map Cell.reportIE :=
    List.mem_map.mpr ⟨i, List.mem_range.mpr h, rfl⟩
  simp only [enqueueMeasurementRep, insertActField, insertDialogToken, insertMeasureReportIE,
    Reads.addrs_bind, insertFields_addrs, List.flatMap_cons, Reads.addrs_cells]
  simp only [List.mem_append]
  tauto

theorem bodySize_some {reportType : BitVec 8} {n : Nat} (h : bodySize reportType = some n) :
    n = 12 ∨ n = 19 := by
  unfold bodySize at h
  split at h
  · exact Or.inl (Option.some.inj h).symm
  · split at h
    · exact Or.inl (Option.some.inj h).symm
    · split at h
      · exact Or.inr (Option.some.inj h).symm
      · cases h

/-- Of a report with a body neither the length nor the reads are right. -/
theorem enqueue_withBody {reportType : BitVec 8} {n : Nat} (h : bodySize reportType = some n) :
    ((enqueueMeasurementRep (mgtMacHeader pDA currentAddress) dialogToken (BitVec.ofNat 8 n) true
        pOutBuffer).run m).FrameLen = 24 + 3 + (2 + 3 + n) + n ∧
      Cell.reportIE (2 + n) ∈ (enqueueMeasurementRep (mgtMacHeader pDA currentAddress) dialogToken
        (BitVec.ofNat 8 n) true pOutBuffer).addrs m := by
  rw [enqueueMeasurementRep_length]
  rcases bodySize_some h with rfl | rfl
  · exact ⟨rfl, reads_reportIE _ _ _ _ _ _ _ (by decide)⟩
  · exact ⟨rfl, reads_reportIE _ _ _ _ _ _ _ (by decide)⟩

theorem not_roundTrip {info : MeasureReportInfo} {n : Nat} (pReportInfo : Mem)
    (h : bodySize info.ReportType = some n) :
    ¬ RoundTrip dialogToken info (segment pReportInfo 0 n)
      ((enqueueMeasurementRep (mgtMacHeader pDA currentAddress) dialogToken (BitVec.ofNat 8 n) true
        pOutBuffer).run m)
      ((enqueueMeasurementRep (mgtMacHeader pDA currentAddress) dialogToken (BitVec.ofNat 8 n) true
        pOutBuffer).addrs m) := by
  intro hround
  have hlen := hround.length
  rw [(enqueue_withBody m pDA currentAddress dialogToken pOutBuffer h).1, length_segment] at hlen
  rcases bodySize_some h with rfl | rfl <;> omega

end

/-- **No report with a body comes out right**, whichever of the types it is. -/
theorem never_roundTrip (pDA currentAddress : Bytes 6) (dialogToken : BitVec 8)
    (info : MeasureReportInfo) (n : Nat) (stack pReportInfo pOutBuffer : Mem)
    (h : bodySize info.ReportType = some n) :
    ¬ RoundTrip dialogToken info (segment pReportInfo 0 n)
      ((enqueueMeasurementRep (mgtMacHeader pDA currentAddress) dialogToken (BitVec.ofNat 8 n) true
        pOutBuffer).run (memory info stack pReportInfo))
      ((enqueueMeasurementRep (mgtMacHeader pDA currentAddress) dialogToken (BitVec.ofNat 8 n) true
        pOutBuffer).addrs (memory info stack pReportInfo)) :=
  not_roundTrip _ pDA currentAddress dialogToken pOutBuffer pReportInfo h

theorem never_roundTrip_basic :
    ¬ RoundTrip 1 ⟨1, 0, rmBasic⟩ (segment (fun _ => 6) 0 12)
      ((enqueueMeasurementRep (mgtMacHeader (.zero 6) (.zero 6)) 1 (BitVec.ofNat 8 12) true
        fun _ => 0).run (memory ⟨1, 0, rmBasic⟩ (fun _ => 0) fun _ => 6))
      ((enqueueMeasurementRep (mgtMacHeader (.zero 6) (.zero 6)) 1 (BitVec.ofNat 8 12) true
        fun _ => 0).addrs (memory ⟨1, 0, rmBasic⟩ (fun _ => 0) fun _ => 6)) :=
  never_roundTrip (.zero 6) (.zero 6) 1 ⟨1, 0, rmBasic⟩ 12 (fun _ => 0) (fun _ => 6) (fun _ => 0)
    (by decide)

theorem roundTrip_broken : ¬ ∀ (pDA currentAddress : Bytes 6) (dialogToken : BitVec 8)
    (info : MeasureReportInfo) (n : Nat) (stack pReportInfo pOutBuffer : Mem),
    bodySize info.ReportType = some n →
    RoundTrip dialogToken info (segment pReportInfo 0 n)
      ((enqueueMeasurementRep (mgtMacHeader pDA currentAddress) dialogToken (BitVec.ofNat 8 n) true
        pOutBuffer).run (memory info stack pReportInfo))
      ((enqueueMeasurementRep (mgtMacHeader pDA currentAddress) dialogToken (BitVec.ofNat 8 n) true
        pOutBuffer).addrs (memory info stack pReportInfo)) := by
  intro hall
  exact not_roundTrip (memory ⟨1, 0, rmBasic⟩ (fun _ => 0) fun _ => 6) (.zero 6) (.zero 6) 1
    (fun _ => 0) (fun _ => 6)
    (show bodySize (MeasureReportInfo.mk 1 0 rmBasic).ReportType = some 12 by decide)
    (hall (.zero 6) (.zero 6) 1 ⟨1, 0, rmBasic⟩ 12 (fun _ => 0) (fun _ => 6) (fun _ => 0)
      (by decide))

end ExtDrv.Rt3370.Spectrum
