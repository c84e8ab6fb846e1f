import ExtDrv.Lib.ForLoop

/-!
# Rate switching

`MlmeDynamicTxRateSwitching`, called every second, and `StaQuickResponeForRateUpExec`, called 100 ms
after a change of rate (`mlme.c`), go through the MAC table and choose a transmit rate for every peer
that takes part. A rate is a record in a table of the driver; the peer's entry holds its index.
-/

namespace ExtDrv.Rt3370.RateSwitch

open Sweep

/-! ## The rate tables -/

/-- `RTMP_TX_RATE_SWITCH`. The second byte has the bits STBC, ShortGI, BW, a reserved one and Mode. -/
structure TxRate where
  ItemNo : BitVec 8
  bits : BitVec 8
  CurrMCS : BitVec 8
  TrainUp : BitVec 8
  TrainDown : BitVec 8

def TxRate.STBC (r : TxRate) : Bool := r.bits.getLsbD 0
def TxRate.ShortGI (r : TxRate) : Bool := r.bits.getLsbD 1
def TxRate.Mode (r : TxRate) : BitVec 2 := r.bits.extractLsb' 4 2

/-- `MODE_HTMIX`. -/
def modeHtmix : BitVec 2 := 2

/-- `MODE_HTGREENFIELD`. -/
def modeHtgreenfield : BitVec 2 := 3

inductive Table
  | rateSwitchTable
  | rateSwitchTable11B
  | rateSwitchTable11BG
  | rateSwitchTable11G
  | rateSwitchTable11N1S
  | rateSwitchTable11N2S
  | rateSwitchTable11N2SForABand
  | rateSwitchTable11BGN1S
  | rateSwitchTable11BGN2S
  | rateSwitchTable11BGN2SForABand
  deriving DecidableEq

/-- The bytes of a table; the first record tells the number of entries and the initial index. -/
def Table.bytes : Table → List (BitVec 8)
  | .rateSwitchTable =>
    [0x11, 0x00, 0, 0, 0,
     0x00, 0x00, 0, 40, 101,
     0x01, 0x00, 1, 40, 50,
     0x02, 0x00, 2, 35, 45,
     0x03, 0x00, 3, 20, 45,
     0x04, 0x21, 0, 30, 50,
     0x05, 0x21, 1, 20, 50,
     0x06, 0x21, 2, 20, 50,
     0x07, 0x21, 3, 15, 50,
     0x08, 0x21, 4, 15, 30,
     0x09, 0x21, 5, 10, 25,
     0x0a, 0x21, 6, 8, 25,
     0x0b, 0x21, 7, 8, 25,
     0x0c, 0x20, 12, 15, 30,
     0x0d, 0x20, 13, 8, 20,
     0x0e, 0x20, 14, 8, 20,
     0x0f, 0x20, 15, 8, 25,
     0x10, 0x22, 15, 8, 25,
     0x11, 0x00, 0, 0, 0,
     0x12, 0x00, 0, 0, 0,
     0x13, 0x00, 0, 0, 0,
     0x14, 0x00, 0, 0, 0,
     0x15, 0x00, 0, 0, 0,
     0x16, 0x00, 0, 0, 0,
     0x17, 0x00, 0, 0, 0,
     0x18, 0x00, 0, 0, 0,
     0x19, 0x00, 0, 0, 0,
     0x1a, 0x00, 0, 0, 0,
     0x1b, 0x00, 0, 0, 0,
     0x1c, 0x00, 0, 0, 0,
     0x1d, 0x00, 0, 0, 0,
     0x1e, 0x00, 0, 0, 0,
     0x1f, 0x00, 0, 0, 0]
  | .rateSwitchTable11B =>
    [0x04, 0x03, 0, 0, 0,
     0x00, 0x00, 0, 40, 101,
     0x01, 0x00, 1, 40, 50,
     0x02, 0x00, 2, 35, 45,
     0x03, 0x00, 3, 20, 45]
  | .rateSwitchTable11BG =>
    [0x0a, 0x00, 0, 0, 0,
     0x00, 0x00, 0, 40, 101,
     0x01, 0x00, 1, 40, 50,
     0x02, 0x00, 2, 35, 45,
     0x03, 0x00, 3, 20, 45,
     0x04, 0x10, 2, 20, 35,
     0x05, 0x10, 3, 16, 35,
     0x06, 0x10, 4, 10, 25,
     0x07, 0x10, 5, 16, 25,
     0x08, 0x10, 6, 10, 25,
     0x09, 0x10, 7, 10, 13]
  | .rateSwitchTable11G =>
    [0x08, 0x00, 0, 0, 0,
     0x00, 0x10, 0, 20, 101,
     0x01, 0x10, 1, 20, 35,
     0x02, 0x10, 2, 20, 35,
     0x03, 0x10, 3, 16, 35,
     0x04, 0x10, 4, 10, 25,
     0x05, 0x10, 5, 16, 25,
     0x06, 0x10, 6, 10, 25,
     0x07, 0x10, 7, 10, 13]
  | .rateSwitchTable11N1S | .rateSwitchTable11BGN1S =>
    [0x0c, 0x0a, 0, 0, 0,
     0x00, 0x00, 0, 40, 101,
     0x01, 0x00, 1, 40, 50,
     0x02, 0x00, 2, 25, 45,
     0x03, 0x21, 0, 20, 35,
     0x04, 0x21, 1, 20, 35,
     0x05, 0x21, 2, 20, 35,
     0x06, 0x21, 3, 15, 35,
     0x07, 0x21, 4, 15, 30,
     0x08, 0x21, 5, 10, 25,
     0x09, 0x21, 6, 8, 14,
     0x0a, 0x21, 7, 8, 14,
     0x0b, 0x23, 7, 8, 14]
  | .rateSwitchTable11N2S =>
    [0x0e, 0x0c, 0, 0, 0,
     0x00, 0x00, 0, 40, 101,
     0x01, 0x00, 1, 40, 50,
     0x02, 0x00, 2, 25, 45,
     0x03, 0x21, 0, 20, 35,
     0x04, 0x21, 1, 20, 35,
     0x05, 0x21, 2, 20, 35,
     0x06, 0x21, 3, 15, 35,
     0x07, 0x21, 4, 15, 30,
     0x08, 0x20, 11, 15, 30,
     0x09, 0x20, 12, 15, 30,
     0x0a, 0x20, 13, 8, 20,
     0x0b, 0x20, 14, 8, 20,
     0x0c, 0x20, 15, 8, 25,
     0x0d, 0x22, 15, 8, 15]
  | .rateSwitchTable11BGN2S =>
    [0x0e, 0x0c, 0, 0, 0,
     0x00, 0x00, 0, 40, 101,
     0x01, 0x00, 1, 40, 50,
     0x02, 0x00, 2, 25, 45,
     0x03, 0x21, 0, 20, 35,
     0x04, 0x21, 1, 20, 35,
     0x05, 0x21, 2, 20, 35,
     0x06, 0x21, 3, 15, 35,
     0x07, 0x21, 4, 15, 30,
     0x08, 0x20, 11, 15, 30,
     0x09, 0x20, 12, 15, 22,
     0x0a, 0x20, 13, 8, 20,
     0x0b, 0x20, 14, 8, 20,
     0x0c, 0x20, 15, 8, 20,
     0x0d, 0x22, 15, 8, 15]
  | .rateSwitchTable11N2SForABand | .rateSwitchTable11BGN2SForABand =>
    [0x0b, 0x09, 0, 0, 0,
     0x00, 0x21, 0, 30, 101,
     0x01, 0x21, 1, 20, 50,
     0x02, 0x21, 2, 20, 50,
     0x03, 0x21, 3, 15, 50,
     0x04, 0x21, 4, 15, 30,
     0x05, 0x21, 5, 15, 30,
     0x06, 0x20, 12, 15, 30,
     0x07, 0x20, 13, 8, 20,
     0x08, 0x20, 14, 8, 20,
     0x09, 0x20, 15, 8, 25,
     0x0a, 0x22, 15, 8, 25]

def Table.size (t : Table) : Nat := (t.bytes.getD 0 0).toNat
def Table.initTxRateIdx (t : Table) : Nat := (t.bytes.getD 1 0).toNat

/-- What stands in memory behind each table. -/
abbrev Behind := Table → Nat → BitVec 8

/-- The record `&pTable[(idx+1)*5]`, wherever that is. -/
def record (behind : Behind) (t : Table) (idx : Nat) : TxRate where
  ItemNo := t.bytes.getD ((idx + 1) * 5) (behind t ((idx + 1) * 5))
  bits := t.bytes.getD ((idx + 1) * 5 + 1) (behind t ((idx + 1) * 5 + 1))
  CurrMCS := t.bytes.getD ((idx + 1) * 5 + 2) (behind t ((idx + 1) * 5 + 2))
  TrainUp := t.bytes.getD ((idx + 1) * 5 + 3) (behind t ((idx + 1) * 5 + 3))
  TrainDown := t.bytes.getD ((idx + 1) * 5 + 4) (behind t ((idx + 1) * 5 + 4))

/-! ## The adapter and the peers -/

/-- `HTTRANSMIT_SETTING`, the fields in use; a long guard interval is `false`. -/
structure HtTransmitSetting where
  MCS : BitVec 7
  BW : Bool
  ShortGI : Bool
  STBC : BitVec 2
  MODE : BitVec 2

structure RssiSample where
  AvgRssi0 : Int
  AvgRssi1 : Int
  AvgRssi2 : Int

inductive EntryType
  | none
  | client
  | wds
  | apcli
  | mesh
  | dls
  | tdls
  deriving DecidableEq

/-- What rate switching keeps of a peer. The indexes of the two arrays are those of the tables. -/
structure RateState where
  CurrTxRateIndex : Nat
  TxQuality : Nat → BitVec 16
  PER : Nat → BitVec 8
  TxRateUpPenalty : BitVec 8
  CurrTxRateStableTime : BitVec 32
  fLastSecAccordingRSSI : Bool
  LastSecTxRateChangeAction : BitVec 8
  LastTimeTxRateChangeAction : BitVec 8
  LastTxOkCount : BitVec 32
  OneSecTxNoRetryOkCount : BitVec 32
  OneSecTxRetryOkCount : BitVec 32
  OneSecTxFailCount : BitVec 32

/-- `MAC_TABLE_ENTRY`. `assoc` is `Sst == SST_ASSOC`. -/
structure Entry where
  EntryType : EntryType
  assoc : Bool
  RateLen : Nat
  MCSSet0 : BitVec 8
  MCSSet1 : BitVec 8
  MCSSet2 : BitVec 8
  sgi20Capable : Bool
  sgi40Capable : Bool
  RssiSample : RssiSample
  HTPhyMode : HtTransmitSetting
  rate : RateState

/-- What the routines read of the adapter and never write. `qosDls` is whether the driver is built
with `QOS_DLS_SUPPORT`. -/
structure Config where
  qosDls : Bool
  ateOn : Bool
  opModeSta : Bool
  adhocOn : Bool
  infraOn : Bool
  bAutoTxRateSwitch : Bool
  macTabSize : Nat
  RxPath : Nat
  TxPath : Nat
  TxStream : Nat
  Channel : Nat
  PhyMode : Nat
  TxRateTableSize : Nat
  MaxTxRate : Nat
  MinTxRate : Nat
  ExternalLNAForG : Bool
  ExternalLNAForA : Bool
  RssiSample : RssiSample
  maxSTBC : Bool
  maxShortGI : Bool
  regHtmodeGF : Bool
  mlmeHtmodeGF : Bool

/-- What they write besides the entries. -/
structure Shared where
  HTPhyMode : HtTransmitSetting
  LastTxRate : HtTransmitSetting
  OneSecTxRetryOkCount : BitVec 32
  OneSecTxNoRetryOkCount : BitVec 32
  OneSecTxFailCount : BitVec 32
  StaQuickResponeForRateUpTimerRunning : Bool

structure Adapter where
  shared : Shared
  content : Nat → Entry

/-- `TX_STA_CNT0` and `TX_STA_CNT1`. -/
structure TxStaCnt where
  TxRetransmit : BitVec 16
  TxSuccess : BitVec 16
  TxFailCount : BitVec 16

def TxStaCnt.total (hw : TxStaCnt) : BitVec 32 :=
  hw.TxRetransmit.setWidth 32 + hw.TxSuccess.setWidth 32 + hw.TxFailCount.setWidth 32

def RateState.total (r : RateState) : BitVec 32 :=
  r.OneSecTxNoRetryOkCount + r.OneSecTxRetryOkCount + r.OneSecTxFailCount

/-- `RESET_ONE_SEC_TX_CNT`. -/
def RateState.resetOneSecTxCnt (r : RateState) : RateState :=
  { r with OneSecTxRetryOkCount := 0, OneSecTxFailCount := 0, OneSecTxNoRetryOkCount := 0 }

/-- `MAX_STEP_OF_TX_RATE_SWITCH`. -/
def maxStepOfTxRateSwitch : Nat := 32

/-- `NdisZeroMemory` of `TxQuality` and `PER`. -/
def RateState.clearHistory (r : RateState) : RateState :=
  { r with
    TxQuality := fun k => if k < maxStepOfTxRateSwitch then 0 else r.TxQuality k
    PER := fun k => if k < maxStepOfTxRateSwitch then 0 else r.PER k }

def RateState.setQuality (r : RateState) (k : Nat) (q : BitVec 16) : RateState :=
  { r with TxQuality := Function.update r.TxQuality k q }

def RateState.setPER (r : RateState) (k : Nat) (p : BitVec 8) : RateState :=
  { r with PER := Function.update r.PER k p }

/-! ## Choosing a table -/

/-- `PHY_11ABGN_MIXED`. -/
def phy11abgnMixed : Nat := 5

/-- `PHY_11B`. -/
def phy11b : Nat := 1

/-- `RATE_11`. -/
def rate11 : Nat := 3

def mlmeSelectTxRateTable (c : Config) (e : Entry) : Table :=
  if 0 < c.TxRateTableSize then .rateSwitchTable
  else if c.opModeSta && c.adhocOn then
    if phy11abgnMixed ≤ c.PhyMode ∧ e.MCSSet0 = 0xff ∧ (e.MCSSet1 = 0 ∨ c.TxPath = 1) then
      .rateSwitchTable11N1S
    else if phy11abgnMixed ≤ c.PhyMode ∧ e.MCSSet0 = 0xff ∧ e.MCSSet1 = 0xff ∧
        (c.TxPath = 3 ∧ e.MCSSet2 = 0 ∨ c.TxPath = 2) then
      if c.Channel ≤ 14 then .rateSwitchTable11N2S else .rateSwitchTable11N2SForABand
    else if e.RateLen = 4 ∧ e.MCSSet0 = 0 ∧ e.MCSSet1 = 0 then .rateSwitchTable11B
    else if c.Channel ≤ 14 then .rateSwitchTable11BG
    else .rateSwitchTable11G
  else if (e.RateLen = 12 ∨ c.opModeSta) ∧ e.MCSSet0 = 0xff ∧ (e.MCSSet1 = 0 ∨ c.TxStream = 1) then
    .rateSwitchTable11BGN1S
  else if (e.RateLen = 12 ∨ c.opModeSta) ∧ e.MCSSet0 = 0xff ∧ e.MCSSet1 = 0xff ∧
      (c.TxPath = 3 ∧ e.MCSSet2 = 0 ∨ c.TxStream = 2) then
    if c.Channel ≤ 14 then .rateSwitchTable11BGN2S else .rateSwitchTable11BGN2SForABand
  else if e.MCSSet0 = 0xff ∧ (e.MCSSet1 = 0 ∨ c.TxStream = 1) then .rateSwitchTable11N1S
  else if e.MCSSet0 = 0xff ∧ e.MCSSet1 = 0xff ∧ 2 ≤ c.TxStream then
    if c.Channel ≤ 14 then .rateSwitchTable11N2S else .rateSwitchTable11N2SForABand
  else if e.RateLen = 4 ∨ c.PhyMode = phy11b then .rateSwitchTable11B
  else if 8 < e.RateLen ∧ e.MCSSet0 = 0 ∧ e.MCSSet1 = 0 then .rateSwitchTable11BG
  else if e.RateLen = 8 ∧ e.MCSSet0 = 0 ∧ e.MCSSet1 = 0 then .rateSwitchTable11G
  else if e.MCSSet0 = 0 ∧ e.MCSSet1 = 0 then
    if c.MaxTxRate ≤ rate11 then .rateSwitchTable11B
    else if rate11 < c.MinTxRate then .rateSwitchTable11G
    else .rateSwitchTable11BG
  -- an unknown mode
  else if c.Channel ≤ 14 then
    if c.TxStream = 1 then .rateSwitchTable11N1S else .rateSwitchTable11N2S
  else if c.TxStream = 1 then .rateSwitchTable11N1S
  else if c.TxStream = 2 then .rateSwitchTable11N2S
  else .rateSwitchTable11N2SForABand

/-! ## Setting a rate -/

/-- `MCS_AUTO`. -/
def mcsAuto : BitVec 8 := 33

/-- `MlmeSetTxRate`, but for the protection registers. -/
def mlmeSetTxRate (c : Config) (s : Shared) (e : Entry) (pTxRate : TxRate) : Shared × Entry :=
  let phy := s.HTPhyMode
  let phy := { phy with STBC := if pTxRate.STBC && c.maxSTBC && c.TxPath == 2 then 1 else 0 }
  let phy := if pTxRate.CurrMCS < mcsAuto then { phy with MCS := pTxRate.CurrMCS.setWidth 7 } else phy
  let phy := if 7 < phy.MCS then { phy with STBC := 0 } else phy
  if c.adhocOn then
    let phy := { phy with ShortGI := false }
    let entryPhy := { e.HTPhyMode with
      STBC := 0, MODE := pTxRate.Mode, ShortGI := phy.ShortGI, MCS := phy.MCS }
    let phy := { phy with MODE := entryPhy.MODE }
    ({ s with HTPhyMode := phy, LastTxRate := entryPhy }, { e with HTPhyMode := entryPhy })
  else
    let phy :=
      if c.regHtmodeGF && c.mlmeHtmodeGF then { phy with MODE := modeHtgreenfield }
      else if pTxRate.Mode ≤ modeHtgreenfield then { phy with MODE := pTxRate.Mode }
      else phy
    let phy := { phy with ShortGI := pTxRate.ShortGI && c.maxShortGI }
    let phy := { phy with
      ShortGI := phy.ShortGI && if e.HTPhyMode.BW then e.sgi40Capable else e.sgi20Capable }
    let entryPhy := { e.HTPhyMode with
      STBC := phy.STBC, ShortGI := phy.ShortGI, MCS := phy.MCS, MODE := phy.MODE }
    ({ s with HTPhyMode := phy, LastTxRate := entryPhy }, { e with HTPhyMode := entryPhy })

/-! ## What both routines compute for an entry -/

def rtmpMaxRssi (c : Config) (s : RssiSample) : Int :=
  let larger := -127
  let larger := if c.RxPath = 1 ∧ s.AvgRssi0 ≠ 0 then s.AvgRssi0 else larger
  let larger := if 2 ≤ c.RxPath ∧ s.AvgRssi1 ≠ 0 then max s.AvgRssi0 s.AvgRssi1 else larger
  let larger := if c.RxPath = 3 ∧ s.AvgRssi2 ≠ 0 then max larger s.AvgRssi2 else larger
  if larger = -127 then 0 else larger

def rtmpCheckEntryEnableAutoRateSwitch (c : Config) (e : Entry) : Bool :=
  if (e.EntryType = .client ∧ e.assoc) ∨ (c.qosDls ∧ e.EntryType = .dls) then c.bAutoTxRateSwitch
  else false

/-- The entries that the loops do not pass over. -/
def takesPart (c : Config) (e : Entry) : Bool :=
  e.EntryType ≠ .none && rtmpCheckEntryEnableAutoRateSwitch c e

/-- The locals `TxTotalCnt` and `TxErrorRatio`. -/
structure Counts where
  TxTotalCnt : BitVec 32
  TxErrorRatio : BitVec 32

/-- With the counters of the hardware, or with the entry's own ones. -/
def Counts.next (hw : TxStaCnt) (hardware : Bool) (l : Counts) (r : RateState) : Counts :=
  if hardware then
    if l.TxTotalCnt ≠ 0 then
      { l with
        TxErrorRatio :=
          (hw.TxRetransmit.setWidth 32 + hw.TxFailCount.setWidth 32) * 100 / l.TxTotalCnt }
    else l
  else
    let l := { l with TxTotalCnt := r.total }
    if l.TxTotalCnt ≠ 0 then
      { l with TxErrorRatio := (r.OneSecTxRetryOkCount + r.OneSecTxFailCount) * 100 / l.TxTotalCnt }
    else l

/-- The locals `UpRateIdx` and `DownRateIdx`. -/
structure Neighbours where
  UpRateIdx : Nat
  DownRateIdx : Nat

/-- An index behind the table leaves them as they are. -/
def Neighbours.next (l : Neighbours) (CurrRateIdx TableSize : Nat) : Neighbours :=
  if 0 < CurrRateIdx ∧ CurrRateIdx < TableSize - 1 then ⟨CurrRateIdx + 1, CurrRateIdx - 1⟩
  else if CurrRateIdx = 0 then ⟨CurrRateIdx + 1, CurrRateIdx⟩
  else if CurrRateIdx = TableSize - 1 then ⟨CurrRateIdx, CurrRateIdx - 1⟩
  else l

/-- `TrainUp` and `TrainDown`, half as much again with a good signal. -/
def train (Rssi : Int) (pCurrTxRate : TxRate) : BitVec 8 × BitVec 8 :=
  if -65 < Rssi ∧ modeHtmix ≤ pCurrTxRate.Mode then
    (pCurrTxRate.TrainUp + (pCurrTxRate.TrainUp >>> 1),
      pCurrTxRate.TrainDown + (pCurrTxRate.TrainDown >>> 1))
  else (pCurrTxRate.TrainUp, pCurrTxRate.TrainDown)

/-- `DRS_TX_QUALITY_WORST_BOUND`. -/
def drsTxQualityWorstBound : BitVec 16 := 8

/-- What a routine makes of an entry: its rate state, the records it reads, the one it gives to
`MlmeSetTxRate`, and whether it starts the timer of the fast routine. -/
structure Decision where
  rate : RateState
  reads : List Nat
  set : Option Nat
  startTimer : Bool

/-! ## `MlmeDynamicTxRateSwitching` -/

/-- The last entry of the table with a MCS, of which 7 and 15 are to have a long guard interval. -/
def mcsIdx (behind : Behind) (t : Table) (mcs : BitVec 8) : Nat :=
  (List.range t.size).foldl (fun found idx =>
    let pCurrTxRate := record behind t idx
    if pCurrTxRate.CurrMCS = mcs ∧ ((mcs = 7 ∨ mcs = 15) → pCurrTxRate.ShortGI = false) then idx
    else found) 0

def rssiOffset (c : Config) : Int :=
  if c.Channel ≤ 14 then if c.ExternalLNAForG then 2 else 5
  else if c.ExternalLNAForA then 5 else 8

/-- The first MCS of the list that is in the table and has the signal it needs, or the one given. -/
def firstFit (behind : Behind) (t : Table) (enough : Int → Bool) (otherwise : Nat) :
    List (BitVec 8 × Int) → Nat
  | [] => otherwise
  | (mcs, bound) :: rest =>
      if mcsIdx behind t mcs ≠ 0 && enough bound then mcsIdx behind t mcs
      else firstFit behind t enough otherwise rest

/-- CASE 1: the index is decided on the signal alone. -/
def txRateIdxByRssi (behind : Behind) (c : Config) (t : Table) (Rssi : Int) : Nat :=
  let MCS0 := mcsIdx behind t 0
  match t with
  | .rateSwitchTable11BGN2S | .rateSwitchTable11BGN2SForABand | .rateSwitchTable11N2S
  | .rateSwitchTable11N2SForABand =>
    firstFit behind t (fun bound => bound + rssiOffset c ≤ Rssi) MCS0
      [(15, -70), (14, -72), (13, -76), (12, -78), (4, -82), (3, -84), (2, -86), (1, -88)]
  | .rateSwitchTable11BGN1S | .rateSwitchTable11N1S =>
    firstFit behind t (fun bound => bound + rssiOffset c < Rssi) MCS0
      [(7, -72), (6, -74), (5, -77), (4, -79), (3, -81), (2, -83), (1, -86)]
  | .rateSwitchTable | .rateSwitchTable11B | .rateSwitchTable11BG | .rateSwitchTable11G =>
    let slow :=
      if mcsIdx behind t 4 = 0 then mcsIdx behind t 3
      else firstFit behind t (fun bound => bound < Rssi) MCS0 [(3, -85), (2, -87), (1, -90)]
    firstFit behind t (fun bound => bound < Rssi) slow [(7, -70), (6, -74), (5, -78), (4, -82)]

/-- The quality of the rates after this period's errors. -/
def RateState.weigh (r : RateState) (TxErrorRatio : BitVec 32) (TrainUp TrainDown : BitVec 8)
    (CurrRateIdx UpRateIdx : Nat) : RateState :=
  if TrainDown.setWidth 32 ≤ TxErrorRatio then r.setQuality CurrRateIdx drsTxQualityWorstBound
  else if TxErrorRatio ≤ TrainUp.setWidth 32 then
    let r :=
      if r.TxQuality CurrRateIdx ≠ 0 then r.setQuality CurrRateIdx (r.TxQuality CurrRateIdx - 1)
      else r
    if r.TxRateUpPenalty ≠ 0 then { r with TxRateUpPenalty := r.TxRateUpPenalty - 1 }
    else if r.TxQuality UpRateIdx ≠ 0 then r.setQuality UpRateIdx (r.TxQuality UpRateIdx - 1)
    else r
  else r

/-- Down first, then up. -/
def RateState.move (r : RateState) (bTrainUpDown : Bool) (CurrRateIdx : Nat) (l : Neighbours) :
    RateState :=
  if bTrainUpDown then
    if CurrRateIdx ≠ l.DownRateIdx ∧ drsTxQualityWorstBound ≤ r.TxQuality CurrRateIdx then
      { r with CurrTxRateIndex := l.DownRateIdx }
    else if CurrRateIdx ≠ l.UpRateIdx ∧ r.TxQuality l.UpRateIdx ≤ 0 then
      { r with CurrTxRateIndex := l.UpRateIdx }
    else r
  else r

/-- The end of a turn: what the index is now, against the one it was. -/
def RateState.settle (r : RateState) (hw : TxStaCnt) (CurrRateIdx : Nat) : Decision :=
  if CurrRateIdx < r.CurrTxRateIndex then
    let r := { r with
      CurrTxRateStableTime := 0, TxRateUpPenalty := 0, LastSecTxRateChangeAction := 1 }.clearHistory
    ⟨{ r with LastTxOkCount := hw.TxSuccess.setWidth 32 }.resetOneSecTxCnt,
      [CurrRateIdx, r.CurrTxRateIndex], some r.CurrTxRateIndex, true⟩
  else if r.CurrTxRateIndex < CurrRateIdx then
    let r := { r with
      CurrTxRateStableTime := 0, TxRateUpPenalty := 0, LastSecTxRateChangeAction := 2 }
    let r := (r.setQuality r.CurrTxRateIndex 0).setPER r.CurrTxRateIndex 0
    ⟨{ r with LastTxOkCount := hw.TxSuccess.setWidth 32 }.resetOneSecTxCnt,
      [CurrRateIdx, r.CurrTxRateIndex], some r.CurrTxRateIndex, true⟩
  else
    let r := { r with LastSecTxRateChangeAction := 0 }
    ⟨{ r with LastTxOkCount := hw.TxSuccess.setWidth 32 }.resetOneSecTxCnt, [CurrRateIdx], none,
      false⟩

/-- `CurrRateIdx`, which is kept within the table. -/
def currRateIdx (t : Table) (r : RateState) : Nat :=
  if t.size ≤ r.CurrTxRateIndex then t.size - 1 else r.CurrTxRateIndex

/-- Whether the entry's rate is another one than that of its index. -/
def outOfSync (behind : Behind) (t : Table) (e : Entry) : Bool :=
  e.HTPhyMode.MCS.toNat ≠ (record behind t (currRateIdx t e.rate)).CurrMCS.toNat

/-- An entry's turn, from the comparison of the real rate with the one on record. -/
def dynamicDecide (behind : Behind) (c : Config) (hw : TxStaCnt) (t : Table) (Rssi : Int)
    (l : Counts) (n : Neighbours) (MCS : BitVec 7) (r : RateState) : Decision :=
  let CurrRateIdx := currRateIdx t r
  let pCurrTxRate := record behind t CurrRateIdx
  if MCS.toNat ≠ pCurrTxRate.CurrMCS.toNat then
    ⟨{ r with CurrTxRateIndex := t.initTxRateIdx }.resetOneSecTxCnt,
      [CurrRateIdx, t.initTxRateIdx], some t.initTxRateIdx, false⟩
  else
    let n := n.next CurrRateIdx t.size
    let (TrainUp, TrainDown) := train Rssi pCurrTxRate
    let r := { r with LastTimeTxRateChangeAction := r.LastSecTxRateChangeAction }
    if l.TxTotalCnt ≤ 15 then
      let TxRateIdx := txRateIdxByRssi behind c t Rssi
      let r := { r with CurrTxRateIndex := TxRateIdx }.clearHistory
      ⟨{ r with fLastSecAccordingRSSI := true }.resetOneSecTxCnt,
        CurrRateIdx :: List.range t.size ++ [TxRateIdx], some TxRateIdx, false⟩
    else if r.fLastSecAccordingRSSI then
      ⟨{ r with fLastSecAccordingRSSI := false, LastSecTxRateChangeAction := 0 }.resetOneSecTxCnt,
        [CurrRateIdx], none, false⟩
    else
      let bTrainUpDown := TrainDown.setWidth 32 ≤ l.TxErrorRatio ∨
        l.TxErrorRatio ≤ TrainUp.setWidth 32
      let r := { r with CurrTxRateStableTime := r.CurrTxRateStableTime + 1 }
      let r := r.weigh l.TxErrorRatio TrainUp TrainDown CurrRateIdx n.UpRateIdx
      let r := r.setPER CurrRateIdx (l.TxErrorRatio.setWidth 8)
      (r.move bTrainUpDown CurrRateIdx n).settle hw CurrRateIdx

/-- Whether the counters of the hardware are the ones to go by. -/
def dynamicHardware (c : Config) (e : Entry) : Bool := c.macTabSize = 1 || e.EntryType = .dls

def dynamicRssi (c : Config) (i : Nat) (e : Entry) : Int :=
  if dynamicHardware c e || (c.infraOn && i = 1) then rtmpMaxRssi c c.RssiSample
  else rtmpMaxRssi c e.RssiSample

/-! ## `StaQuickResponeForRateUpExec` -/

/-- The fast routine ends with the first entry that has few transmissions. -/
def fewTransmissions (l : Counts) : Bool := l.TxTotalCnt ≤ 12

/-- Back to where the rate was. -/
def RateState.trainBack (r : RateState) (CurrRateIdx : Nat) (n : Neighbours) : RateState :=
  if r.LastSecTxRateChangeAction = 1 ∧ CurrRateIdx ≠ n.DownRateIdx then
    { r with CurrTxRateIndex := n.DownRateIdx }.setQuality CurrRateIdx drsTxQualityWorstBound
  else if r.LastSecTxRateChangeAction = 2 ∧ CurrRateIdx ≠ n.UpRateIdx then
    { r with CurrTxRateIndex := n.UpRateIdx }
  else r

/-- The `do` block: a change is taken back if it did no good. -/
def RateState.reconsider (r : RateState) (hw : TxStaCnt) (TxErrorRatio : BitVec 32)
    (TrainDown : BitVec 8) (CurrRateIdx : Nat) (n : Neighbours) : RateState :=
  let ratio : BitVec 32 := if r.LastTimeTxRateChangeAction = 0 then 5 else 4
  let r :=
    if TrainDown.setWidth 32 ≤ TxErrorRatio then r.setQuality CurrRateIdx drsTxQualityWorstBound
    else r
  let r := r.setPER CurrRateIdx (TxErrorRatio.setWidth 8)
  let OneSecTxNoRetryOKRationCount := hw.TxSuccess.setWidth 32 * ratio
  if r.LastSecTxRateChangeAction = 1 ∧ CurrRateIdx ≠ n.DownRateIdx then
    if OneSecTxNoRetryOKRationCount ≤ r.LastTxOkCount + 2 then
      { r with CurrTxRateIndex := n.DownRateIdx }.setQuality CurrRateIdx drsTxQualityWorstBound
    else r
  else if r.LastSecTxRateChangeAction = 2 ∧ CurrRateIdx ≠ n.UpRateIdx then
    if 50 ≤ TxErrorRatio ∨ TrainDown.setWidth 32 ≤ TxErrorRatio then r
    else if OneSecTxNoRetryOKRationCount ≤ r.LastTxOkCount + 2 then
      { r with CurrTxRateIndex := n.UpRateIdx }
    else r
  else r

def RateState.settleQuick (r : RateState) (CurrRateIdx : Nat) : Decision :=
  if CurrRateIdx < r.CurrTxRateIndex then
    ⟨{ r with TxRateUpPenalty := 0 }.clearHistory, [CurrRateIdx, r.CurrTxRateIndex],
      some r.CurrTxRateIndex, false⟩
  else if r.CurrTxRateIndex < CurrRateIdx then
    let r := { r with TxRateUpPenalty := 0 }
    ⟨(r.setQuality r.CurrTxRateIndex 0).setPER r.CurrTxRateIndex 0,
      [CurrRateIdx, r.CurrTxRateIndex], some r.CurrTxRateIndex, false⟩
  else ⟨r, [CurrRateIdx], none, false⟩

def quickDecide (behind : Behind) (hw : TxStaCnt) (t : Table) (Rssi : Int) (l : Counts)
    (n : Neighbours) (r : RateState) : Decision :=
  let CurrRateIdx := r.CurrTxRateIndex
  let (_, TrainDown) := train Rssi (record behind t CurrRateIdx)
  if fewTransmissions l then
    let r := r.clearHistory.trainBack CurrRateIdx n
    ⟨r, [CurrRateIdx, r.CurrTxRateIndex], some r.CurrTxRateIndex, false⟩
  else (r.reconsider hw l.TxErrorRatio TrainDown CurrRateIdx n).settleQuick CurrRateIdx

def quickHardware (c : Config) : Bool := c.macTabSize = 1

def quickRssi (c : Config) (i : Nat) (e : Entry) : Int :=
  if c.infraOn && i = 1 then rtmpMaxRssi c c.RssiSample else rtmpMaxRssi c e.RssiSample

/-! ## The loops -/

/-- An entry's turn: what there was, what the routine found of it, and what it did. -/
structure Turn where
  slot : Nat
  table : Table
  Rssi : Int
  counts : Counts
  neighbours : Neighbours
  old : Entry
  new : Entry
  reads : List Nat
  set : Option Nat

/-- What a loop carries from one entry to the next: the locals that are not set anew, and what it
writes besides the entry. The turns are recorded; behind a `return` there are no more. -/
structure Carry where
  shared : Shared
  counts : Counts
  neighbours : Neighbours
  turns : List Turn
  returned : Bool

/-- The rate state is stored, and the rate set. -/
def store (behind : Behind) (c : Config) (s : Shared) (t : Table) (e : Entry) (d : Decision) :
    Shared × Entry :=
  match d.set with
  | none => (s, { e with rate := d.rate })
  | some idx => mlmeSetTxRate c s { e with rate := d.rate } (record behind t idx)

def Carry.take (behind : Behind) (c : Config) (w : Carry) (i : Nat) (t : Table) (Rssi : Int)
    (e : Entry) (d : Decision) : Carry × Entry :=
  let (shared, new) := store behind c w.shared t e d
  let running := d.startTimer || shared.StaQuickResponeForRateUpTimerRunning
  ({ w with
    shared := { shared with StaQuickResponeForRateUpTimerRunning := running }
    turns := w.turns ++ [⟨i, t, Rssi, w.counts, w.neighbours, e, new, d.reads, d.set⟩] }, new)

/-- Which table `MlmeSelectTxRateTable` finds for the entry of a slot. -/
abbrev Select := Nat → Entry → Table

def dynamicTurn (behind : Behind) (c : Config) (hw : TxStaCnt) (select : Select) (w : Carry)
    (i : Nat) (e : Entry) : Carry × Entry :=
  if takesPart c e then
    let t := select i e
    let Rssi := dynamicRssi c i e
    let l := w.counts.next hw (dynamicHardware c e) e.rate
    let d := dynamicDecide behind c hw t Rssi l w.neighbours e.HTPhyMode.MCS e.rate
    let n := if outOfSync behind t e then w.neighbours
      else w.neighbours.next (currRateIdx t e.rate) t.size
    { w with counts := l, neighbours := n }.take behind c i t Rssi e d
  else (w, e)

def quickTurn (behind : Behind) (c : Config) (hw : TxStaCnt) (select : Select) (w : Carry)
    (i : Nat) (e : Entry) : Carry × Entry :=
  if w.returned then (w, e)
  else if takesPart c e then
    let t := select i e
    let Rssi := quickRssi c i e
    let l := w.counts.next hw (quickHardware c) e.rate
    let n := w.neighbours.next e.rate.CurrTxRateIndex t.size
    let d := quickDecide behind hw t Rssi l n e.rate
    { w with counts := l, neighbours := n, returned := fewTransmissions l }.take behind c i t Rssi e d
  else (w, e)

/-- The counters of the hardware are added to those of the adapter. -/
def Shared.count (s : Shared) (hw : TxStaCnt) : Shared :=
  { s with
    OneSecTxRetryOkCount := s.OneSecTxRetryOkCount + hw.TxRetransmit.setWidth 32
    OneSecTxNoRetryOkCount := s.OneSecTxNoRetryOkCount + hw.TxSuccess.setWidth 32
    OneSecTxFailCount := s.OneSecTxFailCount + hw.TxFailCount.setWidth 32 }

def Carry.start (s : Shared) (hw : TxStaCnt) : Carry :=
  ⟨s.count hw, ⟨hw.total, 0⟩, ⟨0, 0⟩, [], false⟩

/-- The slots from 1 up to but not including `MAX_LEN_OF_MAC_TABLE`. -/
def slots : List Nat := List.range' 1 31

def mlmeDynamicTxRateSwitching (behind : Behind) (c : Config) (hw : TxStaCnt) (select : Select)
    (a : Adapter) : Adapter × List Turn :=
  if c.ateOn then (a, [])
  else
    let (w, content) :=
      sweep (dynamicTurn behind c hw select) slots (Carry.start a.shared hw) a.content
    (⟨w.shared, content⟩, w.turns)

section

variable {behind : Behind} {c : Config} {hw : TxStaCnt} {select : Select} {a : Adapter}

theorem mlmeDynamicTxRateSwitching_off (h : c.ateOn = true) :
    mlmeDynamicTxRateSwitching behind c hw select a = (a, []) := if_pos h

theorem mlmeDynamicTxRateSwitching_on (h : c.ateOn = false) :
    mlmeDynamicTxRateSwitching behind c hw select a =
      let s := sweep (dynamicTurn behind c hw select) slots (Carry.start a.shared hw) a.content
      (⟨s.1.shared, s.2⟩, s.1.turns) := if_neg (by simp [h])

end

def staQuickResponeForRateUpExec (behind : Behind) (c : Config) (hw : TxStaCnt) (select : Select)
    (a : Adapter) : Adapter × List Turn :=
  let s := { a.shared with StaQuickResponeForRateUpTimerRunning := false }
  let (w, content) := sweep (quickTurn behind c hw select) slots (Carry.start s hw) a.content
  (⟨w.shared, content⟩, w.turns)

end ExtDrv.Rt3370.RateSwitch
