import ExtDrv.HiI2c.I2c

/-!
# Writing and reading back

A controller that finishes each command before the driver's patience ends puts
on the bus what the routines hand it, in order. On a memory, the word that
`I2C_DRV_Write` stored comes back from `I2C_DRV_Read`, cut to its bytes.
-/

namespace ExtDrv.HiI2c

open ByteMemory

/-! ## Flags and polls -/

/-- Every command is over, and every byte is in, before the polls give up. -/
structure Latency.InTime (lat : Latency) : Prop where
  overIntr : ∀ n, lat.overIntr n ≤ I2C_WAIT_TIME_OUT
  receive : ∀ n, lat.receive n ≤ I2C_WAIT_TIME_OUT

/-- The flag is up, or comes up within `n` more reads after the next. -/
def Flag.Coming (f : Flag) (n : Nat) : Prop := f = ⟨true, none⟩ ∨ ∃ k ≤ n, f = ⟨false, some k⟩

theorem Flag.Coming.tick_zero {f : Flag} (h : f.Coming 0) : f.tick = ⟨true, none⟩ := by
  obtain rfl | ⟨k, hk, rfl⟩ := h
  · rfl
  · obtain rfl : k = 0 := by omega
    rfl

theorem Flag.Coming.tick_succ {f : Flag} {n : Nat} (h : f.Coming (n + 1)) : f.tick.Coming n := by
  obtain rfl | ⟨k, hk, rfl⟩ := h
  · exact .inl rfl
  · cases k with
    | zero => exact .inl rfl
    | succ k => exact .inr ⟨k, by omega, rfl⟩

theorem Flag.Coming.tick {f : Flag} {n : Nat} (h : f.Coming n) : f.tick.Coming n := by
  obtain rfl | ⟨k, hk, rfl⟩ := h
  · exact .inl rfl
  · cases k with
    | zero => exact .inl rfl
    | succ k => exact .inr ⟨k, by omega, rfl⟩

/-- A flag that is seen up has nothing left to wait for. -/
theorem Flag.Coming.eq_of_up {f : Flag} {n : Nat} (h : f.Coming n) (hup : f.up = true) :
    f = ⟨true, none⟩ := by
  obtain rfl | ⟨k, hk, rfl⟩ := h
  · rfl
  · cases hup

theorem Flag.tick_of_due {f : Flag} (h : f.due = none) : f.tick = f := by
  simp [Flag.tick, h]

/-- The two states have the same bus, memory and incoming byte. -/
structure SameBus (h h' : I2c) : Prop where
  bus : h'.bus = h.bus
  cells : h'.cells = h.cells
  shifted : h'.shifted = h.shifted

theorem SameBus.trans {h h' h'' : I2c} (a : SameBus h h') (b : SameBus h' h'') : SameBus h h'' :=
  ⟨b.bus.trans a.bus, b.cells.trans a.cells, b.shifted.trans a.shifted⟩

theorem readSr_sameBus (h : I2c) : SameBus h (readSr h) := ⟨rfl, rfl, rfl⟩

/-- **Waiting for the end**: the poll finds the flag, and lets nothing else
happen on a controller that has nothing to receive. -/
theorem pollFor_over {n : Nat} {h : I2c} (hover : h.overIntr.Coming n) (hrec : h.receive.due = none) :
    (pollFor I2c.overIntr (n + 1) h).1 = 0
      ∧ (pollFor I2c.overIntr (n + 1) h).2.overIntr = ⟨true, none⟩
      ∧ (pollFor I2c.overIntr (n + 1) h).2.receive = h.receive
      ∧ SameBus h (pollFor I2c.overIntr (n + 1) h).2 := by
  have htick : (readSr h).receive = h.receive := Flag.tick_of_due hrec
  induction n generalizing h with
  | zero =>
    have hup : (readSr h).overIntr = ⟨true, none⟩ := hover.tick_zero
    rw [pollFor, if_pos (congrArg Flag.up hup)]
    exact ⟨rfl, hup, htick, readSr_sameBus h⟩
  | succ n ih =>
    have hnext : (readSr h).overIntr.Coming n := hover.tick_succ
    rw [pollFor]
    by_cases hup : (readSr h).overIntr.up = true
    · rw [if_pos hup]
      exact ⟨rfl, hnext.eq_of_up hup, htick, readSr_sameBus h⟩
    · rw [if_neg hup]
      have hrec' : (readSr h).receive.due = none := by rw [htick]; exact hrec
      obtain ⟨hret, hover', hrec'', hsame⟩ := ih hnext hrec' (Flag.tick_of_due hrec')
      exact ⟨hret, hover', hrec''.trans htick, (readSr_sameBus h).trans hsame⟩

/-- **Waiting for a byte**: the poll finds the flag with the byte in the register;
the end of the command is still coming. -/
theorem pollFor_receive {n m : Nat} {h : I2c} (hrec : ∃ k ≤ n, h.receive = ⟨false, some k⟩)
    (hover : h.overIntr.Coming m) :
    (pollFor I2c.receive (n + 1) h).2.receive = ⟨true, none⟩
      ∧ (pollFor I2c.receive (n + 1) h).2.RXR = h.shifted.setWidth 32
      ∧ (pollFor I2c.receive (n + 1) h).2.overIntr.Coming m
      ∧ SameBus h (pollFor I2c.receive (n + 1) h).2 := by
  induction n generalizing h with
  | zero =>
    obtain ⟨k, hk, hreceive⟩ := hrec
    obtain rfl : k = 0 := by omega
    have hup : (readSr h).receive = ⟨true, none⟩ := by simp [readSr, hreceive, Flag.tick]
    rw [pollFor, if_pos (congrArg Flag.up hup)]
    exact ⟨hup, by simp [readSr, hreceive], hover.tick, readSr_sameBus h⟩
  | succ n ih =>
    obtain ⟨k, hk, hreceive⟩ := hrec
    rw [pollFor]
    cases k with
    | zero =>
      have hup : (readSr h).receive = ⟨true, none⟩ := by simp [readSr, hreceive, Flag.tick]
      rw [if_pos (congrArg Flag.up hup)]
      exact ⟨hup, by simp [readSr, hreceive], hover.tick, readSr_sameBus h⟩
    | succ k =>
      have hdown : (readSr h).receive = ⟨false, some k⟩ := by simp [readSr, hreceive, Flag.tick]
      rw [if_neg (by rw [hdown]; exact Bool.false_ne_true)]
      obtain ⟨hup, hrxr, hover', hsame⟩ := ih ⟨k, by omega, hdown⟩ hover.tick
      exact ⟨hup, hrxr, hover', (readSr_sameBus h).trans hsame⟩

/-- The controller is done and both flags are down. -/
structure Quiet (h : I2c) : Prop where
  overIntr : h.overIntr = ⟨false, none⟩
  receive : h.receive = ⟨false, none⟩

theorem Quiet.writeIcr {h : I2c} (hq : Quiet h) (v : BitVec 32) : writeIcr v h = h := by
  cases h
  cases hq.overIntr
  cases hq.receive
  rfl

theorem writeIcr_all (h : I2c) :
    writeIcr I2C_CLEAR_ALL h
      = { h with
          overIntr := { h.overIntr with up := false }
          receive := { h.receive with up := false } } := by
  have hover : (I2C_CLEAR_ALL &&& I2C_CLEAR_OVER == 0) = false := by decide
  have hreceive : (I2C_CLEAR_ALL &&& I2C_CLEAR_RECEIVE == 0) = false := by decide
  simp only [writeIcr, hover, hreceive, Bool.and_false]

/-- **The end of a command**, with nothing to receive any more: both flags are
down and the bus is as it was. -/
theorem waitWriteEnd_quiet {h : I2c} (hover : h.overIntr.Coming I2C_WAIT_TIME_OUT)
    (hrec : h.receive.due = none) :
    Quiet (i2cDrvWaitWriteEnd h).2 ∧ SameBus h (i2cDrvWaitWriteEnd h).2 := by
  obtain ⟨hret, hup, hrec', hsame⟩ := pollFor_over hover hrec
  simp only [i2cDrvWaitWriteEnd, hret, ne_eq, not_true_eq_false, if_false, writeIcr_all]
  exact ⟨⟨by rw [hup], by rw [hrec', hrec]⟩, ⟨hsame.bus, hsame.cells, hsame.shifted⟩⟩

/-! ## Commands -/

section

variable {D : Device} {lat : Latency}

/-- The controller is ready for a command: nothing is under way, and the flag that
ends it is down. -/
structure Ready (h : I2c) : Prop where
  overIntr : h.overIntr = ⟨false, none⟩
  receive : h.receive.due = none

theorem Quiet.ready {h : I2c} (hq : Quiet h) : Ready h := ⟨hq.overIntr, by rw [hq.receive]⟩

/-- From one state to the next, the master did `syms` on the bus, after which the
memory is at `c`, and the controller is quiet again. -/
structure Did (h h' : I2c) (syms : List Symbol) (c : Cells) : Prop where
  quiet : Quiet h'
  bus : h'.bus = h.bus ++ syms
  cells : h'.cells = c

theorem Did.trans {h h' h'' : I2c} {syms syms' : List Symbol} {c c' : Cells}
    (a : Did h h' syms c) (b : Did h' h'' syms' c') : Did h h'' (syms ++ syms') c' :=
  ⟨b.quiet, by rw [b.bus, a.bus, List.append_assoc], b.cells⟩

/-- A byte that is sent. -/
theorem did_send (hlat : lat.InTime) {h : I2c} (hr : Ready h) (v : BitVec 32) :
    Did h (sendWith D lat I2C_WRITE v h) [.sent (v.setWidth 8)] (h.cells.hear D (v.setWidth 8)) := by
  have hcom : writeCom D lat I2C_WRITE (writeTxr v h)
      = { busSend D (writeTxr v h) with
          overIntr := { h.overIntr with due := some (lat.overIntr h.commands) }
          commands := h.commands + 1 } := rfl
  have hcoming : (writeCom D lat I2C_WRITE (writeTxr v h)).overIntr.Coming I2C_WAIT_TIME_OUT :=
    .inr ⟨_, hlat.overIntr h.commands, by rw [hcom, hr.overIntr]⟩
  obtain ⟨hq, hsame⟩ := waitWriteEnd_quiet hcoming hr.receive
  exact ⟨hq, hsame.bus, hsame.cells⟩

/-- A byte that is sent after a start. -/
theorem did_start (hlat : lat.InTime) {h : I2c} (hr : Ready h) (v : BitVec 32) :
    Did h (sendWith D lat (I2C_WRITE ||| I2C_START) v h) [.start, .sent (v.setWidth 8)]
      (h.cells.hearStart.hear D (v.setWidth 8)) := by
  have hcom : writeCom D lat (I2C_WRITE ||| I2C_START) (writeTxr v h)
      = { busSend D (busStart (writeTxr v h)) with
          overIntr := { h.overIntr with due := some (lat.overIntr h.commands) }
          commands := h.commands + 1 } := rfl
  have hcoming : (writeCom D lat (I2C_WRITE ||| I2C_START) (writeTxr v h)).overIntr.Coming
      I2C_WAIT_TIME_OUT := .inr ⟨_, hlat.overIntr h.commands, by rw [hcom, hr.overIntr]⟩
  obtain ⟨hq, hsame⟩ := waitWriteEnd_quiet hcoming hr.receive
  refine ⟨hq, ?_, hsame.cells⟩
  rw [sendWith, hsame.bus, hcom]
  simp [busSend, busStart, writeTxr]

/-- A stop. -/
theorem did_stop (hlat : lat.InTime) {h : I2c} (hq : Quiet h) :
    Did h (i2cDrvWaitWriteEnd (writeCom D lat I2C_STOP h)).2 [.stop] h.cells.hearStop := by
  have hcom : writeCom D lat I2C_STOP h
      = { busStop h with
          overIntr := { h.overIntr with due := some (lat.overIntr h.commands) }
          commands := h.commands + 1 } := rfl
  have hcoming : (writeCom D lat I2C_STOP h).overIntr.Coming I2C_WAIT_TIME_OUT :=
    .inr ⟨_, hlat.overIntr h.commands, by rw [hcom, hq.overIntr]⟩
  obtain ⟨hq', hsame⟩ := waitWriteEnd_quiet hcoming hq.ready.receive
  exact ⟨hq', hsame.bus, hsame.cells⟩

/-- Bytes that are sent one after the other. -/
theorem did_sends {send : I2c → BitVec 32 → I2c}
    (hsend : ∀ h v, Quiet h →
      Did h (send h v) [.sent (v.setWidth 8)] (h.cells.hear D (v.setWidth 8)))
    (vs : List (BitVec 32)) {h : I2c} (hq : Quiet h) :
    Did h (vs.foldl send h) ((vs.map (BitVec.setWidth 8)).map Symbol.sent)
      ((vs.map (BitVec.setWidth 8)).foldl (Cells.hear D) h.cells) := by
  induction vs generalizing h with
  | nil => exact ⟨hq, by simp, rfl⟩
  | cons v vs ih =>
    have hv := hsend h v hq
    have hrest := hv.trans (ih hv.quiet)
    rw [hv.cells] at hrest
    exact hrest

/-- The bytes of a word, sent by a loop over its length. -/
theorem did_word (send : I2c → BitVec 32 → I2c)
    (hsend : ∀ h v, Quiet h →
      Did h (send h v) [.sent (v.setWidth 8)] (h.cells.hear D (v.setWidth 8)))
    (w : BitVec 32) (n : Nat) {h : I2c} (hq : Quiet h) :
    Did h ((List.range n).foldl (fun h i => send h (w >>> ((n - i - 1) * 8))) h)
      ((bytesBE n w).map .sent) ((bytesBE n w).foldl (Cells.hear D) h.cells) := by
  have hall := did_sends hsend ((List.range n).map fun i => w >>> ((n - i - 1) * 8)) hq
  have hbytes : ((List.range n).map fun i => w >>> ((n - i - 1) * 8)).map (BitVec.setWidth 8)
      = bytesBE n w := by
    rw [List.map_map]
    rfl
  rw [List.foldl_map, hbytes] at hall
  exact hall

/-! ## The transfers -/

theorem device_byte (dev : BitVec 8) :
    (dev.setWidth 32 &&& WRITE_OPERATION).setWidth 8 = dev &&& 0xfe#8
      ∧ (dev.setWidth 32 ||| READ_OPERATION).setWidth 8 = dev ||| 1#8 := by
  revert dev
  decide +kernel

theorem device_bits (dev : BitVec 8) :
    ((dev &&& 0xfe#8) >>> 1).setWidth 7 = (dev >>> 1).setWidth 7
      ∧ ((dev ||| 1#8) >>> 1).setWidth 7 = (dev >>> 1).setWidth 7
      ∧ (dev &&& 0xfe#8).getLsbD 0 = false ∧ (dev ||| 1#8).getLsbD 0 = true := by
  revert dev
  decide +kernel

/-- The number that a register address makes in the pointer of the memory. -/
def pointerOf (reg : BitVec 32) (n : Nat) : Nat :=
  (bytesBE n reg).foldl (fun p b => p * 256 + b.toNat) 0

/-- What both transfers begin with on the bus. -/
def addressSymbols (dev : BitVec 8) (reg : BitVec 32) (n : Nat) : List Symbol :=
  [.start, .sent (dev &&& 0xfe#8)] ++ (bytesBE n reg).map .sent

/-- **The address**: the memory it names stands ready to store, its pointer at the
register. -/
theorem did_address (hlat : lat.InTime) {h : I2c} (hover : h.overIntr.due = none)
    (hrec : h.receive.due = none) {dev : BitVec 8} (hown : D.own = (dev >>> 1).setWidth 7)
    (reg : BitVec 32) :
    Did h (sendAddress D lat dev reg D.addrBytes h) (addressSymbols dev reg D.addrBytes)
      { cell := h.cells.cell, pointer := pointerOf reg D.addrBytes, phase := .writing 0 } := by
  have hready : Ready (writeCtrl 0x187 (writeIcr 0x03 h)) := by
    refine ⟨?_, hrec⟩
    show (⟨h.overIntr.up && (0x03#32 &&& I2C_CLEAR_OVER == 0), h.overIntr.due⟩ : Flag) = _
    rw [hover, show (0x03#32 &&& I2C_CLEAR_OVER == 0) = false by decide, Bool.and_false]
  have hstart := did_start (D := D) hlat hready (dev.setWidth 32 &&& WRITE_OPERATION)
  rw [(device_byte dev).1] at hstart
  have hword := did_word (D := D) (fun h v => sendWith D lat I2C_WRITE v h)
    (fun h v hq => did_send hlat hq.ready v) reg D.addrBytes hstart.quiet
  have hall := hstart.trans hword
  -- the memory hears its own address with the direction of a write
  have hcalled : Cells.hear D (writeCtrl 0x187 (writeIcr 0x03 h)).cells.hearStart (dev &&& 0xfe#8)
      = { cell := h.cells.cell, pointer := 0, phase := .writing D.addrBytes } := by
    obtain ⟨hbits, -, hdir, -⟩ := device_bits dev
    show (if _ then _ else _) = _
    rw [if_neg (by rw [hbits, hown]; exact not_not_intro rfl), hdir]
    rfl
  obtain ⟨hcell, hphase, hpointer⟩ := hear_address D (bytesBE D.addrBytes reg)
    (c := { cell := h.cells.cell, pointer := 0, phase := .writing D.addrBytes })
    (show Phase.writing D.addrBytes = .writing (0 + (bytesBE D.addrBytes reg).length) by simp)
  refine ⟨hall.quiet, hall.bus, hall.cells.trans ?_⟩
  rw [hstart.cells, hcalled]
  generalize List.foldl (Cells.hear D) _ _ = c at hcell hphase hpointer
  cases c
  cases hcell
  cases hphase
  cases hpointer
  rfl

/-- **The write transfer**. -/
theorem did_write (hlat : lat.InTime) {h : I2c} (hover : h.overIntr.due = none)
    (hrec : h.receive.due = none) {dev : BitVec 8} (hown : D.own = (dev >>> 1).setWidth 7)
    (reg data : BitVec 32) (n : Nat) :
    Did h (i2cDrvWrite D lat dev reg D.addrBytes data n h).2
      (addressSymbols dev reg D.addrBytes ++ (bytesBE n data).map .sent ++ [.stop])
      (((bytesBE n data).foldl (Cells.hear D)
        { cell := h.cells.cell, pointer := pointerOf reg D.addrBytes, phase := .writing 0 }).hearStop)
    := by
  have haddr := did_address hlat hover hrec hown reg
  have hdata := did_word (D := D)
    (fun h v => writeIcr I2C_CLEAR_ALL (sendWith D lat I2C_WRITE v h))
    (fun h v hq => by
      have hv := did_send (D := D) hlat hq.ready v
      simpa only [hv.quiet.writeIcr] using hv) data n haddr.quiet
  rw [haddr.cells] at hdata
  have hstop := did_stop (D := D) hlat hdata.quiet
  rw [hdata.cells] at hstop
  have hall := (haddr.trans hdata).trans hstop
  simpa only [i2cDrvWrite, hstop.quiet.writeIcr] using hall

/-- The command for a byte takes it from the memory; the last one goes without an
ACK. -/
theorem writeCom_read (h : I2c) (n i : Nat) :
    writeCom D lat (if i = n - 1 then I2C_READ ||| ~~~I2C_SEND_ACK else I2C_READ) h
      = { busReceive D lat (decide (i ≠ n - 1)) h with
          overIntr := { h.overIntr with due := some (lat.overIntr h.commands) }
          commands := h.commands + 1 } := by
  by_cases hi : i = n - 1
  · rw [if_pos hi, decide_eq_false (not_not_intro hi)]
    rfl
  · rw [if_neg hi, decide_eq_true hi]
    rfl

/-- **A byte that is received**: it is the memory's answer, put into its place. -/
theorem did_receive (hlat : lat.InTime) {h : I2c} (hq : Quiet h)
    (hphase : h.cells.phase = .answering) (Data : BitVec 32) (n i : Nat) :
    (readTurn D lat n (Data, h) i).1
        = Data ||| (h.cells.cell (h.cells.pointer % D.size)).setWidth 32 <<< ((n - i - 1) * 8)
      ∧ Did h (readTurn D lat n (Data, h) i).2
        [.received (h.cells.cell (h.cells.pointer % D.size)) (decide (i ≠ n - 1))]
        { h.cells with
          pointer := h.cells.pointer + 1
          phase := if i = n - 1 then .deaf else .answering } := by
  obtain ⟨hanswer, hanswered⟩ := answered_eq D hphase (decide (i ≠ n - 1))
  have hcom := @writeCom_read D lat h n i
  rw [readTurn]
  generalize writeCom D lat (if i = n - 1 then I2C_READ ||| ~~~I2C_SEND_ACK else I2C_READ) h = h'
    at hcom
  have hrec : ∃ k ≤ I2C_WAIT_TIME_OUT, h'.receive = ⟨false, some k⟩ :=
    ⟨_, hlat.receive h.commands, by rw [hcom]; simp [busReceive, hq.receive]⟩
  have hover : h'.overIntr.Coming I2C_WAIT_TIME_OUT :=
    .inr ⟨_, hlat.overIntr h.commands, by rw [hcom, hq.overIntr]⟩
  obtain ⟨hup, hrxr, hcoming, hsame⟩ := pollFor_receive hrec hover
  obtain ⟨hquiet, hend⟩ := waitWriteEnd_quiet hcoming (by rw [hup])
  have hbus := hsame.trans hend
  refine ⟨?_, hquiet, ?_, ?_⟩
  · show Data ||| (pollFor I2c.receive (I2C_WAIT_TIME_OUT + 1) h').2.RXR <<< _ = _
    rw [hrxr, hcom]
    simp only [busReceive, hanswer]
  · rw [i2cDrvWaitRead, hbus.bus, hcom]
    simp only [busReceive, hanswer]
  · rw [i2cDrvWaitRead, hbus.cells, hcom]
    simp only [busReceive, hanswered]
    by_cases hi : i = n - 1 <;> simp [hi]

/-- **The read loop**: after `m` of its `n` turns the first `m` bytes are in their
places, and the memory answers on as long as there are turns left. -/
theorem did_receives (hlat : lat.InTime) {h : I2c} (hq : Quiet h)
    (hphase : h.cells.phase = .answering) (n : Nat) {m : Nat} (hm : m ≤ n) :
    ((List.range m).foldl (readTurn D lat n) (0, h)).1
        = gather n (fun i => h.cells.cell ((h.cells.pointer + i) % D.size)) m
      ∧ Did h ((List.range m).foldl (readTurn D lat n) (0, h)).2
        ((List.range m).map fun i =>
          .received (h.cells.cell ((h.cells.pointer + i) % D.size)) (decide (i ≠ n - 1)))
        { h.cells with
          pointer := h.cells.pointer + m
          phase := if 0 < m ∧ m = n then .deaf else .answering } := by
  induction m with
  | zero =>
    refine ⟨rfl, hq, by simp, ?_⟩
    simp [← hphase]
  | succ m ih =>
    obtain ⟨hdata, hdid⟩ := ih (by omega)
    rw [List.range_succ, List.foldl_append, List.foldl_cons, List.foldl_nil]
    generalize (List.range m).foldl (readTurn D lat n) (0, h) = r at hdata hdid
    obtain ⟨Data, h'⟩ := r
    have hgo : ¬ (0 < m ∧ m = n) := by omega
    have hcells := hdid.cells
    rw [if_neg hgo] at hcells
    have hphase' : h'.cells.phase = .answering := by rw [hcells]
    obtain ⟨hturn, hnext⟩ := did_receive hlat hdid.quiet hphase' Data n m
    rw [hcells] at hturn hnext
    refine ⟨?_, ?_⟩
    · rw [hturn, gather_succ]
      exact congrArg (· ||| _) hdata
    · rw [List.map_append]
      have hlast : (m = n - 1) ↔ (0 < m + 1 ∧ m + 1 = n) := by omega
      have hall := hdid.trans hnext
      simp only [hlast] at hall
      exact hall

/-- **The read transfer**: the bytes it puts on the bus and the word it returns,
from the cells at the register's pointer. -/
theorem did_read (hlat : lat.InTime) {h : I2c} (hover : h.overIntr.due = none)
    (hrec : h.receive.due = none) {dev : BitVec 8} (hown : D.own = (dev >>> 1).setWidth 7)
    (reg : BitVec 32) (n : Nat) :
    (i2cDrvRead D lat dev reg D.addrBytes n h).1
        = gather n (fun i => h.cells.cell ((pointerOf reg D.addrBytes + i) % D.size)) n
      ∧ (i2cDrvRead D lat dev reg D.addrBytes n h).2.bus
        = h.bus ++ addressSymbols dev reg D.addrBytes ++ [.start, .sent (dev ||| 1#8)]
          ++ ((List.range n).map fun i =>
            .received (h.cells.cell ((pointerOf reg D.addrBytes + i) % D.size))
              (decide (i ≠ n - 1)))
          ++ [.stop] := by
  have haddr := did_address hlat hover hrec hown reg
  have hstart := did_start (D := D) hlat haddr.quiet.ready (dev.setWidth 32 ||| READ_OPERATION)
  rw [(device_byte dev).2, haddr.cells] at hstart
  -- the memory hears its own address with the direction of a read
  have hcalled : Cells.hear D
      (Cells.hearStart ⟨h.cells.cell, pointerOf reg D.addrBytes, .writing 0⟩) (dev ||| 1#8)
      = ⟨h.cells.cell, pointerOf reg D.addrBytes, .answering⟩ := by
    obtain ⟨-, hbits, -, hdir⟩ := device_bits dev
    show (if _ then _ else _) = _
    rw [if_neg (by rw [hbits, hown]; exact not_not_intro rfl), hdir]
    rfl
  rw [hcalled] at hstart
  obtain ⟨hdata, hdid⟩ := did_receives (D := D) hlat hstart.quiet (by rw [hstart.cells]) n
    (le_refl n)
  have hstop := did_stop (D := D) hlat hdid.quiet
  rw [hstart.cells] at hdata
  refine ⟨hdata, ?_⟩
  have hbus := (((haddr.trans hstart).trans hdid).trans hstop).bus
  rw [hstart.cells] at hbus
  refine Eq.trans hbus ?_
  simp only [List.append_assoc]

end

/-! ## The round trip -/

/-- **Write and read back**: on a controller that is idle and in time, and a memory
with the device's address and register addresses of this length that has room for
the data, a write puts on the bus the device address, the register address and the
data word, each most significant byte first, and a read of the same register then
returns the data word cut to its bytes; both also as ioctls. -/
theorem i2c_round_trip (D : Device) (lat : Latency) (hlat : lat.InTime) (h : I2c)
    (hover : h.overIntr.due = none) (hrec : h.receive.due = none) (arg : I2cData)
    (hown : D.own = (arg.dev_addr >>> 1).setWidth 7)
    (haddr : D.addrBytes = arg.addr_byte.toNat) (hroom : arg.data_byte.toNat ≤ D.size) :
    let n := arg.data_byte.toNat
    let wrote := i2cDrvWrite D lat arg.dev_addr arg.reg_addr arg.addr_byte.toNat arg.data n h
    wrote.2.bus
        = h.bus ++ [.start, .sent (arg.dev_addr &&& 0xfe#8)]
          ++ (bytesBE arg.addr_byte.toNat arg.reg_addr).map .sent
          ++ (bytesBE n arg.data).map .sent ++ [.stop]
      ∧ (i2cDrvRead D lat arg.dev_addr arg.reg_addr arg.addr_byte.toNat n wrote.2).1
        = BitVec.ofNat 32 (arg.data.toNat % 256 ^ n)
      ∧ (i2cIoctl D lat I2C_CMD_WRITE arg h).2.2 = wrote.2
      ∧ (i2cIoctl D lat I2C_CMD_READ arg wrote.2).2.1.data
        = BitVec.ofNat 32 (arg.data.toNat % 256 ^ n) := by
  intro n wrote
  have hwrite := did_write (D := D) hlat hover hrec hown arg.reg_addr arg.data n
  rw [haddr] at hwrite
  have hread := (did_read (D := D) hlat (h := wrote.2) (by rw [hwrite.quiet.overIntr])
    (by rw [hwrite.quiet.receive]) hown arg.reg_addr n).1
  rw [haddr, hwrite.cells] at hread
  -- the cells from the register's pointer on hold the bytes of the data word
  have hstored := (hear_data D (bytesBE n arg.data)
    (c := ⟨h.cells.cell, pointerOf arg.reg_addr arg.addr_byte.toNat, .writing 0⟩) rfl
    (by simpa using hroom)).1
  have hword : (i2cDrvRead D lat arg.dev_addr arg.reg_addr arg.addr_byte.toNat n wrote.2).1
      = BitVec.ofNat 32 (arg.data.toNat % 256 ^ n) := by
    rw [hread, ← gather_bytesBE]
    refine gather_congr fun i hi => ?_
    have hcell := hstored i (by simpa using hi)
    refine hcell.trans (Option.some.inj ?_)
    rw [← List.getElem?_eq_getElem, getElem?_bytesBE hi]
  refine ⟨?_, hword, rfl, hword⟩
  rw [hwrite.bus, addressSymbols]
  simp only [List.append_assoc]

/-- A memory of 256 bytes behind address 0xa0, one address byte, on a controller
that takes its time. -/
theorem i2c_round_trip_eeprom :
    let D : Device := ⟨0x50, 1, 256⟩
    let lat : Latency := ⟨fun n => n % 4, fun _ => 0⟩
    let h : I2c := ⟨0, 0, 0, ⟨true, none⟩, ⟨false, none⟩, 0, 0, [], ⟨fun _ => 0xff, 0, .deaf⟩⟩
    let arg : I2cData := ⟨0xa0, 0xff, 1, 0x11223344, 3⟩
    (i2cIoctl D lat I2C_CMD_READ arg (i2cIoctl D lat I2C_CMD_WRITE arg h).2.2).2.1.data
      = 0x223344 := by
  intro D lat h arg
  have hlat : lat.InTime :=
    ⟨fun n => (Nat.mod_lt n (by decide)).le.trans (by decide), fun _ => Nat.zero_le _⟩
  have hall := i2c_round_trip D lat hlat h rfl rfl arg (by decide) rfl (by decide)
  rw [hall.2.2.1, hall.2.2.2]
  decide

end ExtDrv.HiI2c
