import ExtDrv.GpioI2c.Routines

/-!
# Whole transfers

The three transfers of `gpio_i2c.c`, from an idle bus, and how their edges
read. The reads are what they should be; the write never lets go of the data
line for the last ninth clock, since the call that would is commented out.
-/

namespace ExtDrv.GpioI2c

open I2cBus

/-! ## Idle to idle -/

theorem idleBus_has (g : IdleGpio) : Has (idleBus g) true true true [] :=
  ⟨g.2.scl_out, g.2.scl_high, g.2.sda_out, g.2.sda_high, rfl⟩

theorem Has.idle {b : Bus} {h : Log} (hb : Has b true true true h) : b.gpio.Idle :=
  ⟨hb.scl_out, hb.sda_out, hb.scl_bit, hb.sda_bit⟩

theorem write_gpio (S : Slave) (b : Bus) (g : Gpio) : (b.write S g).gpio = g := by
  unfold Bus.write
  split <;> rfl

/-- `gpio_i2c_init` makes the pins idle, whatever they were. -/
theorem init_idle (S : Slave) (b : Bus) : (i2cSet S (SDA ||| SCL) b).gpio.Idle := by
  constructor <;>
    simp [i2cSet, isLine, driveTo, dirOut, write_gpio, Gpio.writeData, SCL, SDA, SCL_SHIFT_NUM,
      SDA_SHIFT_NUM]

/-! ## The address phase -/

/-- What every transfer begins with: a start, the two bytes and the clocks
after them. -/
def addressPhase (S : Slave) (devaddress address : BitVec 8) (b : Bus) : Bus :=
  let b := i2cStartBit S b
  let b := i2cSendByte S devaddress b
  let b := (i2cReceiveAck S b).2
  let b := i2cSendByte S address b
  (i2cReceiveAck S b).2

/-- The edges of the address phase. -/
def addressLog (devaddress address : BitVec 8) (a₁ a₂ : Bool) : Log :=
  [(.start, false), (.fall, false)] ++ byteClocks false devaddress a₁ true
    ++ byteClocks false address a₂ true

theorem decode_addressLog (devaddress address : BitVec 8) (a₁ a₂ : Bool) (h : Log) :
    decode (addressLog devaddress address a₁ a₂ ++ h)
      = .start :: .byte devaddress a₁ true :: .byte address a₂ true :: decodeFrom [] h := by
  rw [addressLog, List.append_assoc, List.append_assoc]
  show .start :: decodeFrom [] (byteClocks false devaddress a₁ true ++ _) = _
  rw [decodeFrom_byteClocks, decodeFrom_byteClocks]

section Quiet

variable {ι : Type*} {T : ι → Log} {h : Log} {starts f : Nat}

/-- A slave that is quiet in the slots of some bits leaves the line alone for
them, where they are part of the transfer. -/
theorem quietFor_of_slots {S : Slave} {bits : List Bool} (hp : position h.edges = ⟨starts, f⟩)
    (hq : ∀ k, k < bits.length → S.QuietAt T ⟨starts, f + k⟩)
    (hh : Heard T (h ++ clocked false bits).edges) : QuietFor S h bits := by
  intro k hk
  rw [clocked_take false bits k, ← List.append_assoc] at hh
  have hpos := position_clocked h false (bits.take k) hp
  rw [List.length_take, Nat.min_eq_left (Nat.le_of_lt hk)] at hpos
  exact hq k hk _ hh.of_append hpos

/-- A listener leaves the line alone in the eight slots of a byte. -/
theorem quietFor_byte (S : Listener T) {c : BitVec 8} (hp : position h.edges = ⟨1, f⟩)
    (hf : f % 9 = 1) (hh : Heard T (h ++ clocked false (toBits c)).edges) :
    QuietFor S.toSlave h (toBits c) := by
  refine quietFor_of_slots hp (fun k hk => S.listens _ ?_) hh
  rw [length_toBits] at hk
  omega

/-- An answerer shifts its byte out behind the address. -/
theorem shifts_answer {v : BitVec 8} (S : Answerer T v) (hp : position h.edges = ⟨2, 10⟩)
    (hh : Heard T (h ++ clocked true (toBits v)).edges) : Shifts S.toSlave h v := by
  intro i hi
  have hrange : (toBits v).take i = (List.range i).map v.getMsbD := by
    rw [toBits, ← List.map_take, List.take_range, Nat.min_eq_left (Nat.le_of_lt hi)]
  rw [clocked_take true (toBits v) i, ← List.append_assoc, hrange] at hh
  have hpos := position_clocked h true ((List.range i).map v.getMsbD) hp
  rw [List.length_map, List.length_range] at hpos
  exact S.answers i hi _ hh.of_append hpos

end Quiet

theorem position_byteClocks (h : Log) (r : Bool) (v : BitVec 8) (ninth r' : Bool) {starts f : Nat}
    (hp : position h.edges = ⟨starts, f⟩) :
    position (h ++ byteClocks r v ninth r').edges = ⟨starts, f + 9⟩ := by
  have hbits := position_clocked h r (toBits v) hp
  have hninth := position_clocked (h ++ clocked r (toBits v)) r' [ninth] hbits
  rw [List.append_assoc, length_toBits] at hninth
  exact hninth

/-- A byte and its acknowledge, from a clock that is low or about to be. -/
theorem Has.byteAck {S : Slave} {b : Bus} {out latch : Bool} {h : Log}
    (hb : Has (i2cClr S SCL b) false out latch h) {c : BitVec 8} (hq : QuietFor S h (toBits c)) :
    ∃ a, Has (i2cReceiveAck S (i2cSendByte S c b)).2 false false (c.getLsbD 0)
      (h ++ byteClocks false c a true) := by
  have hack := (hb.sendByte S hq).receiveAck S
  rw [List.append_assoc] at hack
  exact ⟨_, hack⟩

theorem addressPhase_has {ι : Type*} {T : ι → Log} (S : Listener T) (g : IdleGpio)
    {devaddress address : BitVec 8}
    (hT : ∀ a₁ a₂, Heard T (addressLog devaddress address a₁ a₂).edges) :
    ∃ a₁ a₂, Has (addressPhase S.toSlave devaddress address (idleBus g)) false false
        (address.getLsbD 0) (addressLog devaddress address a₁ a₂)
      ∧ position (addressLog devaddress address a₁ a₂).edges = ⟨1, 19⟩ := by
  have hidle : Heard T (Log.edges []) := (hT false false).of_append (h := [])
  have hstart := (idleBus_has g).startBit S.toSlave (S.idle _ hidle rfl)
  have hfall := hstart.clr_scl S.toSlave
  have hheard₁ : Heard T (Log.edges ([(.start, false), (.fall, false)]
      ++ clocked false (toBits devaddress))) := by
    have hh := hT false false
    simp only [addressLog, byteClocks, List.append_assoc] at hh
    rw [← List.append_assoc] at hh
    exact hh.of_append
  obtain ⟨a₁, hdev⟩ := hfall.byteAck (quietFor_byte S rfl rfl hheard₁)
  have hp₁ : position (Log.edges ([(.start, false), (.fall, false)]
      ++ byteClocks false devaddress a₁ true)) = ⟨1, 10⟩ :=
    position_byteClocks _ false devaddress a₁ true rfl
  have hheard₂ : Heard T (Log.edges ([(.start, false), (.fall, false)]
      ++ byteClocks false devaddress a₁ true ++ clocked false (toBits address))) := by
    have hh := hT a₁ false
    rw [addressLog, byteClocks.eq_def false address, ← List.append_assoc] at hh
    exact hh.of_append
  obtain ⟨a₂, haddr⟩ := (hdev.clr_scl_low S.toSlave).byteAck (quietFor_byte S hp₁ rfl hheard₂)
  exact ⟨a₁, a₂, haddr, position_byteClocks _ false address a₂ true hp₁⟩

/-! ## The write -/

/-- **What a write should read as**: a start, three bytes each with a ninth
clock for which the master has let go of the data line, and a stop. -/
def WriteFrame (devaddress address data : BitVec 8) (symbols : List Symbol) : Prop :=
  ∃ a₁ a₂ a₃, symbols
    = [.start, .byte devaddress a₁ true, .byte address a₂ true, .byte data a₃ true, .stop]

/-- The edges of a write, by how the slave acknowledges. -/
def writeLog (devaddress address data : BitVec 8) (a : Bool × Bool × Bool) : Log :=
  addressLog devaddress address a.1 a.2.1
    ++ (byteClocks false data (data.getLsbD 0 && a.2.2) false
      ++ [(.rise false, false), (.stop, false)])

theorem gpioI2cWrite_has {devaddress address data : BitVec 8}
    (S : Listener (writeLog devaddress address data)) (g : IdleGpio) :
    ∃ a, Has (gpioI2cWrite S.toSlave devaddress address data (idleBus g)) true true true
      (writeLog devaddress address data a) := by
  have hheard (a : Bool × Bool × Bool) : Heard (writeLog devaddress address data)
      (writeLog devaddress address data a).edges := ⟨a, List.prefix_rfl⟩
  obtain ⟨a₁, a₂, hphase, hp⟩ :=
    addressPhase_has S g fun a₁ a₂ => (hheard (a₁, a₂, false)).of_append
  have hclocks (a₃ : Bool) : Heard (writeLog devaddress address data)
      (Log.edges (addressLog devaddress address a₁ a₂ ++ clocked false (toBits data)
        ++ clocked false [data.getLsbD 0 && a₃])) := by
    have hh := hheard (a₁, a₂, a₃)
    rw [writeLog, ← List.append_assoc, byteClocks, ← List.append_assoc] at hh
    exact hh.of_append
  have hdata := (hphase.clr_scl_low S.toSlave).sendByte S.toSlave
    (quietFor_byte S hp rfl (hclocks false).of_append)
  -- the ninth clock is the first clock of the stop bit, the pin still an output
  have hp₃ := position_clocked _ false (toBits data) hp
  have hlevel : ∀ h, sdaLevel S.toSlave true (data.getLsbD 0) h
      = (data.getLsbD 0 && !S.holds (Log.edges h)) := fun h => by simp [sdaLevel]
  have hstop := hdata.stopBit S.toSlave (by
    rw [hlevel]
    exact S.listens 28 (by decide) _ (hclocks _) (position_clocked _ false [_] hp₃))
  rw [hlevel, List.append_assoc, ← List.append_assoc (clocked false (toBits data))] at hstop
  exact ⟨(a₁, a₂, _), hstop⟩

/-- A write ends as it began. -/
theorem gpioI2cWrite_idle {devaddress address data : BitVec 8}
    (S : Listener (writeLog devaddress address data)) (g : IdleGpio) :
    (gpioI2cWrite S.toSlave devaddress address data (idleBus g)).gpio.Idle := by
  obtain ⟨a, hhas⟩ := gpioI2cWrite_has S g
  exact hhas.idle

/-- **The write, as it reads**: for every listening slave and all three bytes,
the last ninth clock finds the master driving the last bit of the data; the
trace is that of a write at no input. -/
theorem gpio_i2c_write_trace (devaddress address data : BitVec 8)
    (S : Listener (writeLog devaddress address data)) (g : IdleGpio) :
    (∃ a₁ a₂ a₃, decode (gpioI2cWrite S.toSlave devaddress address data (idleBus g)).log
      = [.start, .byte devaddress a₁ true, .byte address a₂ true,
          .byte data (data.getLsbD 0 && a₃) false, .stop])
      ∧ ¬ WriteFrame devaddress address data
          (decode (gpioI2cWrite S.toSlave devaddress address data (idleBus g)).log) := by
  obtain ⟨⟨a₁, a₂, a₃⟩, hhas⟩ := gpioI2cWrite_has S g
  have hread : decode (gpioI2cWrite S.toSlave devaddress address data (idleBus g)).log
      = [.start, .byte devaddress a₁ true, .byte address a₂ true,
          .byte data (data.getLsbD 0 && a₃) false, .stop] := by
    rw [hhas.seen, writeLog, decode_addressLog, decodeFrom_byteClocks]
    rfl
  refine ⟨⟨a₁, a₂, a₃, hread⟩, ?_⟩
  rintro ⟨b₁, b₂, b₃, hframe⟩
  -- the last ninth clock would have to be released, and is not
  rw [hread] at hframe
  simp at hframe

/-- The pins as `gpio_i2c_init` leaves them when nothing else is an output. -/
def idlePins : IdleGpio := ⟨⟨0x0C, 0x0C⟩, ⟨by decide, by decide, by decide, by decide⟩⟩

/-- **The data line held low for the slave's answer**: writing `0x40` to
register `0x63` of device `0x72`, the ninth clock of the data byte finds the
line driven low by the master itself. -/
theorem write_holds_ninth_clock :
    ¬ (∀ (devaddress address data : BitVec 8) (S : Listener (writeLog devaddress address data))
        (g : IdleGpio), WriteFrame devaddress address data
          (decode (gpioI2cWrite S.toSlave devaddress address data (idleBus g)).log))
      ∧ decode (gpioI2cWrite (registers id) 0x72 0x63 0x40 (idleBus idlePins)).log
        = [.start, .byte 0x72 false true, .byte 0x63 false true, .byte 0x40 false false, .stop] := by
  refine ⟨fun h => ?_, by decide +kernel⟩
  obtain ⟨a₁, a₂, a₃, hframe⟩ := h 0x72 0x63 0x40 (registersListener _ id) idlePins
  have hread : decode (gpioI2cWrite (registers id) 0x72 0x63 0x40 (idleBus idlePins)).log
      = [.start, .byte 0x72 false true, .byte 0x63 false true, .byte 0x40 false false, .stop] := by
    decide +kernel
  change decode (gpioI2cWrite (registers id) 0x72 0x63 0x40 (idleBus idlePins)).log = _ at hframe
  rw [hread] at hframe
  simp at hframe

/-! ## The reads -/

/-- The edges of a read after its second start. -/
def readLog (devaddress : BitVec 8) (a₃ : Bool) (v : BitVec 8) : Log :=
  [(.fall, false)] ++ byteClocks false devaddress a₃ true
    ++ (byteClocks true v true true ++ [(.rise false, false), (.stop, false)])

theorem decodeFrom_readLog (devaddress : BitVec 8) (a₃ : Bool) (v : BitVec 8) :
    decodeFrom [] (readLog devaddress a₃ v)
      = [.byte devaddress a₃ true, .byte v true true, .stop] := by
  rw [readLog, List.append_assoc]
  show decodeFrom [] (byteClocks false devaddress a₃ true ++ _) = _
  rw [decodeFrom_byteClocks, decodeFrom_byteClocks]
  rfl

/-- From the second start on, a read is the address with the read bit, the
byte the slave answers, and a stop. -/
theorem readPhase_has {ι : Type*} {T : ι → Log} {v : BitVec 8} (S : Answerer T v) {b : Bus}
    {h : Log} (hb : Has b true true false h) (hp : position h.edges = ⟨2, 0⟩)
    {devaddress : BitVec 8} (hT : ∀ a₃, Heard T (h ++ readLog devaddress a₃ v).edges) :
    ∃ a₃,
      (i2cReceiveByte S.toSlave
        (i2cReceiveAck S.toSlave (i2cSendByte S.toSlave devaddress b)).2).1.setWidth 8 = v
      ∧ Has (i2cStopBit S.toSlave (i2cReceiveByte S.toSlave
          (i2cReceiveAck S.toSlave (i2cSendByte S.toSlave devaddress b)).2).2) true true true
          (h ++ readLog devaddress a₃ v) := by
  have hheard (a₃ : Bool) : Heard T (Log.edges (h ++ [(.fall, false)]
      ++ byteClocks false devaddress a₃ true ++ clocked true (toBits v) ++ clocked true [true])) := by
    have hh := hT a₃
    rw [readLog, byteClocks.eq_def true] at hh
    simp only [← List.append_assoc] at hh
    exact hh.of_append (t := [(.rise false, false), (.stop, false)])
  have hfall := hb.clr_scl S.toSlave
  rw [Bool.not_true] at hfall
  have hp₁ : position (h ++ [(Edge.fall, false)]).edges = ⟨2, 1⟩ := by
    rw [edges_append, position_append, hp]
    rfl
  have hquiet : QuietFor S.toSlave (h ++ [(.fall, false)]) (toBits devaddress) := by
    refine quietFor_of_slots hp₁ (fun k hk => S.addressed _ (by omega) ?_) ?_
    · rw [length_toBits] at hk
      omega
    · have hh := (hheard false).of_append.of_append
      rw [byteClocks, ← List.append_assoc] at hh
      exact hh.of_append
  obtain ⟨a₃, hdev⟩ := hfall.byteAck hquiet
  have hp₂ := position_byteClocks _ false devaddress a₃ true hp₁
  obtain ⟨hval, hbyte⟩ := hdev.receiveByte S.toSlave (shifts_answer S hp₂ (hheard a₃).of_append)
  refine ⟨a₃, hval, ?_⟩
  have hp₃ := position_clocked _ true (toBits v) hp₂
  have hfree := S.done 18 (by decide) _ (hheard a₃).of_append hp₃
  -- nobody holds the line at the clock after the byte: it is not acknowledged
  have hlevel : ∀ l h', S.holds (Log.edges h') = false → sdaLevel S.toSlave false l h' = true := by
    intro l h' hq
    simp [sdaLevel, hq]
  have hstop := hbyte.stopBit S.toSlave (by
    rw [hlevel _ _ hfree]
    exact S.done 19 (by decide) _ (hheard a₃) (position_clocked _ true [_] hp₃))
  rw [hlevel _ _ hfree, List.append_assoc, ← List.append_assoc (clocked true (toBits v)),
    List.append_assoc h, List.append_assoc h] at hstop
  exact hstop

/-- The edges of `gpio_i2c_read`, by how the slave acknowledges. -/
def i2cReadLog (devaddress address v : BitVec 8) (a : Bool × Bool × Bool) : Log :=
  addressLog devaddress address a.1 a.2.1
    ++ ([(.rise true, false), (.start, false)] ++ readLog (devaddress ||| 1) a.2.2 v)

theorem gpioI2cRead_has {devaddress address v : BitVec 8}
    (S : Answerer (i2cReadLog devaddress address v) v) (g : IdleGpio) :
    (gpioI2cRead S.toSlave devaddress address (idleBus g)).1 = v
      ∧ ∃ a, Has (gpioI2cRead S.toSlave devaddress address (idleBus g)).2 true true true
        (i2cReadLog devaddress address v a) := by
  have hheard (a : Bool × Bool × Bool) : Heard (i2cReadLog devaddress address v)
      (i2cReadLog devaddress address v a).edges := ⟨a, List.prefix_rfl⟩
  obtain ⟨a₁, a₂, hphase, hp⟩ :=
    addressPhase_has S.toListener g fun a₁ a₂ => (hheard (a₁, a₂, false)).of_append
  have hstart := hphase.restartBit S.toSlave
    (S.listens 19 (by decide) _ (hheard (a₁, a₂, false)).of_append hp)
  have hp₂ : position (Log.edges (addressLog devaddress address a₁ a₂
      ++ ([(.rise true, false)] ++ [(.start, false)]))) = ⟨2, 0⟩ := by
    rw [← List.append_assoc, edges_append, edges_append, position_append, position_append, hp]
    rfl
  have hread (a₃ : Bool) := hheard (a₁, a₂, a₃)
  simp only [i2cReadLog, ← List.append_assoc (addressLog _ _ _ _)] at hread
  obtain ⟨a₃, hval, hhas⟩ := readPhase_has S hstart hp₂ hread
  rw [List.append_assoc] at hhas
  exact ⟨hval, (a₁, a₂, a₃), hhas⟩

/-- **`gpio_i2c_read`**: the byte the slave answers, between a start, the
address phase, a second start and a stop. -/
theorem gpioI2cRead_trace {devaddress address v : BitVec 8}
    (S : Answerer (i2cReadLog devaddress address v) v) (g : IdleGpio) :
    (gpioI2cRead S.toSlave devaddress address (idleBus g)).1 = v
      ∧ ∃ a₁ a₂ a₃, decode (gpioI2cRead S.toSlave devaddress address (idleBus g)).2.log
        = [.start, .byte devaddress a₁ true, .byte address a₂ true,
            .start, .byte (devaddress ||| 1) a₃ true, .byte v true true, .stop] := by
  obtain ⟨hval, ⟨a₁, a₂, a₃⟩, hhas⟩ := gpioI2cRead_has S g
  refine ⟨hval, a₁, a₂, a₃, ?_⟩
  rw [hhas.seen, i2cReadLog, decode_addressLog]
  show _ :: _ :: _ :: .start :: decodeFrom [] (readLog (devaddress ||| 1) a₃ v) = _
  rw [decodeFrom_readLog]

/-- The edges of `gpio_sccb_read`, by how the slave acknowledges. -/
def sccbReadLog (devaddress address v : BitVec 8) (a : Bool × Bool × Bool) : Log :=
  addressLog devaddress address a.1 a.2.1
    ++ (clocked true [true] ++ [(.rise false, false), (.stop, false)]
      ++ ([(.start, false)] ++ readLog (devaddress ||| 1) a.2.2 v))

theorem gpioSccbRead_has {devaddress address v : BitVec 8}
    (S : Answerer (sccbReadLog devaddress address v) v) (g : IdleGpio) :
    (gpioSccbRead S.toSlave devaddress address (idleBus g)).1 = v
      ∧ ∃ a, Has (gpioSccbRead S.toSlave devaddress address (idleBus g)).2 true true true
        (sccbReadLog devaddress address v a) := by
  have hheard (a : Bool × Bool × Bool) : Heard (sccbReadLog devaddress address v)
      (sccbReadLog devaddress address v a).edges := ⟨a, List.prefix_rfl⟩
  obtain ⟨a₁, a₂, hphase, hp⟩ :=
    addressPhase_has S.toListener g fun a₁ a₂ => (hheard (a₁, a₂, false)).of_append
  have hread (a₃ : Bool) : Heard (sccbReadLog devaddress address v)
      (Log.edges (addressLog devaddress address a₁ a₂
        ++ (clocked true [true] ++ [(.rise false, false), (.stop, false)]) ++ [(.start, false)]
        ++ readLog (devaddress ||| 1) a₃ v)) := by
    have hh := hheard (a₁, a₂, a₃)
    rwa [sccbReadLog, ← List.append_assoc, ← List.append_assoc] at hh
  have hstopped := (hread false).of_append.of_append
  have hhold := S.listens 19 (by decide) _ (hheard (a₁, a₂, false)).of_append hp
  -- the stop bit clocks once on the released line, then stops the write phase
  have hfree : sdaLevel S.toSlave false (address.getLsbD 0) (addressLog devaddress address a₁ a₂)
      = true := by
    simp [sdaLevel, hhold]
  have hstop := hphase.stopBit S.toSlave (by
    rw [hfree]
    have hh := hstopped
    rw [← List.append_assoc] at hh
    exact S.listens 20 (by decide) _ hh.of_append (position_clocked _ true [true] hp))
  rw [hfree] at hstop
  have hp₁ : position (Log.edges (addressLog devaddress address a₁ a₂
      ++ (clocked true [true] ++ [(.rise false, false), (.stop, false)]))) = ⟨1, 20⟩ := by
    have hclock := position_clocked (addressLog devaddress address a₁ a₂) true [true] hp
    have hsplit : [(Edge.rise false, false), (.stop, false)]
        = [(Edge.rise false, false)] ++ [(.stop, false)] := rfl
    rw [← List.append_assoc, hsplit, ← List.append_assoc, edges_append, edges_append,
      position_append, position_append, hclock]
    rfl
  have hstart := hstop.startBit S.toSlave (S.listens 20 (by decide) _ hstopped hp₁)
  have hp₂ : position (Log.edges (addressLog devaddress address a₁ a₂
      ++ (clocked true [true] ++ [(.rise false, false), (.stop, false)])
      ++ [(.start, false)])) = ⟨2, 0⟩ := by
    rw [edges_append, position_append, hp₁]
    rfl
  obtain ⟨a₃, hval, hhas⟩ := readPhase_has S hstart hp₂ hread
  rw [List.append_assoc, List.append_assoc] at hhas
  exact ⟨hval, (a₁, a₂, a₃), hhas⟩

/-- **`gpio_sccb_read`**: the same, with a stop before the second start. Its
first stop bit clocks the acknowledged byte once more; the clock belongs to no
byte. -/
theorem gpioSccbRead_trace {devaddress address v : BitVec 8}
    (S : Answerer (sccbReadLog devaddress address v) v) (g : IdleGpio) :
    (gpioSccbRead S.toSlave devaddress address (idleBus g)).1 = v
      ∧ ∃ a₁ a₂ a₃, decode (gpioSccbRead S.toSlave devaddress address (idleBus g)).2.log
        = [.start, .byte devaddress a₁ true, .byte address a₂ true, .clocks [true], .stop,
            .start, .byte (devaddress ||| 1) a₃ true, .byte v true true, .stop] := by
  obtain ⟨hval, ⟨a₁, a₂, a₃⟩, hhas⟩ := gpioSccbRead_has S g
  refine ⟨hval, a₁, a₂, a₃, ?_⟩
  rw [hhas.seen, sccbReadLog, decode_addressLog]
  show _ :: _ :: _ :: _ :: .stop :: .start :: decodeFrom [] (readLog (devaddress ||| 1) a₃ v) = _
  rw [decodeFrom_readLog]
  rfl

/-! ## Registers -/

/-- What is heard of a transfer after its second start names the register of
its address phase. -/
theorem register_of_addressLog {devaddress address : BitVec 8} {a₁ a₂ : Bool} {rest : Log}
    {h : List Edge} (hh : h <+: (addressLog devaddress address a₁ a₂ ++ rest).edges)
    (hstarts : (position h).starts = 2) : register h = address := by
  have haddr : (addressLog devaddress address a₁ a₂).edges <+:
      (addressLog devaddress address a₁ a₂ ++ rest).edges := ⟨rest.edges, List.map_append.symm⟩
  rcases List.prefix_or_prefix_of_prefix hh haddr with hle | ⟨t, rfl⟩
  · -- the address phase has one start only
    have hmono := starts_le_of_prefix hle
    have hp : (position (addressLog devaddress address a₁ a₂).edges).starts = 1 := rfl
    omega
  · show ofBits (toBits address) = address
    exact ofBits_toBits address

/-- A file of registers answers both reads with the register they name. -/
def registersRead (file : BitVec 8 → BitVec 8) (devaddress address : BitVec 8) :
    Answerer (i2cReadLog devaddress address (file address)) (file address) :=
  registersAnswerer _ file fun _ ⟨_, hh⟩ => register_of_addressLog hh

def registersSccbRead (file : BitVec 8 → BitVec 8) (devaddress address : BitVec 8) :
    Answerer (sccbReadLog devaddress address (file address)) (file address) :=
  registersAnswerer _ file fun _ ⟨_, hh⟩ => register_of_addressLog hh

/-- The reads end as they began. -/
theorem gpioReads_idle {devaddress address v : BitVec 8} (g : IdleGpio) :
    (∀ S : Answerer (i2cReadLog devaddress address v) v,
        (gpioI2cRead S.toSlave devaddress address (idleBus g)).2.gpio.Idle)
      ∧ ∀ S : Answerer (sccbReadLog devaddress address v) v,
        (gpioSccbRead S.toSlave devaddress address (idleBus g)).2.gpio.Idle := by
  constructor
  · intro S
    obtain ⟨-, a, hread⟩ := gpioI2cRead_has S g
    exact hread.idle
  · intro S
    obtain ⟨-, a, hsccb⟩ := gpioSccbRead_has S g
    exact hsccb.idle

/-- **The reads**: whatever the addresses and whatever byte the slave answers
in the transfer, both reads return it, and their edges read as the transfer
they stand for. -/
theorem gpio_reads_trace (devaddress address v : BitVec 8) (g : IdleGpio) :
    (∀ S : Answerer (i2cReadLog devaddress address v) v,
      (gpioI2cRead S.toSlave devaddress address (idleBus g)).1 = v
      ∧ ∃ a₁ a₂ a₃, decode (gpioI2cRead S.toSlave devaddress address (idleBus g)).2.log
        = [.start, .byte devaddress a₁ true, .byte address a₂ true,
            .start, .byte (devaddress ||| 1) a₃ true, .byte v true true, .stop])
      ∧ ∀ S : Answerer (sccbReadLog devaddress address v) v,
        (gpioSccbRead S.toSlave devaddress address (idleBus g)).1 = v
        ∧ ∃ a₁ a₂ a₃, decode (gpioSccbRead S.toSlave devaddress address (idleBus g)).2.log
          = [.start, .byte devaddress a₁ true, .byte address a₂ true, .clocks [true], .stop,
              .start, .byte (devaddress ||| 1) a₃ true, .byte v true true, .stop] :=
  ⟨fun S => gpioI2cRead_trace S g, fun S => gpioSccbRead_trace S g⟩

end ExtDrv.GpioI2c
