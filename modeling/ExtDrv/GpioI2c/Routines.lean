import ExtDrv.GpioI2c.Gpio

/-!
# What the routines do to the lines

Pre- and postconditions: `Has b scl out latch h` says where the two pins stand
and what the bus has seen. Each routine has one rule that takes such a
statement to the next; the values of the other six pins never matter.
-/

namespace ExtDrv.GpioI2c

open I2cBus

variable {S : Slave}

/-! ## Where the pins stand -/

/-- The clock pin drives `scl`; the data pin is an output if `out` and its data
bit is `latch`; the bus has seen `h`. -/
structure Has (b : Bus) (scl out latch : Bool) (h : Log) : Prop where
  scl_out : b.gpio.DIR.getLsbD SCL_SHIFT_NUM = true
  scl_bit : b.gpio.DATA.getLsbD SCL_SHIFT_NUM = scl
  sda_out : b.gpio.DIR.getLsbD SDA_SHIFT_NUM = out
  sda_bit : b.gpio.DATA.getLsbD SDA_SHIFT_NUM = latch
  seen : b.log = h

/-- The level of the data line. -/
def sdaLevel (S : Slave) (out latch : Bool) (h : Log) : Bool :=
  (!out || latch) && !S.holds h.edges

theorem Has.lines {b : Bus} {scl out latch : Bool} {h : Log} (hb : Has b scl out latch h) :
    b.lines S b.gpio = ⟨scl, sdaLevel S out latch h⟩ := by
  simp [Bus.lines, Gpio.level, hb.scl_out, hb.scl_bit, hb.sda_out, hb.sda_bit, hb.seen, sdaLevel]

/-- The edge to a new state of the pins is added to what the bus has seen. -/
def seenAfter (S : Slave) (h : Log) (scl out latch scl' out' latch' : Bool) : Log :=
  match edge ⟨scl, sdaLevel S out latch h⟩ ⟨scl', sdaLevel S out' latch' h⟩ with
  | some e => h ++ [(e, !out')]
  | none => h

/-- The rule of a register write. -/
theorem Has.write (S : Slave) {b : Bus} {scl out latch scl' out' latch' : Bool} {h : Log} {g : Gpio}
    (hb : Has b scl out latch h) (hdir : g.DIR.getLsbD SCL_SHIFT_NUM = true)
    (hscl : g.DATA.getLsbD SCL_SHIFT_NUM = scl') (hout : g.DIR.getLsbD SDA_SHIFT_NUM = out')
    (hsda : g.DATA.getLsbD SDA_SHIFT_NUM = latch') :
    Has (b.write S g) scl' out' latch' (seenAfter S h scl out latch scl' out' latch') := by
  have hnew : b.lines S g = ⟨scl', sdaLevel S out' latch' h⟩ := by
    simp [Bus.lines, Gpio.level, hdir, hscl, hout, hsda, hb.seen, sdaLevel]
  have hrel : g.released SDA_SHIFT_NUM = !out' := by rw [Gpio.released, hout]
  unfold Bus.write seenAfter
  rw [hb.lines, hnew]
  cases edge ⟨scl, sdaLevel S out latch h⟩ ⟨scl', sdaLevel S out' latch' h⟩ with
  | none => exact ⟨hdir, hscl, hout, hsda, hb.seen⟩
  | some e => exact ⟨hdir, hscl, hout, hsda, by simp [hrel, hb.seen]⟩

/-- Pins that do not move add nothing. -/
@[simp] theorem seenAfter_same (h : Log) (scl out latch : Bool) :
    seenAfter S h scl out latch scl out latch = h := by
  simp [seenAfter]

/-- The data line is free while the clock is low. -/
@[simp] theorem seenAfter_low (h : Log) (out latch out' latch' : Bool) :
    seenAfter S h false out latch false out' latch' = h := by
  simp [seenAfter]

@[simp] theorem seenAfter_rise (h : Log) (out latch out' latch' : Bool) :
    seenAfter S h false out latch true out' latch'
      = h ++ [(.rise (sdaLevel S out' latch' h), !out')] := by
  simp [seenAfter]

@[simp] theorem seenAfter_fall (h : Log) (out latch out' latch' : Bool) :
    seenAfter S h true out latch false out' latch' = h ++ [(.fall, !out')] := by
  simp [seenAfter]

/-! ## Single lines -/

variable (S)

theorem getLsbD_writeData (mask v : BitVec 8) (g : Gpio) {i : Nat} (hi : i < 8) :
    (g.writeData mask v).DATA.getLsbD i
      = if mask.getLsbD i then v.getLsbD i else g.DATA.getLsbD i := by
  rw [Gpio.writeData, BitVec.getLsbD_or, BitVec.getLsbD_and, BitVec.getLsbD_and,
    BitVec.getLsbD_not]
  cases mask.getLsbD i <;> simp [hi]

/-- A line becomes an output before its data bits change, which is when an
input meets what its data bit was. -/
theorem Has.driveTo {b : Bus} {scl out latch : Bool} {h : Log} (hb : Has b scl out latch h)
    (m v : BitVec 8) :
    let out' := out || m.getLsbD SDA_SHIFT_NUM
    let scl' := if m.getLsbD SCL_SHIFT_NUM then v.getLsbD SCL_SHIFT_NUM else scl
    let latch' := if m.getLsbD SDA_SHIFT_NUM then v.getLsbD SDA_SHIFT_NUM else latch
    Has (driveTo S m v b) scl' out' latch'
      (seenAfter S (seenAfter S h scl out latch scl out' latch) scl out' latch scl' out' latch') := by
  intro out' scl' latch'
  have hdir : Has (dirOut S m b) scl (out || m.getLsbD SDA_SHIFT_NUM) latch
      (seenAfter S h scl out latch scl (out || m.getLsbD SDA_SHIFT_NUM) latch) := by
    apply hb.write S
    · rw [BitVec.getLsbD_or, hb.scl_out, Bool.true_or]
    · exact hb.scl_bit
    · rw [BitVec.getLsbD_or, hb.sda_out]
    · exact hb.sda_bit
  apply hdir.write S (g := (dirOut S m b).gpio.writeData m v)
  · exact hdir.scl_out
  · rw [getLsbD_writeData m v _ (by decide), hdir.scl_bit]
  · exact hdir.sda_out
  · rw [getLsbD_writeData m v _ (by decide), hdir.sda_bit]

/-- The clock rises: a bit is taken. -/
theorem Has.set_scl {b : Bus} {out latch : Bool} {h : Log} (hb : Has b false out latch h) :
    Has (i2cSet S SCL b) true out latch (h ++ [(.rise (sdaLevel S out latch h), !out)]) := by
  have hd := hb.driveTo S SCL SCL
  simpa [SCL, SDA_SHIFT_NUM, SCL_SHIFT_NUM, i2cSet, isLine] using hd

/-- The clock falls. -/
theorem Has.clr_scl {b : Bus} {out latch : Bool} {h : Log} (hb : Has b true out latch h) :
    Has (i2cClr S SCL b) false out latch (h ++ [(.fall, !out)]) := by
  have hd := hb.driveTo S SCL 0
  simpa [SCL, SDA_SHIFT_NUM, SCL_SHIFT_NUM, i2cClr, isLine] using hd

/-- The clock is low already. -/
theorem Has.clr_scl_low {b : Bus} {out latch : Bool} {h : Log} (hb : Has b false out latch h) :
    Has (i2cClr S SCL b) false out latch h := by
  have hd := hb.driveTo S SCL 0
  simpa [SCL, SDA_SHIFT_NUM, SCL_SHIFT_NUM, i2cClr, isLine] using hd

/-- The data line is set while the clock is low. -/
theorem Has.set_sda_low {b : Bus} {out latch : Bool} {h : Log} (hb : Has b false out latch h) :
    Has (i2cSet S SDA b) false true true h := by
  have hd := hb.driveTo S SDA SDA
  simpa [SDA, SCL, SDA_SHIFT_NUM, SCL_SHIFT_NUM, i2cSet, isLine] using hd

/-- The data line is cleared while the clock is low. -/
theorem Has.clr_sda_low {b : Bus} {out latch : Bool} {h : Log} (hb : Has b false out latch h) :
    Has (i2cClr S SDA b) false true false h := by
  have hd := hb.driveTo S SDA 0
  simpa [SDA, SCL, SDA_SHIFT_NUM, SCL_SHIFT_NUM, i2cClr, isLine] using hd

/-- The data line rises while the clock is high: a stop. -/
theorem Has.set_sda_high {b : Bus} {h : Log} (hb : Has b true true false h)
    (hq : S.holds h.edges = false) : Has (i2cSet S SDA b) true true true (h ++ [(.stop, false)]) := by
  have hd := hb.driveTo S SDA SDA
  simpa [SDA, SCL, SDA_SHIFT_NUM, SCL_SHIFT_NUM, i2cSet, isLine, seenAfter, sdaLevel, hq] using hd

/-- The data line falls while the clock is high: a start. -/
theorem Has.clr_sda_high {b : Bus} {h : Log} (hb : Has b true true true h)
    (hq : S.holds h.edges = false) :
    Has (i2cClr S SDA b) true true false (h ++ [(.start, false)]) := by
  have hd := hb.driveTo S SDA 0
  simpa [SDA, SCL, SDA_SHIFT_NUM, SCL_SHIFT_NUM, i2cClr, isLine, seenAfter, sdaLevel, hq] using hd

/-- Both lines are high already. -/
theorem Has.set_both_high {b : Bus} {h : Log} (hb : Has b true true true h) :
    Has (i2cSet S (SDA ||| SCL) b) true true true h := by
  have hd := hb.driveTo S (SDA ||| SCL) (SDA ||| SCL)
  simpa [SDA, SCL, SDA_SHIFT_NUM, SCL_SHIFT_NUM, i2cSet, isLine] using hd

/-- Both lines rise at once: the clock takes a bit. -/
theorem Has.set_both_low {b : Bus} {out latch : Bool} {h : Log} (hb : Has b false out latch h) :
    Has (i2cSet S (SDA ||| SCL) b) true true true
      (h ++ [(.rise (sdaLevel S true true h), false)]) := by
  have hd := hb.driveTo S (SDA ||| SCL) (SDA ||| SCL)
  simpa [SDA, SCL, SDA_SHIFT_NUM, SCL_SHIFT_NUM, i2cSet, isLine] using hd

/-- The data pin becomes an input while the clock is low. -/
theorem Has.in_low {b : Bus} {out latch : Bool} {h : Log} (hb : Has b false out latch h) :
    Has (dirInSda S b) false false latch h := by
  have hw := hb.write S (g := { b.gpio with DIR := b.gpio.DIR &&& ~~~SDA })
    (by rw [BitVec.getLsbD_and, hb.scl_out]; rfl) hb.scl_bit
    (by rw [BitVec.getLsbD_and, show (~~~SDA).getLsbD SDA_SHIFT_NUM = false from rfl,
      Bool.and_false]) hb.sda_bit
  simpa [dirInSda] using hw

/-- The data pin is an input already. -/
theorem Has.in_same {b : Bus} {scl latch : Bool} {h : Log} (hb : Has b scl false latch h) :
    Has (dirInSda S b) scl false latch h := by
  have hw := hb.write S (g := { b.gpio with DIR := b.gpio.DIR &&& ~~~SDA })
    (by rw [BitVec.getLsbD_and, hb.scl_out]; rfl) hb.scl_bit
    (by rw [BitVec.getLsbD_and, hb.sda_out, Bool.false_and]) hb.sda_bit
  simpa [dirInSda] using hw

/-- A read of the data line finds what the slave puts there. -/
theorem Has.data_read {b : Bus} {scl latch : Bool} {h : Log} (hb : Has b scl false latch h) :
    (i2cDataRead S b).1 = (if S.holds h.edges then 0 else 1)
      ∧ Has (i2cDataRead S b).2 scl false latch h := by
  have hin := hb.in_same S
  refine ⟨?_, hin⟩
  rw [i2cDataRead, hin.lines]
  cases hq : S.holds h.edges <;> simp [sdaLevel, hq]

/-! ## Bits and bytes -/

/-- The slave leaves the line alone for each of some bits, after `h`. -/
def QuietFor (h : Log) (bits : List Bool) : Prop :=
  ∀ k, k < bits.length → S.holds (h ++ clocked false (bits.take k)).edges = false

/-- One clock is one fall. -/
theorem position_clock (h : Log) (v r r' : Bool) :
    position (h ++ [(Edge.rise v, r)] ++ [(Edge.fall, r')]).edges
      = (position h.edges).next .fall := by
  rw [edges_append, edges_append, position_append, position_append]
  rfl

theorem position_clocked (h : Log) (r : Bool) (bits : List Bool) {starts f : Nat}
    (hp : position h.edges = ⟨starts, f⟩) :
    position (h ++ clocked r bits).edges = ⟨starts, f + bits.length⟩ := by
  induction bits generalizing h f with
  | nil => simpa [clocked] using hp
  | cons v bits ih =>
      have hstep : position (h ++ clocked r [v]).edges = ⟨starts, f + 1⟩ := by
        have hclock := position_clock h v r r
        rw [List.append_assoc, hp] at hclock
        exact hclock
      have hrest := ih (h ++ clocked r [v]) hstep
      rw [List.append_assoc] at hrest
      rw [List.length_cons, ← Nat.add_assoc, Nat.add_right_comm]
      exact hrest

/-- One bit: the master's, where the slave leaves the line alone. -/
theorem Has.sendBit {b : Bus} {out latch : Bool} {h : Log}
    (hb : Has (i2cClr S SCL b) false out latch h) (hq : S.holds h.edges = false) (v : Bool) :
    Has (sendBit S v b) false true v (h ++ clocked false [v]) := by
  have hsda : Has (if v then i2cSet S SDA (i2cClr S SCL b) else i2cClr S SDA (i2cClr S SCL b))
      false true v h := by
    cases v with
    | true => exact hb.set_sda_low S
    | false => exact hb.clr_sda_low S
  have hrise := hsda.set_scl S
  have hlevel : sdaLevel S true v h = v := by simp [sdaLevel, hq]
  rw [hlevel] at hrise
  have hfall := hrise.clr_scl S
  rw [List.append_assoc] at hfall
  exact hfall

/-- Bits one after the other. -/
theorem Has.sendBits {b : Bus} {out latch : Bool} {h : Log} (bits : List Bool)
    (hb : Has (i2cClr S SCL b) false out latch h) (hq : QuietFor S h bits) (hne : bits ≠ []) :
    Has (bits.foldl (fun b v => GpioI2c.sendBit S v b) b) false true (bits.getLast hne)
      (h ++ clocked false bits) := by
  induction bits generalizing b out latch h with
  | nil => exact absurd rfl hne
  | cons v bits ih =>
      have hquiet : S.holds h.edges = false := by simpa [clocked] using hq 0 (by simp)
      have hone := hb.sendBit S hquiet v
      cases bits with
      | nil => exact hone
      | cons w rest =>
          have hqrest : QuietFor S (h ++ clocked false [v]) (w :: rest) := by
            intro k hk
            have hnext := hq (k + 1) (Nat.succ_lt_succ hk)
            rw [List.append_assoc]
            exact hnext
          -- each bit leaves the clock low, so the next turn's first write moves nothing
          have hall := ih (hone.clr_scl_low S) hqrest (List.cons_ne_nil w rest)
          rw [List.append_assoc] at hall
          exact hall

theorem i2cSendByte_eq (c : BitVec 8) (b : Bus) :
    i2cSendByte S c b = (toBits c).foldl (fun b v => sendBit S v b) b := rfl

/-- **`i2c_send_byte`**, the clock low. -/
theorem Has.sendByte {b : Bus} {out latch : Bool} {h : Log} {c : BitVec 8}
    (hb : Has (i2cClr S SCL b) false out latch h) (hq : QuietFor S h (toBits c)) :
    Has (i2cSendByte S c b) false true (c.getLsbD 0) (h ++ clocked false (toBits c)) := by
  rw [i2cSendByte_eq]
  exact hb.sendBits S (toBits c) hq (List.cons_ne_nil _ _)

/-- **`i2c_receive_ack`**: the ninth clock, for which the master lets go. -/
theorem Has.receiveAck {b : Bus} {out latch : Bool} {h : Log} (hb : Has b false out latch h) :
    Has (i2cReceiveAck S b).2 false false latch (h ++ clocked true [!S.holds h.edges]) := by
  have hrise := ((hb.in_low S).clr_scl_low S).set_scl S
  have hlevel : sdaLevel S false latch h = !S.holds h.edges := by simp [sdaLevel]
  rw [hlevel] at hrise
  have hfall := (hrise.data_read S).2.clr_scl S
  rw [List.append_assoc] at hfall
  exact hfall

/-- One bit of the slave's. -/
theorem Has.receiveBit {b : Bus} {latch : Bool} {h : Log} (hb : Has b false false latch h) :
    (receiveBit S b).1 = (if S.holds h.edges then 0 else 1)
      ∧ Has (receiveBit S b).2 false false latch (h ++ clocked true [!S.holds h.edges]) := by
  have hrise := (hb.clr_scl_low S).set_scl S
  have hlevel : sdaLevel S false latch h = !S.holds h.edges := by simp [sdaLevel]
  rw [hlevel] at hrise
  -- the slave holds through the rise what it put on the line at the fall
  have hread := (hrise.in_same S).data_read S
  rw [edges_append, S.holds_append _ (by simp)] at hread
  refine ⟨hread.1, ?_⟩
  have hfall := hread.2.clr_scl S
  rw [List.append_assoc] at hfall
  exact hfall

/-- The first `n` turns of the loop of `i2c_receive_byte`. -/
def receiveBits (n : Nat) (b : Bus) : BitVec 32 × Bus :=
  (List.range n).foldl
    (fun (j, b) i =>
      let (bit, b) := GpioI2c.receiveBit S b
      (if bit ≠ 0 then j + 1#32 <<< (7 - i) else j, b))
    (0, b)

theorem receiveBits_succ (n : Nat) (b : Bus) :
    receiveBits S (n + 1) b
      = (if (GpioI2c.receiveBit S (receiveBits S n b).2).1 ≠ 0
            then (receiveBits S n b).1 + 1#32 <<< (7 - n) else (receiveBits S n b).1,
          (GpioI2c.receiveBit S (receiveBits S n b).2).2) := by
  rw [receiveBits, List.range_succ, List.foldl_append]
  rfl

/-- The sum of the first `n` bits of `v`, as `i2c_receive_byte` adds them up. -/
def sumBits (v : BitVec 8) : Nat → BitVec 32
  | 0 => 0
  | n + 1 => if v.getMsbD n then sumBits v n + 1#32 <<< (7 - n) else sumBits v n

theorem sumBits_eight (v : BitVec 8) : (sumBits v 8).setWidth 8 = v := by
  revert v
  decide +kernel

/-- After `h` the slave shifts out `v`. -/
def Shifts (h : Log) (v : BitVec 8) : Prop :=
  ∀ i, i < 8 →
    S.holds (h ++ clocked true ((List.range i).map v.getMsbD)).edges = !v.getMsbD i

/-- The loop gathers the bits the slave shifts out. -/
theorem Has.receiveBits {b : Bus} {latch : Bool} {h : Log} {v : BitVec 8}
    (hb : Has b false false latch h) (ha : Shifts S h v) {n : Nat} (hn : n ≤ 8) :
    (GpioI2c.receiveBits S n b).1 = sumBits v n
      ∧ Has (GpioI2c.receiveBits S n b).2 false false latch
          (h ++ clocked true ((List.range n).map v.getMsbD)) := by
  induction n with
  | zero => exact ⟨rfl, by simpa [clocked, GpioI2c.receiveBits] using hb⟩
  | succ n ih =>
      obtain ⟨hsum, hhas⟩ := ih (by omega)
      have hheld := ha n (by omega)
      obtain ⟨hbit, hnext⟩ := hhas.receiveBit S
      rw [hheld] at hbit hnext
      rw [receiveBits_succ, hbit, hsum]
      constructor
      · cases hv : v.getMsbD n <;> simp [sumBits, hv]
      · rw [List.range_succ, List.map_append, List.map_singleton]
        simpa [clocked, List.append_assoc] using hnext

/-- **`i2c_receive_byte`** from a slave that shifts out `v`. -/
theorem Has.receiveByte {b : Bus} {latch : Bool} {h : Log} {v : BitVec 8}
    (hb : Has b false false latch h) (ha : Shifts S h v) :
    (i2cReceiveByte S b).1.setWidth 8 = v
      ∧ Has (i2cReceiveByte S b).2 false false latch (h ++ clocked true (toBits v)) := by
  obtain ⟨hsum, hhas⟩ := hb.receiveBits S ha (Nat.le_refl 8)
  have hsame : i2cReceiveByte S b = GpioI2c.receiveBits S 8 b := rfl
  rw [hsame, hsum]
  exact ⟨sumBits_eight v, hhas⟩

/-- **`i2c_start_bit`** on an idle bus. -/
theorem Has.startBit {b : Bus} {h : Log} (hb : Has b true true true h)
    (hq : S.holds h.edges = false) :
    Has (i2cStartBit S b) true true false (h ++ [(.start, false)]) :=
  (hb.set_both_high S).clr_sda_high S hq

/-- **`i2c_start_bit`** in a transfer: the clock rises once more before the
start. -/
theorem Has.restartBit {b : Bus} {out latch : Bool} {h : Log} (hb : Has b false out latch h)
    (hq : S.holds h.edges = false) :
    Has (i2cStartBit S b) true true false (h ++ [(.rise true, false), (.start, false)]) := by
  have hrise := hb.set_both_low S
  have hlevel : sdaLevel S true true h = true := by simp [sdaLevel, hq]
  rw [hlevel] at hrise
  have hstart := hrise.clr_sda_high S (by rw [edges_append, S.holds_append _ (by simp), hq])
  rw [List.append_assoc] at hstart
  exact hstart

/-- **`i2c_stop_bit`**: a clock with the data pin as it is, one with the line
low, and the stop. -/
theorem Has.stopBit {b : Bus} {out latch : Bool} {h : Log} (hb : Has b false out latch h)
    (hq : S.holds (h ++ clocked (!out) [sdaLevel S out latch h]).edges = false) :
    Has (i2cStopBit S b) true true true
      (h ++ (clocked (!out) [sdaLevel S out latch h] ++ [(.rise false, false), (.stop, false)])) := by
  -- the clock of the acknowledge, the data pin as the caller left it
  have hfall := (hb.set_scl S).clr_scl S
  rw [List.append_assoc] at hfall
  -- from a low data line the clock rises for the stop
  have hrise := (hfall.clr_sda_low S).set_scl S
  rw [show ∀ h, sdaLevel S true false h = false from fun h => by simp [sdaLevel]] at hrise
  have hstop := hrise.set_sda_high S
    (by rw [edges_append, S.holds_append _ (by simp)]; exact hq)
  simpa [i2cStopBit, clocked] using hstop

end ExtDrv.GpioI2c
