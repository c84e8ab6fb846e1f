import ExtDrv.Lib.I2cBus

/-!
# Two-wire transfers on GPIO pins (`gpio_i2c.c`)

The pins are two bits of a GPIO block: a direction register, and a data
register of which a write through the address `GPIO_0_BASE + (mask << 2)`
reaches the bits of `mask` only. A pin that is an input is held high by the
pull-up of the line.

Every register write is one change of the lines, to which the slave reacts
before the next. The delays between them are left out.
-/

namespace ExtDrv.GpioI2c

open I2cBus

/-! ## The pins -/

def SCL_SHIFT_NUM : Nat := 3
def SDA_SHIFT_NUM : Nat := 2
def SCL : BitVec 8 := 0x1 <<< SCL_SHIFT_NUM
def SDA : BitVec 8 := 0x1 <<< SDA_SHIFT_NUM

/-- The registers: `GPIO_0_DIR` and the data bits behind the masked
addresses. -/
structure Gpio where
  DIR : BitVec 8
  DATA : BitVec 8
  deriving DecidableEq, Repr

/-- `HW_REG(GPIO_0_BASE + (mask << 2)) = v`. -/
def Gpio.writeData (mask v : BitVec 8) (g : Gpio) : Gpio :=
  { g with DATA := (g.DATA &&& ~~~mask) ||| (v &&& mask) }

/-- What the master puts on a line, and whether it has let go of it. -/
def Gpio.level (g : Gpio) (pin : Nat) : Bool := !g.DIR.getLsbD pin || g.DATA.getLsbD pin

def Gpio.released (g : Gpio) (pin : Nat) : Bool := !g.DIR.getLsbD pin

/-- The master's registers and what the bus has seen. -/
structure Bus where
  gpio : Gpio
  log : Log
  deriving DecidableEq, Repr

variable (S : Slave)

/-- The levels of the lines under the registers `g`. -/
def Bus.lines (b : Bus) (g : Gpio) : Lines where
  scl := g.level SCL_SHIFT_NUM
  sda := g.level SDA_SHIFT_NUM && !S.holds b.log.edges

/-- The registers become `g`. -/
def Bus.write (b : Bus) (g : Gpio) : Bus :=
  match edge (b.lines S b.gpio) (b.lines S g) with
  | some e => ⟨g, b.log ++ [(e, g.released SDA_SHIFT_NUM)]⟩
  | none => ⟨g, b.log⟩

/-! ## The routines -/

/-- The three lines that `i2c_clr` and `i2c_set` take; they print an error for
any other. -/
def isLine (whichline : BitVec 8) : Bool :=
  whichline == SCL || whichline == SDA || whichline == SDA ||| SCL

/-- `regvalue = DIR; regvalue |= whichline; DIR = regvalue`. -/
def dirOut (whichline : BitVec 8) (b : Bus) : Bus :=
  b.write S { b.gpio with DIR := b.gpio.DIR ||| whichline }

/-- `regvalue = DIR; regvalue &= ~SDA; DIR = regvalue`. -/
def dirInSda (b : Bus) : Bus := b.write S { b.gpio with DIR := b.gpio.DIR &&& ~~~SDA }

/-- A line is made an output, and then its data bits are written. -/
def driveTo (whichline v : BitVec 8) (b : Bus) : Bus :=
  let b := dirOut S whichline b
  b.write S (b.gpio.writeData whichline v)

/-- `i2c_clr`. -/
def i2cClr (whichline : BitVec 8) (b : Bus) : Bus :=
  if isLine whichline then driveTo S whichline 0 b else b

/-- `i2c_set`. -/
def i2cSet (whichline : BitVec 8) (b : Bus) : Bus :=
  if isLine whichline then driveTo S whichline whichline b else b

/-- `i2c_data_read`. The data register reads the line of an input. -/
def i2cDataRead (b : Bus) : BitVec 8 × Bus :=
  let b := dirInSda S b
  (if (b.lines S b.gpio).sda then 1 else 0, b)

/-- `i2c_start_bit`. -/
def i2cStartBit (b : Bus) : Bus :=
  let b := i2cSet S (SDA ||| SCL) b
  i2cClr S SDA b

/-- `i2c_stop_bit`. -/
def i2cStopBit (b : Bus) : Bus :=
  -- clock the ack
  let b := i2cSet S SCL b
  let b := i2cClr S SCL b
  -- actual stop bit
  let b := i2cClr S SDA b
  let b := i2cSet S SCL b
  i2cSet S SDA b

/-- One turn of the loop of `i2c_send_byte`. -/
def sendBit (v : Bool) (b : Bus) : Bus :=
  let b := i2cClr S SCL b
  let b := if v then i2cSet S SDA b else i2cClr S SDA b
  let b := i2cSet S SCL b
  i2cClr S SCL b

/-- `i2c_send_byte`: `c & (1 << (7 - i))` for `i` from 0 to 7. -/
def i2cSendByte (c : BitVec 8) (b : Bus) : Bus :=
  (List.range 8).foldl (fun b i => sendBit S (c.getLsbD (7 - i)) b) b

/-- One turn of the loop of `i2c_receive_byte`. -/
def receiveBit (b : Bus) : BitVec 8 × Bus :=
  let b := i2cClr S SCL b
  let b := i2cSet S SCL b
  -- `SDA` is let go of with the clock high already
  let b := dirInSda S b
  let (bit, b) := i2cDataRead S b
  (bit, i2cClr S SCL b)

/-- `i2c_receive_byte`. -/
def i2cReceiveByte (b : Bus) : BitVec 32 × Bus :=
  (List.range 8).foldl
    (fun (j, b) i =>
      let (bit, b) := receiveBit S b
      (if bit ≠ 0 then j + 1#32 <<< (7 - i) else j, b))
    (0, b)

/-- `i2c_receive_ack`. -/
def i2cReceiveAck (b : Bus) : Int × Bus :=
  let b := dirInSda S b
  let b := i2cClr S SCL b
  let b := i2cSet S SCL b
  let (nack, b) := i2cDataRead S b
  let b := i2cClr S SCL b
  (if nack = 0 then 1 else 0, b)

/-- `gpio_i2c_read`. -/
def gpioI2cRead (devaddress address : BitVec 8) (b : Bus) : BitVec 8 × Bus :=
  let b := i2cStartBit S b
  let b := i2cSendByte S devaddress b
  let b := (i2cReceiveAck S b).2
  let b := i2cSendByte S address b
  let b := (i2cReceiveAck S b).2
  let b := i2cStartBit S b
  let b := i2cSendByte S (devaddress ||| 1) b
  let b := (i2cReceiveAck S b).2
  let (rxdata, b) := i2cReceiveByte S b
  (rxdata.setWidth 8, i2cStopBit S b)

/-- `gpio_sccb_read`. -/
def gpioSccbRead (devaddress address : BitVec 8) (b : Bus) : BitVec 8 × Bus :=
  let b := i2cStartBit S b
  let b := i2cSendByte S devaddress b
  let b := (i2cReceiveAck S b).2
  let b := i2cSendByte S address b
  let b := (i2cReceiveAck S b).2
  -- a stop and a start, where the read above starts anew without a stop
  let b := i2cStopBit S b
  let b := i2cStartBit S b
  let b := i2cSendByte S (devaddress ||| 1) b
  let b := (i2cReceiveAck S b).2
  let (rxdata, b) := i2cReceiveByte S b
  (rxdata.setWidth 8, i2cStopBit S b)

/-- `gpio_i2c_write`. -/
def gpioI2cWrite (devaddress address data : BitVec 8) (b : Bus) : Bus :=
  let b := i2cStartBit S b
  let b := i2cSendByte S devaddress b
  let b := (i2cReceiveAck S b).2
  let b := i2cSendByte S address b
  let b := (i2cReceiveAck S b).2
  let b := i2cSendByte S data b
  -- the third `i2c_receive_ack` is commented out in the source
  i2cStopBit S b

/-! ## The idle bus -/

/-- Both pins are outputs and high, as `gpio_i2c_init` leaves them and every
stop bit does. -/
structure Gpio.Idle (g : Gpio) : Prop where
  scl_out : g.DIR.getLsbD SCL_SHIFT_NUM = true
  sda_out : g.DIR.getLsbD SDA_SHIFT_NUM = true
  scl_high : g.DATA.getLsbD SCL_SHIFT_NUM = true
  sda_high : g.DATA.getLsbD SDA_SHIFT_NUM = true

/-- Pins between two transfers. -/
abbrev IdleGpio := { g : Gpio // g.Idle }

/-- The bus before a transfer. -/
def idleBus (g : IdleGpio) : Bus := ⟨g.val, []⟩

end ExtDrv.GpioI2c
