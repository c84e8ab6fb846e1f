import ExtDrv.Lib.ByteMemory

/-!
# The I2C controller driver (`i2c/i2c.c`)

The controller does one command at a time: a write of `I2C_COM_REB` starts it,
and its flags come up in `I2C_SR_REG` some reads of that register later. The
driver polls for them and goes on after a time-out as if they had come.

Left out: the spin lock (one call at a time), the bus number, which nothing
reads, and the flags of `I2C_SR_REG` that neither routine tests.
-/

namespace ExtDrv.HiI2c

open ByteMemory

/-! ## Constants -/

def READ_OPERATION : BitVec 32 := 1
def WRITE_OPERATION : BitVec 32 := 0xfe

def I2C_SEND_ACK : BitVec 32 := ~~~(1 <<< 4)
def I2C_START : BitVec 32 := 1 <<< 3
def I2C_READ : BitVec 32 := 1 <<< 2
def I2C_WRITE : BitVec 32 := 1 <<< 1
def I2C_STOP : BitVec 32 := 1 <<< 0

def I2C_CLEAR_START : BitVec 32 := 1 <<< 6
def I2C_CLEAR_END : BitVec 32 := 1 <<< 5
def I2C_CLEAR_SEND : BitVec 32 := 1 <<< 4
def I2C_CLEAR_RECEIVE : BitVec 32 := 1 <<< 3
def I2C_CLEAR_ACK : BitVec 32 := 1 <<< 2
def I2C_CLEAR_ARBITRATE : BitVec 32 := 1 <<< 1
def I2C_CLEAR_OVER : BitVec 32 := 1 <<< 0
def I2C_CLEAR_ALL : BitVec 32 :=
  I2C_CLEAR_START ||| I2C_CLEAR_END ||| I2C_CLEAR_SEND ||| I2C_CLEAR_RECEIVE ||| I2C_CLEAR_ACK
    ||| I2C_CLEAR_ARBITRATE ||| I2C_CLEAR_OVER

def I2C_WAIT_TIME_OUT : Nat := 0x1000

/-! ## The controller -/

/-- A flag of `I2C_SR_REG`: whether it is up, and how many reads of the register
it still takes to come up. -/
structure Flag where
  up : Bool
  due : Option Nat
  deriving DecidableEq, Repr

/-- The register is read. -/
def Flag.tick (f : Flag) : Flag :=
  match f.due with
  | none => f
  | some 0 => ⟨true, none⟩
  | some (n + 1) => { f with due := some n }

/-- How long the controller takes over its commands, in reads of `I2C_SR_REG`
until `I2C_OVER_INTR` and `I2C_RECEIVE_INTR` come up. -/
structure Latency where
  overIntr : Nat → Nat
  receive : Nat → Nat

/-- The registers, the byte on its way into `I2C_RXR_REG`, the commands so far,
and the bus with the memory on it. -/
structure I2c where
  CTRL : BitVec 32
  TXR : BitVec 32
  RXR : BitVec 32
  overIntr : Flag
  receive : Flag
  shifted : BitVec 8
  commands : Nat
  bus : List Symbol
  cells : Cells

variable (D : Device) (lat : Latency)

/-- `I2C_WRITE_REG(I2C_CTRL_REG, v)`. -/
def writeCtrl (v : BitVec 32) (h : I2c) : I2c := { h with CTRL := v }

/-- `I2C_WRITE_REG(I2C_TXR_REG, v)`. -/
def writeTxr (v : BitVec 32) (h : I2c) : I2c := { h with TXR := v }

/-- `I2C_WRITE_REG(I2C_ICR_REG, v)`: a one takes its flag down. -/
def writeIcr (v : BitVec 32) (h : I2c) : I2c :=
  { h with
    overIntr := { h.overIntr with up := h.overIntr.up && (v &&& I2C_CLEAR_OVER == 0) }
    receive := { h.receive with up := h.receive.up && (v &&& I2C_CLEAR_RECEIVE == 0) } }

/-- `I2C_READ_REG(I2C_SR_REG)`: the two flags, after the read has let time go
by. The received byte is in `I2C_RXR_REG` when its flag comes up. -/
def readSr (h : I2c) : I2c :=
  { h with
    overIntr := h.overIntr.tick
    receive := h.receive.tick
    RXR := if h.receive.due = some 0 then h.shifted.setWidth 32 else h.RXR }

/-- A start condition. -/
def busStart (h : I2c) : I2c :=
  { h with bus := h.bus ++ [.start], cells := h.cells.hearStart }

/-- The low byte of `I2C_TXR_REG` goes out. -/
def busSend (h : I2c) : I2c :=
  { h with
    bus := h.bus ++ [.sent (h.TXR.setWidth 8)]
    cells := h.cells.hear D (h.TXR.setWidth 8) }

/-- A byte comes in. -/
def busReceive (ack : Bool) (h : I2c) : I2c :=
  { h with
    bus := h.bus ++ [.received (h.cells.answer D) ack]
    cells := h.cells.answered ack
    shifted := h.cells.answer D
    receive := { h.receive with due := some (lat.receive h.commands) } }

/-- A stop condition. -/
def busStop (h : I2c) : I2c :=
  { h with bus := h.bus ++ [.stop], cells := h.cells.hearStop }

/-- `I2C_WRITE_REG(I2C_COM_REB, c)`: the controller starts on a command. -/
def writeCom (c : BitVec 32) (h : I2c) : I2c :=
  let h := if c &&& I2C_START ≠ 0 then busStart h else h
  let h := if c &&& I2C_WRITE ≠ 0 then busSend D h else h
  let h := if c &&& I2C_READ ≠ 0 then busReceive D lat (c &&& ~~~I2C_SEND_ACK == 0) h else h
  let h := if c &&& I2C_STOP ≠ 0 then busStop h else h
  { h with
    overIntr := { h.overIntr with due := some (lat.overIntr h.commands) }
    commands := h.commands + 1 }

/-! ## The routines -/

/-- A polling loop: `left` reads may still find the flag, the one after gives up. -/
def pollFor (flag : I2c → Flag) : Nat → I2c → Int × I2c
  | 0, h => (-1, readSr h)
  | left + 1, h =>
      if (flag (readSr h)).up then (0, readSr h) else pollFor flag left (readSr h)

/-- `I2C_DRV_WaitWriteEnd`. -/
def i2cDrvWaitWriteEnd (h : I2c) : Int × I2c :=
  let r := pollFor I2c.overIntr (I2C_WAIT_TIME_OUT + 1) h
  if r.1 ≠ 0 then r else (0, writeIcr I2C_CLEAR_ALL r.2)

/-- `I2C_DRV_WaitRead`. -/
def i2cDrvWaitRead (h : I2c) : Int × I2c := pollFor I2c.receive (I2C_WAIT_TIME_OUT + 1) h

/-- A byte is put into `I2C_TXR_REG` and sent with the command `c`; a time-out is
passed over. -/
def sendWith (c v : BitVec 32) (h : I2c) : I2c :=
  (i2cDrvWaitWriteEnd (writeCom D lat c (writeTxr v h))).2

/-- What both routines begin with: the device address for a write, and the
`I2cRegAddrByteNum` bytes of the register address. -/
def sendAddress (I2cDevAddr : BitVec 8) (I2cRegAddr : BitVec 32) (I2cRegAddrByteNum : Nat)
    (h : I2c) : I2c :=
  let h := writeIcr 0x03 h
  let h := writeCtrl 0x187 h
  let h := sendWith D lat (I2C_WRITE ||| I2C_START) (I2cDevAddr.setWidth 32 &&& WRITE_OPERATION) h
  (List.range I2cRegAddrByteNum).foldl
    (fun h i => sendWith D lat I2C_WRITE (I2cRegAddr >>> ((I2cRegAddrByteNum - i - 1) * 8)) h) h

/-- `I2C_DRV_Write`. -/
def i2cDrvWrite (I2cDevAddr : BitVec 8) (I2cRegAddr : BitVec 32) (I2cRegAddrByteNum : Nat)
    (Data : BitVec 32) (DataLen : Nat) (h : I2c) : BitVec 32 × I2c :=
  let h := sendAddress D lat I2cDevAddr I2cRegAddr I2cRegAddrByteNum h
  -- send data
  let h := (List.range DataLen).foldl
    (fun h i => writeIcr I2C_CLEAR_ALL
      (sendWith D lat I2C_WRITE (Data >>> ((DataLen - i - 1) * 8)) h)) h
  -- send stop flag
  let h := (i2cDrvWaitWriteEnd (writeCom D lat I2C_STOP h)).2
  (0, writeIcr 0x01 h)

/-- One turn of the read loop: at the last byte no ACK is returned. -/
def readTurn (DataLen : Nat) (r : BitVec 32 × I2c) (i : Nat) : BitVec 32 × I2c :=
  let h := writeCom D lat (if i = DataLen - 1 then I2C_READ ||| ~~~I2C_SEND_ACK else I2C_READ) r.2
  let h := (i2cDrvWaitRead h).2
  let Data := r.1 ||| h.RXR <<< ((DataLen - i - 1) * 8)
  (Data, (i2cDrvWaitWriteEnd h).2)

/-- `I2C_DRV_Read`. -/
def i2cDrvRead (I2cDevAddr : BitVec 8) (I2cRegAddr : BitVec 32) (I2cRegAddrByteNum : Nat)
    (DataLen : Nat) (h : I2c) : BitVec 32 × I2c :=
  let h := sendAddress D lat I2cDevAddr I2cRegAddr I2cRegAddrByteNum h
  let h := sendWith D lat (I2C_WRITE ||| I2C_START) (I2cDevAddr.setWidth 32 ||| READ_OPERATION) h
  -- read data
  let r := (List.range DataLen).foldl (readTurn D lat DataLen) (0, h)
  -- send stop flag
  (r.1, (i2cDrvWaitWriteEnd (writeCom D lat I2C_STOP r.2)).2)

/-- `I2C_DATA_S`. -/
structure I2cData where
  dev_addr : BitVec 8
  reg_addr : BitVec 32
  addr_byte : BitVec 32
  data : BitVec 32
  data_byte : BitVec 32
  deriving DecidableEq, Repr

def I2C_CMD_WRITE : BitVec 32 := 0x01
def I2C_CMD_READ : BitVec 32 := 0x03
def ENOIOCTLCMD : Int := 515

/-- `I2C_Ioctl`: what it returns, the argument it leaves and the controller. -/
def i2cIoctl (cmd : BitVec 32) (argp : I2cData) (h : I2c) : Int × I2cData × I2c :=
  if cmd = I2C_CMD_WRITE then
    (0, argp, (i2cDrvWrite D lat argp.dev_addr argp.reg_addr argp.addr_byte.toNat argp.data
      argp.data_byte.toNat h).2)
  else if cmd = I2C_CMD_READ then
    let r := i2cDrvRead D lat argp.dev_addr argp.reg_addr argp.addr_byte.toNat
      argp.data_byte.toNat h
    (0, { argp with data := r.1 }, r.2)
  else (-ENOIOCTLCMD, argp, h)

end ExtDrv.HiI2c
