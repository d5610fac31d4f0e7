import SpiNand.Interaction.Prog
import SpiNand.Driver.Regs

/-!
# The driver's global state and its calls into the HAL

`nand_flash.c` keeps three pieces of mutable state that outlive a function: the transaction
descriptor `g_PIOTransaction`, the settings `g_psMSPISettings`, and the peripheral's `CFG`
register, whose `ASIZE` and `TURNAROUND` fields the command helpers write directly. They make up
`Driver`. Everything else the driver does is a `Call`: to the HAL, to the console, or to the
stack.

* The HAL is not part of the repository. A call that returns a status asks for an `Answer`, and
  nothing is assumed about it here.
* A local variable declared without an initialiser holds whatever was on the stack.
  `Call.uninit` asks for that value too, so every theorem about every sequence of answers is
  also about every content of the stack.
-/

namespace SpiNand

open Interaction

/-! ## HAL types -/

/-- `am_hal_mspi_dir_e`. -/
inductive AmHalMspiDir
  | rx
  | tx
  deriving DecidableEq

/-- The MSPI device configurations the driver selects: number of lanes, on chip enable 0. -/
inductive AmHalMspiDevice
  | flashSerialCe0
  | flashQuadCe0
  deriving DecidableEq

/-- `am_hal_mspi_xipmixed_mode_e`, the values the driver selects. -/
inductive AmHalMspiXipmixedMode
  | normal
  | d4
  deriving DecidableEq

/-- `am_hal_mspi_pio_transfer_t`, the fields the driver writes. `pui32Buffer` is what the
buffer at that pointer holds, `[]` for `NULL`. -/
structure AmHalMspiPioTransfer where
  ui32NumBytes : UInt32
  eDirection : AmHalMspiDir
  bSendAddr : Bool
  ui32DeviceAddr : UInt32
  bSendInstr : Bool
  ui16DeviceInstr : UInt16
  bTurnaround : Bool
  bQuadCmd : Bool
  pui32Buffer : List UInt8

/-- `am_hal_mspi_dev_config_t`, the fields that reach `CFG`. An `eAddrCfg` of `n` means
addresses of `n + 1` bytes, as in the `ASIZE` field it is loaded into. -/
structure AmHalMspiDevConfig where
  ui8TurnAround : UInt8
  eAddrCfg : BitVec 2
  eDeviceConfig : AmHalMspiDevice
  eXipMixedMode : AmHalMspiXipmixedMode

/-- `MSPI->CFG`, the fields that matter for a transfer. -/
structure MspiCfg where
  asize : BitVec 2
  turnaround : BitVec 6
  devcfg : AmHalMspiDevice

/-- The mutable globals of `nand_flash.c`, with the peripheral register it writes. -/
structure Driver where
  gPIOTransaction : AmHalMspiPioTransfer
  gPsMSPISettings : AmHalMspiDevConfig
  cfg : MspiCfg

/-- The globals as `nand_flash.c` initialises them, and `CFG` as loaded from the settings. -/
def Driver.initial : Driver where
  gPIOTransaction :=
    { ui32NumBytes := 0, eDirection := .rx, bSendAddr := false, ui32DeviceAddr := 0
      bSendInstr := false, ui16DeviceInstr := 0, bTurnaround := false, bQuadCmd := false
      pui32Buffer := [] }
  gPsMSPISettings :=
    { ui8TurnAround := 8, eAddrCfg := 1, eDeviceConfig := .flashSerialCe0
      eXipMixedMode := .normal }
  cfg := { asize := 1, turnaround := 8, devcfg := .flashSerialCe0 }

/-! ## Calls and answers -/

/-- What `am_hal_mspi_blocking_transfer` is given: the transaction, the configuration the
peripheral is in, and the time it may take. -/
structure Transfer where
  pio : AmHalMspiPioTransfer
  cfg : MspiCfg
  timeoutUs : UInt32

/-- HAL calls that set the peripheral up and return a status. -/
inductive Setup
  | mspiInitialize
  | mspiPowerControl
  | mspiDeviceConfigure (settings : AmHalMspiDevConfig)
  | mspiEnable
  | mspiDisable
  | mspiInterruptClear
  | mspiInterruptEnable

/-- Calls that return nothing. -/
inductive Void
  | delayUs (us : UInt32)
  | delayMs (ms : UInt32)
  | printf (text : String)
  | mcuctrlFaultCaptureEnable
  | mspiPinsEnable (device : AmHalMspiDevice)
  | gpioPinconfigSck
  | gpioPinconfigD1
  | gpioPinconfigCe0
  | nvicEnableIrq
  | interruptMasterEnable

/-- Everything the driver asks of its surroundings. -/
inductive Call
  | blockingTransfer (t : Transfer)
  | setup (s : Setup)
  | void (v : Void)
  | uninit

/-- An answer: the status returned, and the bytes received (or found on the stack). -/
structure Answer where
  status : Status
  bytes : Nat → UInt8

/-- Why a program may be stopped: a loop used up its fuel, or a `NULL` pointer was written
through. -/
inductive Halt
  | outOfFuel
  | nullWrite
  deriving DecidableEq

/-- The C functions of the driver, as programs over its globals. -/
abbrev DriverM := StateT Driver (Prog Call Answer Halt)

/-- One exchange with the surroundings. -/
abbrev Exchange := Call × Answer

abbrev Trace := List Exchange

/-! ## Calling out -/

def call (c : Call) : DriverM Answer := fun d => .ask c fun a => .done (a, d)

def halt {α : Type} (h : Halt) : DriverM α := fun _ => .stop h

/-- `AM_DEVICES_MSPI_FLASH_TIMEOUT`. -/
def amDevicesMspiFlashTimeout : UInt32 := 10000

/-- `am_hal_mspi_blocking_transfer` on `g_PIOTransaction`. -/
def amHalMspiBlockingTransfer : DriverM Answer := do
  let d ← get
  call (.blockingTransfer
    { pio := d.gPIOTransaction, cfg := d.cfg, timeoutUs := amDevicesMspiFlashTimeout })

/-- What a buffer holds after a transfer of `len` bytes into it. -/
def received (len : Nat) (buffer : List UInt8) (a : Answer) : List UInt8 :=
  (List.range len).map a.bytes ++ buffer.drop len

def amUtilDelayUs (us : UInt32) : DriverM Unit := do
  let _ ← call (.void (.delayUs us))

def amUtilDelayMs (ms : UInt32) : DriverM Unit := do
  let _ ← call (.void (.delayMs ms))

def amUtilStdioPrintf (text : String) : DriverM Unit := do
  let _ ← call (.void (.printf text))

/-! ## Uninitialised locals -/

def uninitByte : DriverM UInt8 := do
  let a ← call .uninit
  return a.bytes 0

def uninitBool : DriverM Bool := do
  return (← uninitByte) ≠ 0

def uninitBytes (len : Nat) : DriverM (List UInt8) := do
  let a ← call .uninit
  return (List.range len).map a.bytes

/-! ## Writing the globals -/

/-- `MSPI->CFG_b.ASIZE = asize`. -/
def setAsize (asize : BitVec 2) : DriverM Unit :=
  modify fun d => { d with cfg := { d.cfg with asize } }

/-- `MSPI->CFG_b.TURNAROUND = turnaround`. -/
def setTurnaround (turnaround : BitVec 6) : DriverM Unit :=
  modify fun d => { d with cfg := { d.cfg with turnaround } }

end SpiNand
