import SpiNand.Driver.Mspi

/-!
# The command helpers

`am_device_command_write`, `am_device_command_read` and the `_nand_cmd_*` helpers: each prepares
the transaction descriptor and the address width and starts one blocking transfer. Each helper
is followed by its equation on a given state, which shows the transfer in full. Every field of
the transaction and the `ASIZE` field are set by the helper itself, so of the state before it
only `TURNAROUND` and the lane configuration still show.
-/

namespace SpiNand

open Interaction

/-! ## The generic commands -/

/-- The transaction `am_device_command_write` prepares. -/
def writeTransaction (ui8Instr : UInt8) (bSendAddr : Bool) (ui32Addr : UInt32)
    (pData : List UInt8) (ui32NumBytes : UInt32) : AmHalMspiPioTransfer where
  ui32NumBytes := ui32NumBytes
  eDirection := .tx
  bSendAddr := bSendAddr
  ui32DeviceAddr := ui32Addr
  bSendInstr := true
  ui16DeviceInstr := ui8Instr.toUInt16
  bTurnaround := false
  bQuadCmd := false
  pui32Buffer := pData

/-- The transaction `am_device_command_read` prepares. -/
def readTransaction (ui8Instr : UInt8) (bSendAddr : Bool) (ui32Addr : UInt32)
    (pData : List UInt8) (ui32NumBytes : UInt32) : AmHalMspiPioTransfer where
  eDirection := .rx
  bSendAddr := bSendAddr
  ui32DeviceAddr := ui32Addr
  bSendInstr := true
  ui16DeviceInstr := ui8Instr.toUInt16
  bTurnaround := false
  ui32NumBytes := ui32NumBytes
  bQuadCmd := false
  pui32Buffer := pData

def amDeviceCommandWrite (ui8Instr : UInt8) (bSendAddr : Bool) (ui32Addr : UInt32)
    (pData : List UInt8) (ui32NumBytes : UInt32) : DriverM Status := do
  modify fun d => { d with gPIOTransaction := { d.gPIOTransaction with
    ui32NumBytes := ui32NumBytes
    eDirection := .tx
    bSendAddr := bSendAddr
    ui32DeviceAddr := ui32Addr
    bSendInstr := true
    ui16DeviceInstr := ui8Instr.toUInt16
    bTurnaround := false
    bQuadCmd := false
    pui32Buffer := pData } }
  let a ← amHalMspiBlockingTransfer
  return a.status

/-- The second component is what the buffer `pData` holds afterwards. -/
def amDeviceCommandRead (ui8Instr : UInt8) (bSendAddr : Bool) (ui32Addr : UInt32)
    (pData : List UInt8) (ui32NumBytes : UInt32) : DriverM (Status × List UInt8) := do
  modify fun d => { d with gPIOTransaction := { d.gPIOTransaction with
    eDirection := .rx
    bSendAddr := bSendAddr
    ui32DeviceAddr := ui32Addr
    bSendInstr := true
    ui16DeviceInstr := ui8Instr.toUInt16
    bTurnaround := false
    ui32NumBytes := ui32NumBytes
    bQuadCmd := false
    pui32Buffer := pData } }
  let a ← amHalMspiBlockingTransfer
  return (a.status, received ui32NumBytes.toNat pData a)

/-! ## Feature registers

GET_FEATURES and SET_FEATURES use one-byte addresses, unlike all other commands: the helpers
save `ASIZE`, set it to one byte, and restore it. -/

def nandCmdGetFeatures (addr : UInt8) : DriverM (Status × UInt8) := do
  let returnedData := [0, 0, 0, 0]
  let mspiCfgOldAsize := (← get).cfg.asize
  setAsize 0x00
  modify fun d => { d with gPIOTransaction := { d.gPIOTransaction with
    eDirection := .rx
    bSendAddr := true
    ui32DeviceAddr := addr.toUInt32
    bSendInstr := true
    ui16DeviceInstr := cmdGetFeatures.toUInt16
    bTurnaround := false
    ui32NumBytes := 1
    bQuadCmd := false
    pui32Buffer := returnedData } }
  let a ← amHalMspiBlockingTransfer
  setAsize mspiCfgOldAsize
  -- the received byte is the low byte of `returned_data`
  return (a.status, a.bytes 0)

def nandCmdSetFeatures (addr : UInt8) (data : UInt8) : DriverM Status := do
  let mspiCfgOldAsize := (← get).cfg.asize
  setAsize 0x00
  modify fun d => { d with gPIOTransaction := { d.gPIOTransaction with
    eDirection := .tx
    bSendAddr := true
    ui32DeviceAddr := addr.toUInt32
    bSendInstr := true
    ui16DeviceInstr := cmdSetFeatures.toUInt16
    bTurnaround := false
    ui32NumBytes := 1
    bQuadCmd := false
    pui32Buffer := [data, 0, 0, 0] } }
  let a ← amHalMspiBlockingTransfer
  setAsize mspiCfgOldAsize
  return a.status

/-! ## Commands without an address -/

def nandCmdWriteEnable : DriverM Status := amDeviceCommandWrite cmdWriteEnable false 0 [] 0

/-! ## Array and cache commands -/

def nandCmdPageRead (pageAddr : UInt32) : DriverM Status := do
  setAsize 0x02
  amDeviceCommandWrite cmdPageRead true pageAddr [] 0

/-- READ FROM CACHE x1. The dummy byte after the column is the low byte of a three-byte
address. -/
def nandCmdReadX1 (columnAddr : UInt16) (data : List UInt8) (dataLen : UInt32) :
    DriverM (Status × List UInt8) := do
  setAsize 0x02
  let addrPlusDummy := columnAddr.toUInt32 <<< 8
  amDeviceCommandRead cmdReadCacheSingle true addrPlusDummy data dataLen

def nandCmdProgramLoadX1 (columnAddr : UInt16) (data : List UInt8) (dataLen : UInt32) :
    DriverM Status := do
  setAsize 0x01
  setTurnaround 0
  amDeviceCommandWrite cmdProgramLoad true columnAddr.toUInt32 data dataLen

/-- Random Data Program x1, writes to the cache without clearing it. -/
def nandCmdProgramLoadRandomX1 (columnAddr : UInt16) (data : List UInt8) (dataLen : UInt32) :
    DriverM Status := do
  setAsize 0x01
  setTurnaround 0
  amDeviceCommandWrite cmdProgramLoadRandom true columnAddr.toUInt32 data dataLen

def nandCmdProgramExecute (pageAddr : UInt32) : DriverM Status := do
  setAsize 0x02
  amDeviceCommandWrite cmdProgramExecute true pageAddr [] 0

def nandCmdBlockErase (pageAddr : UInt32) : DriverM Status := do
  setAsize 0x02
  amDeviceCommandWrite cmdBlockErase true pageAddr [] 0

/-! ## What the helpers do on a given state

`Driver.starts d pio asize` is the transfer a helper starts, and `Driver.after` the state it
leaves. A helper is one such transfer, and its status is the HAL's. -/

namespace Driver

/-- The transfer of the transaction `pio` with addresses of `asize + 1` bytes. -/
def starts (d : Driver) (pio : AmHalMspiPioTransfer) (asize : BitVec 2) : Transfer where
  pio := pio
  cfg := { d.cfg with asize }
  timeoutUs := amDevicesMspiFlashTimeout

/-- The state after that transfer, the address width left behind. -/
def after (d : Driver) (pio : AmHalMspiPioTransfer) (asize : BitVec 2) : Driver :=
  { d with gPIOTransaction := pio, cfg := { d.cfg with asize } }

/-- The state with the turnaround switched off. -/
def noTurnaround (d : Driver) : Driver := { d with cfg := { d.cfg with turnaround := 0 } }

end Driver

/-- The transaction of GET_FEATURES. -/
def getFeaturesTransaction (addr : UInt8) : AmHalMspiPioTransfer :=
  readTransaction cmdGetFeatures true addr.toUInt32 [0, 0, 0, 0] 1

/-- The transaction of SET_FEATURES. -/
def setFeaturesTransaction (addr data : UInt8) : AmHalMspiPioTransfer :=
  writeTransaction cmdSetFeatures true addr.toUInt32 [data, 0, 0, 0] 1

theorem amUtilDelayUs_apply (us : UInt32) (d : Driver) :
    amUtilDelayUs us d = .ask (.void (.delayUs us)) fun _ => .done ((), d) := rfl

theorem amDeviceCommandWrite_apply (instr : UInt8) (sendAddr : Bool) (addr : UInt32)
    (data : List UInt8) (len : UInt32) (d : Driver) :
    amDeviceCommandWrite instr sendAddr addr data len d =
      .ask (.blockingTransfer
          (d.starts (writeTransaction instr sendAddr addr data len) d.cfg.asize))
        fun a => .done (a.status,
          d.after (writeTransaction instr sendAddr addr data len) d.cfg.asize) := rfl

theorem amDeviceCommandRead_apply (instr : UInt8) (sendAddr : Bool) (addr : UInt32)
    (data : List UInt8) (len : UInt32) (d : Driver) :
    amDeviceCommandRead instr sendAddr addr data len d =
      .ask (.blockingTransfer
          (d.starts (readTransaction instr sendAddr addr data len) d.cfg.asize))
        fun a => .done ((a.status, received len.toNat data a),
          d.after (readTransaction instr sendAddr addr data len) d.cfg.asize) := rfl

theorem nandCmdGetFeatures_apply (addr : UInt8) (d : Driver) :
    nandCmdGetFeatures addr d =
      .ask (.blockingTransfer (d.starts (getFeaturesTransaction addr) 0))
        fun a => .done ((a.status, a.bytes 0),
          d.after (getFeaturesTransaction addr) d.cfg.asize) := rfl

theorem nandCmdSetFeatures_apply (addr data : UInt8) (d : Driver) :
    nandCmdSetFeatures addr data d =
      .ask (.blockingTransfer (d.starts (setFeaturesTransaction addr data) 0))
        fun a => .done (a.status,
          d.after (setFeaturesTransaction addr data) d.cfg.asize) := rfl

theorem nandCmdWriteEnable_apply (d : Driver) :
    nandCmdWriteEnable d =
      .ask (.blockingTransfer
          (d.starts (writeTransaction cmdWriteEnable false 0 [] 0) d.cfg.asize))
        fun a => .done (a.status,
          d.after (writeTransaction cmdWriteEnable false 0 [] 0) d.cfg.asize) := rfl

theorem nandCmdPageRead_apply (pageAddr : UInt32) (d : Driver) :
    nandCmdPageRead pageAddr d =
      .ask (.blockingTransfer (d.starts (writeTransaction cmdPageRead true pageAddr [] 0) 2))
        fun a => .done (a.status,
          d.after (writeTransaction cmdPageRead true pageAddr [] 0) 2) := rfl

theorem nandCmdReadX1_apply (columnAddr : UInt16) (data : List UInt8) (len : UInt32)
    (d : Driver) :
    nandCmdReadX1 columnAddr data len d =
      .ask (.blockingTransfer (d.starts
          (readTransaction cmdReadCacheSingle true (columnAddr.toUInt32 <<< 8) data len) 2))
        fun a => .done ((a.status, received len.toNat data a), d.after
          (readTransaction cmdReadCacheSingle true (columnAddr.toUInt32 <<< 8) data len) 2) :=
  rfl

theorem nandCmdProgramLoadX1_apply (columnAddr : UInt16) (data : List UInt8) (len : UInt32)
    (d : Driver) :
    nandCmdProgramLoadX1 columnAddr data len d =
      .ask (.blockingTransfer (d.noTurnaround.starts
          (writeTransaction cmdProgramLoad true columnAddr.toUInt32 data len) 1))
        fun a => .done (a.status, d.noTurnaround.after
          (writeTransaction cmdProgramLoad true columnAddr.toUInt32 data len) 1) := rfl

theorem nandCmdProgramLoadRandomX1_apply (columnAddr : UInt16) (data : List UInt8)
    (len : UInt32) (d : Driver) :
    nandCmdProgramLoadRandomX1 columnAddr data len d =
      .ask (.blockingTransfer (d.noTurnaround.starts
          (writeTransaction cmdProgramLoadRandom true columnAddr.toUInt32 data len) 1))
        fun a => .done (a.status, d.noTurnaround.after
          (writeTransaction cmdProgramLoadRandom true columnAddr.toUInt32 data len) 1) := rfl

theorem nandCmdProgramExecute_apply (pageAddr : UInt32) (d : Driver) :
    nandCmdProgramExecute pageAddr d =
      .ask (.blockingTransfer (d.starts (writeTransaction cmdProgramExecute true pageAddr [] 0) 2))
        fun a => .done (a.status,
          d.after (writeTransaction cmdProgramExecute true pageAddr [] 0) 2) := rfl

theorem nandCmdBlockErase_apply (pageAddr : UInt32) (d : Driver) :
    nandCmdBlockErase pageAddr d =
      .ask (.blockingTransfer (d.starts (writeTransaction cmdBlockErase true pageAddr [] 0) 2))
        fun a => .done (a.status,
          d.after (writeTransaction cmdBlockErase true pageAddr [] 0) 2) := rfl

end SpiNand
