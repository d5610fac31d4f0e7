import SpiNand.Driver.Flash

/-!
# The quad reads

`_nand_cmd_read_x4` switches the MSPI to four lanes around one blocking transfer.
`_nand_cmd_read_quadio` hands the MSPI a queue of register writes, holds chip enable low as a
GPIO while the queue runs, and polls a flag that the completion interrupt sets.

* `QueueCall` is what the queued read asks of its surroundings besides the HAL calls of `Call`:
  the chip enable pin, the raw command queue, and the flag `g_dma_complete`. The driver only
  reads the flag, so it belongs to whoever answers.
* The entries of a queue are writes to the MSPI registers, in order. They are taken to be done
  when the HAL accepts the queue, and of what they write only `CFG` is a part of `Driver`.
-/

namespace SpiNand

open Interaction

/-! ## Loading the configuration -/

/-- The state once `CFG` is loaded from the settings. -/
def Driver.configured (d : Driver) : Driver :=
  { d with cfg :=
    { asize := d.gPsMSPISettings.eAddrCfg
      turnaround := BitVec.ofNat 6 d.gPsMSPISettings.ui8TurnAround.toNat
      devcfg := d.gPsMSPISettings.eDeviceConfig } }

theorem amHalMspiDeviceConfigure_apply (d : Driver) :
    amHalMspiDeviceConfigure d = .ask (.setup (.mspiDeviceConfigure d.gPsMSPISettings)) fun a =>
      .done (a.status, if a.status = amHalStatusSuccess then d.configured else d) := by
  refine congrArg (Prog.ask _) (funext fun a => ?_)
  by_cases hok : a.status = amHalStatusSuccess
  · rw [if_pos hok]
    show (if a.status = amHalStatusSuccess then _ else _ : DriverM Status) d = _
    rw [if_pos hok]
    rfl
  · rw [if_neg hok]
    show (if a.status = amHalStatusSuccess then _ else _ : DriverM Status) d = _
    rw [if_neg hok]
    rfl

/-! ## Four lanes around a transfer -/

def mspiSetUseQuadspi (useQuadspi : Bool) : DriverM Status := do
  -- disable MSPI before re-configuring it
  if amHalStatusSuccess ≠ (← setup .mspiDisable) then
    return amDevicesMspiFlashStatusError
  if useQuadspi then
    modify fun d => { d with gPsMSPISettings := { d.gPsMSPISettings with
      eDeviceConfig := .flashQuadCe0
      eXipMixedMode := .d4 } }
  else
    modify fun d => { d with gPsMSPISettings := { d.gPsMSPISettings with
      eDeviceConfig := .flashSerialCe0
      eXipMixedMode := .normal } }
  if amHalStatusSuccess ≠ (← amHalMspiDeviceConfigure) then
    return amDevicesMspiFlashStatusError
  if amHalStatusSuccess ≠ (← setup .mspiEnable) then
    return amDevicesMspiFlashStatusError
  return amHalStatusSuccess

/-- READ FROM CACHE x4. The second component is what the buffer `data` holds afterwards. -/
def nandCmdReadX4 (columnAddr : UInt16) (data : List UInt8) (dataLen : UInt32) :
    DriverM (Status × List UInt8) := do
  setAsize 0x01
  setTurnaround 4
  let ui32Status ← mspiSetUseQuadspi true
  if ui32Status ≠ amHalStatusSuccess then return (ui32Status, data)
  modify fun d => { d with gPIOTransaction := { d.gPIOTransaction with
    eDirection := .rx
    bSendAddr := true
    ui32DeviceAddr := columnAddr.toUInt32
    bSendInstr := true
    ui16DeviceInstr := cmdReadCacheX4.toUInt16
    bTurnaround := true
    ui32NumBytes := dataLen
    bQuadCmd := true
    pui32Buffer := data } }
  let a ← amHalMspiBlockingTransfer
  let data := received dataLen.toNat data a
  -- on failure the four lanes stay
  if a.status ≠ amHalStatusSuccess then return (a.status, data)
  let ui32Status ← mspiSetUseQuadspi false
  return (ui32Status, data)

/-! ## The raw command queue -/

/-- A register write of a command queue: the register, and the fields of the value. -/
inductive CmdqEntry
  | addr (value : UInt32)
  | instr (value : UInt8)
  | cfg (value : MspiCfg)
  | ctrl (xferbytes : UInt32) (txrx : AmHalMspiDir) (sendi senda enturn bigendian start : Bool)
  | dmatargaddr (value : UInt32)
  | dmatotcount (value : UInt32)
  | dmadevaddrRxfifo
  | dmathresh (value : UInt32)
  | dmabcount (value : UInt32)
  | flash (xipsendi xipsenda xipenturn : Bool)
  | dmacfg (dmapwroff dmapri dmadirP2m dmaen : Bool)

/-- `am_hal_mspi_cq_raw_t`. The callback is always `dma_complete_callback`, and the number of
entries is the length of the queue. -/
structure AmHalMspiCqRaw where
  ui32PauseCondition : UInt32
  pCQEntry : List CmdqEntry

/-- What a register write does to `CFG`. -/
def CmdqEntry.write (cfg : MspiCfg) : CmdqEntry → MspiCfg
  | .cfg value => value
  | _ => cfg

/-- The function of the chip enable pin: driven by the MSPI, or a GPIO. -/
inductive PinFuncSel
  | mspi
  | gpio
  deriving DecidableEq

/-- Everything the queued read asks of its surroundings. -/
inductive QueueCall
  | hal (c : Call)
  | gpioPinconfigCe0 (uFuncSel : PinFuncSel)
  | gpioOutputClearCe0
  | gpioOutputSetCe0
  | mspiControlCqRaw (rawCq : AmHalMspiCqRaw)
  | readDmaComplete

/-- The driver with its queued read. -/
abbrev QueueM := StateT Driver (Prog QueueCall Answer Halt)

abbrev QueueTrace := List (QueueCall × Answer)

/-- A function of the driver that does not use the queue. -/
def hal {α : Type} (m : DriverM α) : QueueM α := fun d => (m d).lift QueueCall.hal

def queueCall (c : QueueCall) : QueueM Answer := fun d => .ask c fun a => .done (a, d)

def amHalGpioPinconfig (uFuncSel : PinFuncSel) : QueueM Unit := do
  let _ ← queueCall (.gpioPinconfigCe0 uFuncSel)

def amHalGpioOutputClear : QueueM Unit := do
  let _ ← queueCall .gpioOutputClearCe0

def amHalGpioOutputSet : QueueM Unit := do
  let _ ← queueCall .gpioOutputSetCe0

/-- `am_hal_mspi_control` with a raw command queue. -/
def amHalMspiControlCqRaw (rawCq : AmHalMspiCqRaw) : QueueM Status := do
  let a ← queueCall (.mspiControlCqRaw rawCq)
  if a.status = amHalStatusSuccess then
    modify fun d => { d with cfg := rawCq.pCQEntry.foldl CmdqEntry.write d.cfg }
  return a.status

/-- The value of `g_dma_complete`. -/
def gDmaComplete : QueueM Bool := do
  let a ← queueCall .readDmaComplete
  return a.bytes 0 ≠ 0

/-! ## The queued read -/

/-- The queue of `_nand_cmd_read_quadio`: the address on one lane, then the data on four. -/
def commandQueue (columnAddr : UInt16) (data dataLen : UInt32) : List CmdqEntry :=
  [ .addr columnAddr.toUInt32,
    .instr cmdReadCacheX4,
    -- this part is one bit wide
    .cfg { asize := 1, turnaround := 8, devcfg := .flashSerialCe0 },
    .ctrl 0 .tx true true true false true,
    .dmatargaddr data,
    .dmatotcount dataLen,
    .dmadevaddrRxfifo,
    .dmathresh 8,
    .dmabcount 32,
    -- set to four lanes; the fields that are not named are zero
    .cfg { asize := 0, turnaround := 8, devcfg := .flashQuadCe0 },
    .ctrl dataLen .rx false false true false false,
    .flash false false true,
    .dmacfg false false true true ]

/-- The polls of the flag, at most as many as there are left. -/
def nandCmdReadQuadioLoop : Nat → QueueM Unit
  | 0 => pure ()
  | left + 1 => do
    if ← gDmaComplete then
      return ()
    hal (amUtilDelayUs 1)
    nandCmdReadQuadioLoop left

/-- READ FROM CACHE Quad I/O into the memory at `data`. -/
def nandCmdReadQuadio (columnAddr : UInt16) (data dataLen : UInt32) : QueueM Status := do
  let rawCq : AmHalMspiCqRaw :=
    { ui32PauseCondition := 0, pCQEntry := commandQueue columnAddr data dataLen }
  -- chip enable is a GPIO, held low
  amHalGpioPinconfig .gpio
  amHalGpioOutputClear
  let ui32Status ← amHalMspiControlCqRaw rawCq
  if ui32Status ≠ amHalStatusSuccess then return ui32Status
  nandCmdReadQuadioLoop amDevicesMspiFlashTimeout.toNat
  -- raise chip enable
  amHalGpioOutputSet
  hal (amUtilDelayUs 100)
  amHalGpioPinconfig .mspi
  return ui32Status

/-! ## What the queued read does on a given state -/

/-- The state once the entries of a queue have been written. -/
def Driver.queued (d : Driver) (entries : List CmdqEntry) : Driver :=
  { d with cfg := entries.foldl CmdqEntry.write d.cfg }

theorem amHalMspiControlCqRaw_apply (rawCq : AmHalMspiCqRaw) (d : Driver) :
    amHalMspiControlCqRaw rawCq d = .ask (.mspiControlCqRaw rawCq) fun a =>
      .done (a.status, if a.status = amHalStatusSuccess then d.queued rawCq.pCQEntry else d) := by
  refine congrArg (Prog.ask _) (funext fun a => ?_)
  by_cases hok : a.status = amHalStatusSuccess
  · rw [if_pos hok]
    show (if a.status = amHalStatusSuccess then _ else _ : QueueM Status) d = _
    rw [if_pos hok]
    rfl
  · rw [if_neg hok]
    show (if a.status = amHalStatusSuccess then _ else _ : QueueM Status) d = _
    rw [if_neg hok]
    rfl

theorem nandCmdReadQuadioLoop_succ (left : Nat) (d : Driver) :
    nandCmdReadQuadioLoop (left + 1) d = .ask .readDmaComplete fun a =>
      if a.bytes 0 ≠ 0 then .done ((), d)
      else .ask (.hal (.void (.delayUs 1))) fun _ => nandCmdReadQuadioLoop left d := by
  refine congrArg (Prog.ask _) (funext fun a => ?_)
  by_cases hdone : a.bytes 0 ≠ 0
  · rw [if_pos hdone]
    show (if decide (a.bytes 0 ≠ 0) = true then _ else _ : QueueM Unit) d = _
    rw [if_pos (decide_eq_true hdone)]
    rfl
  · rw [if_neg hdone]
    show (if decide (a.bytes 0 ≠ 0) = true then _ else _ : QueueM Unit) d = _
    rw [if_neg (by simpa using hdone)]
    rfl

/-- The end of the queued read: chip enable is raised and given back to the MSPI. -/
def raiseCe (r : Status × Driver) : Prog QueueCall Answer Halt (Status × Driver) :=
  .ask .gpioOutputSetCe0 fun _ => .ask (.hal (.void (.delayUs 100))) fun _ =>
    .ask (.gpioPinconfigCe0 .mspi) fun _ => .done r

theorem nandCmdReadQuadio_apply (columnAddr : UInt16) (data dataLen : UInt32) (d : Driver) :
    nandCmdReadQuadio columnAddr data dataLen d =
      .ask (.gpioPinconfigCe0 .gpio) fun _ => .ask .gpioOutputClearCe0 fun _ =>
      .ask (.mspiControlCqRaw
          { ui32PauseCondition := 0, pCQEntry := commandQueue columnAddr data dataLen }) fun a =>
        if a.status ≠ amHalStatusSuccess then .done (a.status, d)
        else (nandCmdReadQuadioLoop amDevicesMspiFlashTimeout.toNat
          (d.queued (commandQueue columnAddr data dataLen))).bind fun r =>
            raiseCe (a.status, r.2) := by
  refine congrArg (Prog.ask _) (funext fun _ => ?_)
  refine congrArg (Prog.ask _) (funext fun _ => ?_)
  show (amHalMspiControlCqRaw
    { ui32PauseCondition := 0, pCQEntry := commandQueue columnAddr data dataLen } d).bind
      (fun r => (if r.1 ≠ amHalStatusSuccess then pure r.1 else do
        nandCmdReadQuadioLoop amDevicesMspiFlashTimeout.toNat
        amHalGpioOutputSet
        hal (amUtilDelayUs 100)
        amHalGpioPinconfig .mspi
        return r.1 : QueueM Status) r.2) = _
  rw [amHalMspiControlCqRaw_apply]
  refine congrArg (Prog.ask _) (funext fun a => ?_)
  show (if a.status ≠ amHalStatusSuccess then pure a.status else _ : QueueM Status) _ = _
  by_cases hok : a.status = amHalStatusSuccess
  · rw [if_neg (not_ne_iff.mpr hok), if_neg (not_ne_iff.mpr hok), if_pos hok]
    rfl
  · rw [if_pos hok, if_pos hok, if_neg hok]
    rfl

end SpiNand
