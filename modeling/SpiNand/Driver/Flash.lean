import SpiNand.Driver.WaitBusy

/-!
# The operations of the flash driver

The public functions of `nand_flash.h`, in the order of `nand_flash.c`. An out-parameter is an
argument, what the pointer refers to before the call, and a component of the result, what it
refers to afterwards; a pointer that may be `NULL` is an `Option`. A local variable declared
without an initialiser takes its value from `uninit…`.

`nand_mark_bad_block` polls in a loop that only the chip can end, so it takes fuel for that
loop. Every other loop is bounded by the driver itself.
-/

namespace SpiNand

open Interaction

/-- Convert a block number into a page address, that of its first page. -/
def blockToPageAddr (blockAddr : UInt32) : UInt32 := blockAddr <<< log2Ppb

/-! ## Reset, initialisation and identification -/

def nandReset : DriverM Status := do
  if amHalStatusSuccess ≠ (← amDeviceCommandWrite cmdReset false 0 [] 0) then
    return amDevicesMspiFlashStatusError
  amUtilDelayMs resetTimeMs
  return amDevicesMspiFlashStatusSuccess

/-- Device specific initialisation: unlock all blocks. -/
def nandInitDevice : DriverM Status :=
  nandCmdSetFeatures featureRegBlockLock featureRegBlockLockUnlockAll

/-- A HAL call that sets the peripheral up. -/
def setup (s : Setup) : DriverM Status := do
  let a ← call (.setup s)
  return a.status

/-- `am_hal_mspi_device_configure` loads `CFG` from the settings it is given. -/
def amHalMspiDeviceConfigure : DriverM Status := do
  let settings := (← get).gPsMSPISettings
  let ui32Status ← setup (.mspiDeviceConfigure settings)
  if ui32Status = amHalStatusSuccess then
    modify fun d => { d with cfg :=
      { asize := settings.eAddrCfg
        turnaround := BitVec.ofNat 6 settings.ui8TurnAround.toNat
        devcfg := settings.eDeviceConfig } }
  return ui32Status

def void (v : Void) : DriverM Unit := do
  let _ ← call (.void v)

def nandInit : DriverM Status := do
  void .mcuctrlFaultCaptureEnable
  if amHalStatusSuccess ≠ (← setup .mspiInitialize) then
    amUtilStdioPrintf "Error - Failed to initialize MSPI.\n"
    return amDevicesMspiFlashStatusError
  if amHalStatusSuccess ≠ (← setup .mspiPowerControl) then
    amUtilStdioPrintf "Error - Failed to power on MSPI.\n"
    return amDevicesMspiFlashStatusError
  if amHalStatusSuccess ≠ (← amHalMspiDeviceConfigure) then
    amUtilStdioPrintf "Error - Failed to configure MSPI.\n"
    return amDevicesMspiFlashStatusError
  if amHalStatusSuccess ≠ (← setup .mspiEnable) then
    amUtilStdioPrintf "Error - Failed to enable MSPI.\n"
    return amDevicesMspiFlashStatusError
  void (.mspiPinsEnable (← get).gPsMSPISettings.eDeviceConfig)
  if amHalStatusSuccess ≠ (← nandReset) then
    return amDevicesMspiFlashStatusError
  if amHalStatusSuccess ≠ (← nandInitDevice) then
    return amDevicesMspiFlashStatusError
  -- disable, re-configure and re-enable the MSPI
  if amHalStatusSuccess ≠ (← setup .mspiDisable) then
    return amDevicesMspiFlashStatusError
  if amHalStatusSuccess ≠ (← amHalMspiDeviceConfigure) then
    return amDevicesMspiFlashStatusError
  if amHalStatusSuccess ≠ (← setup .mspiEnable) then
    return amDevicesMspiFlashStatusError
  -- only the pins are enabled for four lanes, the configuration stays as it is
  void (.mspiPinsEnable .flashQuadCe0)
  void .gpioPinconfigSck
  void .gpioPinconfigD1
  void .gpioPinconfigCe0
  if amHalStatusSuccess ≠ (← setup .mspiInterruptClear) then
    return amDevicesMspiFlashStatusError
  if amHalStatusSuccess ≠ (← setup .mspiInterruptEnable) then
    return amDevicesMspiFlashStatusError
  void .nvicEnableIrq
  void .interruptMasterEnable
  return amDevicesMspiFlashStatusSuccess

/-- The 32-bit word whose bytes are in memory, least significant first. -/
def leWord (bytes : List UInt8) : UInt32 :=
  bytes.foldr (fun b w => w <<< 8 ||| b.toUInt32) 0

def nandId : DriverM Status := do
  let ui32DeviceID ← uninitBytes 4
  -- three bytes are read, the first one a dummy
  let (ui32Status, ui32DeviceID) ← amDeviceCommandRead cmdReadId false 0 ui32DeviceID 3
  let ui32DeviceID := leWord ui32DeviceID >>> 8
  if ui32DeviceID &&& nandIDMask = nandID &&& nandIDMask ∧ amHalStatusSuccess = ui32Status then
    return amDevicesMspiFlashStatusSuccess
  else
    return amDevicesMspiFlashStatusError

/-! ## Error correction -/

/-- `ecc_err_t`. -/
inductive EccErr
  | ok
  | corrected
  | shouldRefresh
  | mustRefresh
  | fatal
  deriving DecidableEq

/-- Get the ECC bits from the status register. -/
def nandStatusToEcc (statusReg : UInt8) : EccErr :=
  let field := (statusReg &&& featureRegStatusEccMask) >>> featureRegStatusEccShift
  if field = featureRegStatusEccNoErr then .ok
  else if field = featureRegStatusEcc13Err then .corrected
  else if field = featureRegStatusEcc46Err then .shouldRefresh
  else if field = featureRegStatusEcc78Err then .mustRefresh
  else if field = featureRegStatusEccFatalErr then .fatal
  else .fatal

/-- The ECC field of a status byte. -/
def eccField (statusReg : UInt8) : UInt8 :=
  (statusReg &&& featureRegStatusEccMask) >>> featureRegStatusEccShift

/-- Every field but those of a clean or corrected page counts as uncorrectable, also the reserved
ones. -/
theorem nandStatusToEcc_eq_fatal_iff (statusReg : UInt8) :
    nandStatusToEcc statusReg = .fatal ↔ eccField statusReg ∉ [0, 1, 3, 5] := by
  unfold nandStatusToEcc eccField
  generalize (statusReg &&& featureRegStatusEccMask) >>> featureRegStatusEccShift = field
  simp only [featureRegStatusEccNoErr, featureRegStatusEcc13Err, featureRegStatusEcc46Err,
    featureRegStatusEcc78Err, List.mem_cons, List.not_mem_nil, or_false, not_or]
  by_cases h0 : field = 0
  · simp [h0]
  by_cases h1 : field = 1
  · simp [h1]
  by_cases h3 : field = 3
  · simp [h3]
  by_cases h5 : field = 5
  · simp [h5]
  · simp [h0, h1, h3, h5]

/-! ## Erase and program -/

/-- Erase a block and check the status returned by the chip. -/
def nandEraseBlock (blockAddr : UInt16) : DriverM Status := do
  let unused ← uninitBool
  let eraseErr ← uninitBool
  let ui32Status ← nandCmdWriteEnable
  if ui32Status ≠ amHalStatusSuccess then return ui32Status
  let ui32Status ← nandCmdBlockErase (blockToPageAddr blockAddr.toUInt32)
  if ui32Status ≠ amHalStatusSuccess then return ui32Status
  let wait ← nandWaitBusy eraseTimeUs unused eraseErr none
  if wait.ui32Status ≠ amHalStatusSuccess then return wait.ui32Status
  if wait.eraseFail then return amHalStatusHwErr
  return amHalStatusSuccess

/-- The `PAGE_SIZE` bytes a `const uint8_t *` argument points to. -/
structure PageData where
  bytes : List UInt8
  length_bytes : bytes.length = pageSize

/-- Program a page with the first `PAGE_SIZE` bytes at `data`. -/
def nandProgPage (pageAddr : UInt32) (data : PageData) : DriverM Status := do
  let programFail ← uninitBool
  let eraseFail ← uninitBool
  let ui32Status ← nandCmdWriteEnable
  if ui32Status ≠ amHalStatusSuccess then return ui32Status
  let ui32Status ← nandCmdProgramLoadX1 0 data.bytes (UInt32.ofNat pageSize)
  if ui32Status ≠ amHalStatusSuccess then return ui32Status
  let ui32Status ← nandCmdWriteEnable
  if ui32Status ≠ amHalStatusSuccess then return ui32Status
  let ui32Status ← nandCmdProgramExecute pageAddr
  if ui32Status ≠ amHalStatusSuccess then return ui32Status
  let wait ← nandWaitBusy programTimeUs programFail eraseFail none
  if wait.ui32Status ≠ amHalStatusSuccess then return wait.ui32Status
  if wait.programFail then return amHalStatusHwErr
  return amHalStatusSuccess

/-! ## Reading -/

/-- What a read returns, the buffer and the ECC flag afterwards. -/
structure ReadResult where
  ui32Status : Status
  data : List UInt8
  eccFatal : Option Bool

/-- Read a portion of a page; sets `eccFatal` if an uncorrectable ECC error occurred. -/
def nandReadPage (pageAddr : UInt32) (offset : UInt16) (data : List UInt8) (len : UInt32)
    (eccFatal : Option Bool) : DriverM ReadResult := do
  let ignore1 ← uninitBool
  let ignore2 ← uninitBool
  let statusReg ← uninitByte
  let ui32Status ← nandCmdPageRead pageAddr
  if ui32Status ≠ amHalStatusSuccess then return ⟨ui32Status, data, eccFatal⟩
  let wait ← nandWaitBusy pageReadTimeUs ignore1 ignore2 (some statusReg)
  if wait.ui32Status ≠ amHalStatusSuccess then return ⟨wait.ui32Status, data, eccFatal⟩
  let eccErr := nandStatusToEcc (wait.status.getD statusReg)
  -- the status of the wait is checked a second time
  if wait.ui32Status ≠ amHalStatusSuccess then return ⟨wait.ui32Status, data, eccFatal⟩
  let eccFatal := eccFatal.map fun _ => decide (eccErr = .fatal)
  let (ui32Status, data) ← nandCmdReadX1 offset data len
  if ui32Status ≠ amHalStatusSuccess then return ⟨ui32Status, data, eccFatal⟩
  return ⟨amHalStatusSuccess, data, eccFatal⟩

/-- The loop of `nand_is_free`: one byte that is not erased makes the flag false. -/
def scanFree (eccData : List UInt8) (isFree : Bool) : Bool :=
  eccData.foldl (fun isFree b => if b ≠ eccUnprogrammedValue then false else isFree) isFree

/-- The scan clears its flag at the first byte that is not erased, and never sets it. -/
theorem scanFree_iff (eccData : List UInt8) (isFree : Bool) :
    scanFree eccData isFree = true ↔ isFree = true ∧ ∀ b ∈ eccData, b = eccUnprogrammedValue := by
  induction eccData generalizing isFree with
  | nil => simp [scanFree]
  | cons b eccData ih =>
    have hstep : scanFree (b :: eccData) isFree =
        scanFree eccData (if b ≠ eccUnprogrammedValue then false else isFree) := rfl
    rw [hstep, ih]
    by_cases hb : b = eccUnprogrammedValue
    · simp [hb]
    · simp [hb]

/-- The scan of so many bytes that were received. -/
theorem scanFree_map_range (n : Nat) (f : Nat → UInt8) :
    scanFree ((List.range n).map f) true = decide (∀ i < n, f i = eccUnprogrammedValue) := by
  rw [Bool.eq_iff_iff, scanFree_iff, decide_eq_true_iff]
  simp only [List.mem_map, List.mem_range, forall_exists_index, and_imp,
    forall_apply_eq_imp_iff₂, true_and]

/-- Check that the given page has been erased, by its ECC bytes. -/
def nandIsFree (pageAddr : UInt32) (isFree : Option Bool) : DriverM (Status × Option Bool) := do
  let eccData ← uninitBytes eccAreaLength
  let read ← nandReadPage pageAddr eccAreaOffset eccData (UInt32.ofNat eccAreaLength) none
  if read.ui32Status ≠ amHalStatusSuccess then return (read.ui32Status, isFree)
  return (amHalStatusSuccess, isFree.map fun _ => scanFree read.data true)

/-- Copy a page from one address to another through the flash's internal cache. -/
def nandCopyPage (srcPageAddr destPageAddr : UInt32) (eccFatal : Option Bool) :
    DriverM (Status × Option Bool) := do
  let unused1 ← uninitBool
  let unused2 ← uninitBool
  let statusReg ← uninitByte
  let ui32Status ← nandCmdPageRead srcPageAddr
  if ui32Status ≠ amHalStatusSuccess then return (ui32Status, eccFatal)
  let wait ← nandWaitBusy pageReadTimeUs unused1 unused2 (some statusReg)
  if wait.ui32Status ≠ amHalStatusSuccess then return (wait.ui32Status, eccFatal)
  let statusReg := wait.status.getD statusReg
  if nandStatusToEcc statusReg = .fatal ∧ eccFatal ≠ none then
    return (amHalStatusHwErr, eccFatal.map fun _ => true)
  let ui32Status ← nandCmdWriteEnable
  if ui32Status ≠ amHalStatusSuccess then return (ui32Status, eccFatal)
  -- PROGRAM_LOAD_RANDOM with no data
  let ui32Status ← nandCmdProgramLoadRandomX1 0 [] 0
  if ui32Status ≠ amHalStatusSuccess then return (ui32Status, eccFatal)
  let ui32Status ← nandCmdProgramExecute destPageAddr
  if ui32Status ≠ amHalStatusSuccess then return (ui32Status, eccFatal)
  let wait ← nandWaitBusy programTimeUs wait.programFail wait.eraseFail (some statusReg)
  if wait.ui32Status ≠ amHalStatusSuccess then return (wait.ui32Status, eccFatal)
  return (amHalStatusSuccess, eccFatal)

/-- Read the parameter page into the buffer, with the configuration register switched over for
the time of the read. -/
def nandReadParamsPage (paramsPage : List UInt8) (len : UInt32) :
    DriverM (Status × List UInt8) := do
  if len < parameterPageSize then return (amHalStatusInvalidArg, paramsPage)
  let (ui32Status, oldRegConfig) ← nandCmdGetFeatures featureRegConfig
  if ui32Status ≠ amHalStatusSuccess then return (ui32Status, paramsPage)
  let regConfig := oldRegConfig &&& ~~~featureRegConfigCfgMask
  let regConfig := regConfig ||| featureRegConfigCfgValueReadParams
  let ui32Status ← nandCmdSetFeatures featureRegConfig regConfig
  if ui32Status ≠ amHalStatusSuccess then return (ui32Status, paramsPage)
  let read ← nandReadPage parameterPagePageAddr parameterPageColumnAddr paramsPage len none
  if read.ui32Status ≠ amHalStatusSuccess then return (read.ui32Status, read.data)
  let ui32Status ← nandCmdSetFeatures featureRegConfig oldRegConfig
  if ui32Status ≠ amHalStatusSuccess then return (ui32Status, read.data)
  return (amHalStatusSuccess, read.data)

/-! ## Bad blocks -/

/-- A block is bad if our marker or the factory's, in the spare area of its first page, is
zero. -/
def nandCheckBadBlock (blockAddr : UInt32) (isBad : Bool) : DriverM (Status × Bool) := do
  let markers ← uninitBytes badBlockAreaLength
  let pageAddr := blockToPageAddr blockAddr
  let read ← nandReadPage (pageAddr + badBlockPageOffset) (UInt16.ofNat badBlockAreaOffset)
    markers (UInt32.ofNat badBlockAreaLength) none
  if read.ui32Status ≠ amHalStatusSuccess then return (read.ui32Status, isBad)
  let isBad := read.data.getD badBlockOurByteOffset 0 == badBlockMarkerValue ||
    read.data.getD badBlockFactoryByteOffset 0 == badBlockMarkerValue
  return (read.ui32Status, isBad)

/-- `do … while (busy)`: nothing but the chip ends this loop. -/
def nandMarkBadBlockLoop : Nat → Bool → DriverM Status
  | 0, _ => halt .outOfFuel
  | fuel + 1, busy => do
    let (ui32Status, busy) ← nandGetBusy busy
    if ui32Status ≠ amHalStatusSuccess then return ui32Status
    if busy then nandMarkBadBlockLoop fuel busy else return ui32Status

/-- Mark a block as bad, keeping the rest of its first page. -/
def nandMarkBadBlock (fuel : Nat) (blockAddr : UInt32) : DriverM Status := do
  let programFail ← uninitBool
  let eraseFail ← uninitBool
  let markerValue := [badBlockMarkerValue]
  let pageAddr := blockToPageAddr blockAddr
  let ui32Status ← nandCmdPageRead pageAddr
  if ui32Status ≠ amHalStatusSuccess then return ui32Status
  let ui32Status ← nandMarkBadBlockLoop fuel false
  if ui32Status ≠ amHalStatusSuccess then return ui32Status
  let ui32Status ← nandCmdWriteEnable
  if ui32Status ≠ amHalStatusSuccess then return ui32Status
  let ui32Status ← nandCmdProgramLoadRandomX1
    (UInt16.ofNat (badBlockAreaOffset + badBlockOurByteOffset)) markerValue 1
  if ui32Status ≠ amHalStatusSuccess then return ui32Status
  let ui32Status ← nandCmdProgramExecute pageAddr
  if ui32Status ≠ amHalStatusSuccess then return ui32Status
  let wait ← nandWaitBusy programTimeUs programFail eraseFail none
  if wait.ui32Status ≠ amHalStatusSuccess then return wait.ui32Status
  if wait.programFail then return amHalStatusHwErr
  return amHalStatusSuccess

/-- The loop of `nand_print_bad_blocks`, with the number of blocks still to check. -/
def nandPrintBadBlocksLoop : Nat → UInt32 → UInt32 → Bool → Status → DriverM Status
  | 0, _, total, _, ui32Status => do
    amUtilStdioPrintf s!"COMPLETE, found {total} \n"
    return ui32Status
  | remaining + 1, i, total, isBad, _ => do
    let (ui32Status, isBad) ← nandCheckBadBlock i isBad
    if ui32Status ≠ amHalStatusSuccess then
      amUtilStdioPrintf s!"Failed to read block {i} \n"
      return ui32Status
    if isBad then
      amUtilStdioPrintf s!"{i} \n"
      nandPrintBadBlocksLoop remaining (i + 1) (total + 1) isBad ui32Status
    else
      nandPrintBadBlocksLoop remaining (i + 1) total isBad ui32Status

/-- Print the address of all bad blocks. -/
def nandPrintBadBlocks : DriverM Status := do
  let isBad ← uninitBool
  let ui32Status := 0 -- assigned in the first turn of the loop
  amUtilStdioPrintf "Checking for Bad Blocks, addresses (decimal): \n"
  nandPrintBadBlocksLoop numBlocks 0 0 isBad ui32Status

end SpiNand
