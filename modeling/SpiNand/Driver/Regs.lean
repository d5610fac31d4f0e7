import Mathlib.Init

/-!
# Command and register values, sizes and times

The values of `mt79f_cmd_regs.h` and `nand_flash.h` that the driver uses, and the status codes
it shares with the HAL. Command bytes, register numbers and masks are bytes; sizes and offsets
are numbers, converted where the source converts them.
-/

namespace SpiNand

/-! ## Commands -/

def cmdReset : UInt8 := 0xFF
def cmdWriteEnable : UInt8 := 0x06
def cmdWriteDisable : UInt8 := 0x04
def cmdPageRead : UInt8 := 0x13
def cmdReadCacheSingle : UInt8 := 0x03
def cmdReadId : UInt8 := 0x9f
def cmdReadCacheX4 : UInt8 := 0x6B
def cmdProgramLoad : UInt8 := 0x02
def cmdProgramExecute : UInt8 := 0x10
def cmdProgramLoadRandom : UInt8 := 0x84
def cmdBlockErase : UInt8 := 0xD8
def cmdGetFeatures : UInt8 := 0x0F
def cmdSetFeatures : UInt8 := 0x1F

/-! ## Feature registers -/

def featureRegBlockLock : UInt8 := 0xA0
def featureRegBlockLockUnlockAll : UInt8 := 0x00

def featureRegConfig : UInt8 := 0xB0
def featureRegConfigCfgMask : UInt8 := 0xC1
def featureRegConfigCfgValueReadParams : UInt8 := 0x40

def featureRegStatus : UInt8 := 0xC0
def featureRegStatusPFailMask : UInt8 := 0x08
def featureRegStatusEFailMask : UInt8 := 0x04
def featureRegStatusOipMask : UInt8 := 0x01

def featureRegStatusEccMask : UInt8 := 0x70
def featureRegStatusEccShift : UInt8 := 4
def featureRegStatusEccNoErr : UInt8 := 0
def featureRegStatusEcc13Err : UInt8 := 1
def featureRegStatusEccFatalErr : UInt8 := 2
def featureRegStatusEcc46Err : UInt8 := 3
def featureRegStatusEcc78Err : UInt8 := 5

/-! ## Identification -/

def nandID : UInt32 := 0x252c
def nandIDMask : UInt32 := 0xfeff

/-! ## Times -/

def resetTimeMs : UInt32 := 1
def eraseTimeUs : UInt32 := 10000
def programTimeUs : UInt32 := 600
def pageReadTimeUs : UInt32 := 80

/-- Time between two polls of the status register. -/
def pollDelayUs : UInt32 := 10

/-! ## Geometry -/

def pageSize : Nat := 2 * 1024
def log2Ppb : UInt32 := 6
def pagesPerBlock : Nat := 64
def numBlocks : Nat := 2048

def parameterPageSize : UInt32 := 256
def parameterPagePageAddr : UInt32 := 0x01
def parameterPageColumnAddr : UInt16 := 0x00

/-! ## Spare area -/

def badBlockPageOffset : UInt32 := 0x00
def badBlockAreaOffset : Nat := 0x800
def badBlockFactoryByteOffset : Nat := 0
def badBlockOurByteOffset : Nat := 4
def badBlockAreaLength : Nat := (badBlockOurByteOffset - badBlockFactoryByteOffset) + 1
def badBlockMarkerValue : UInt8 := 0x00

def eccAreaOffset : UInt16 := 0x840
def eccAreaLength : Nat := 64
def eccUnprogrammedValue : UInt8 := 0xFF

/-! ## Status codes

The driver's functions return the HAL's codes (`am_hal_status_e`, in the order of the HAL's
enumeration) or the two of `am_devices_mspi_flash_status_t`. -/

abbrev Status := UInt32

def amHalStatusSuccess : Status := 0
def amHalStatusTimeout : Status := 4
def amHalStatusInvalidArg : Status := 6
def amHalStatusHwErr : Status := 9

def amDevicesMspiFlashStatusSuccess : Status := 0
def amDevicesMspiFlashStatusError : Status := 1

end SpiNand
