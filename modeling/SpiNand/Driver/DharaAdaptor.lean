import SpiNand.Driver.Flash

/-!
# The Dhara adaptor

`dhara_adaptor.c`: the callbacks of `dhara/nand.h` over the driver. Dhara itself is a submodule;
its error codes are those of `dhara/error.h`. The `err` argument is a pointer: `none` is `NULL`,
and `some e` a variable that holds `e`, the result says what it holds afterwards.
-/

namespace SpiNand

open Interaction

/-- `dhara_error_t`, the codes the adaptor uses. -/
inductive DharaError
  | none
  | badBlock
  | ecc
  deriving DecidableEq

/-- The value of an error code as an `int`. -/
def DharaError.toInt : DharaError → Int
  | .none => 0
  | .badBlock => 1
  | .ecc => 2

/-- `*err = e`. -/
def assignErr (err : Option DharaError) (e : DharaError) : DriverM (Option DharaError) :=
  match err with
  | some _ => return some e
  | none => halt .nullWrite

def dharaNandIsBad (b : UInt32) : DriverM Int := do
  let isBad ← uninitBool
  let (retcode, isBad) ← nandCheckBadBlock b isBad
  if retcode ≠ amDevicesMspiFlashStatusSuccess then return DharaError.badBlock.toInt
  else if isBad then return DharaError.badBlock.toInt
  else return DharaError.none.toInt

/-- Bad block marking is not implemented. -/
def dharaNandMarkBad (_ : UInt32) : DriverM Unit := return ()

def dharaNandErase (b : UInt32) (err : Option DharaError) :
    DriverM (Int × Option DharaError) := do
  -- the block number is passed as `uint16_t`
  let retcode ← nandEraseBlock b.toUInt16
  if retcode ≠ amDevicesMspiFlashStatusSuccess then
    let err ← assignErr err .badBlock
    return (-1, err)
  else return (0, err)

def dharaNandProg (p : UInt32) (data : PageData) (err : Option DharaError) :
    DriverM (Int × Option DharaError) := do
  let retcode ← nandProgPage p data
  if retcode ≠ amDevicesMspiFlashStatusSuccess then
    let err ← assignErr err .badBlock
    return (-1, err)
  else return (0, err)

def dharaNandIsFree (p : UInt32) : DriverM Int := do
  let isFree ← uninitBool
  let (retcode, isFree) ← nandIsFree p (some isFree)
  if retcode ≠ amDevicesMspiFlashStatusSuccess then return 0
  else return if isFree.getD false then 0 else 1

/-- The result, what `*err` holds, and what the buffer `data` holds. -/
def dharaNandRead (p : UInt32) (offset length : UInt32) (data : List UInt8)
    (err : Option DharaError) : DriverM (Int × Option DharaError × List UInt8) := do
  let eccErr ← uninitBool
  -- the offset is passed as `uint16_t`
  let read ← nandReadPage p offset.toUInt16 data length (some eccErr)
  if read.ui32Status ≠ amDevicesMspiFlashStatusSuccess then return (-1, err, read.data)
  else if read.eccFatal.getD eccErr then
    let err ← assignErr err .ecc
    return (-1, err, read.data)
  else return (0, err, read.data)

def dharaNandCopy (src dst : UInt32) (err : Option DharaError) :
    DriverM (Int × Option DharaError) := do
  let eccErr ← uninitBool
  let (retcode, eccFatal) ← nandCopyPage src dst (some eccErr)
  if retcode ≠ amDevicesMspiFlashStatusSuccess then return (-1, err)
  else if eccFatal.getD eccErr then
    let err ← assignErr err .ecc
    return (-1, err)
  else return (0, err)

end SpiNand
