import Mathlib.Logic.Basic
import Mathlib.Tactic.ByContra

/-!
# Printing an ONFI parameter page

`onfi_print` as the list of what it prints: each call of `printf` with its format and arguments,
and what goes to `stderr`. The offsets are those of `onfi_print.c`; `ParameterPage.ptr` is the
pointer `parameter_page + offset`. Integers are promoted to 32 bits when they are printed.
-/

namespace SpiNand

/-! ## The page -/

/-- `const uint8_t parameter_page[256]`. -/
abbrev ParameterPage := Vector UInt8 256

/-- The bytes from an offset on. -/
def ParameterPage.ptr (page : ParameterPage) (offset : Nat) : Nat → UInt8 :=
  fun i => page[offset + i]?.getD 0

/-- So many bytes from an offset on. -/
def ParameterPage.bytes (page : ParameterPage) (offset len : Nat) : List UInt8 :=
  (List.range len).map (page.ptr offset)

def signatureOffset : Nat := 0
/-- "ONFI" -/
def signature : List UInt8 := [0x4F, 0x4E, 0x46, 0x49]

def revisionOffset : Nat := 4
/-- ONFI 2.0; revision 0 is reserved, and allowed. -/
def revisionMax : Nat := 2

def deviceMfnOffset : Nat := 32
def deviceMpnOffset : Nat := 44
def jedecMfnIdOffset : Nat := 64
def dateCodeOffset : Nat := 65

/-! ### Memory organisation block -/

def bytesPerPageOffset : Nat := 80
def spareBytesPerPageOffset : Nat := 84
def pagesPerBlockOffset : Nat := 92
def blocksPerLunOffset : Nat := 96
def numLunOffset : Nat := 100
def numAddrCyclesOffset : Nat := 101
def bitsPerCellOffset : Nat := 102
def badBlocksMaxPerLunOffset : Nat := 103
def blockEnduranceOffset : Nat := 105
def gauranteedValidBlocksOffset : Nat := 107
def gauranteedBlocksEnduranceOffset : Nat := 108
def numProgramsPerPageOffset : Nat := 110
def numBitsEccCorrectableOffset : Nat := 112

/-! ## Little-endian fields -/

def extractInt16 (b : Nat → UInt8) : UInt16 := (b 0).toUInt16 ||| (b 1).toUInt16 <<< 8

def extractInt32 (b : Nat → UInt8) : UInt32 :=
  (b 0).toUInt32 ||| (b 1).toUInt32 <<< 8 ||| (b 2).toUInt32 <<< 16 ||| (b 3).toUInt32 <<< 24

/-! ## Output -/

/-- An argument of `printf`: an integer, or as many bytes as the precision of `%s` allows. -/
inductive PrintArg
  | int (value : UInt32)
  | str (bytes : List UInt8)
  deriving DecidableEq

/-- One call of a print function. -/
inductive Output
  | printf (format : String) (args : List PrintArg)
  | stderr (text : String)
  deriving DecidableEq

section Print

variable (page : ParameterPage)

/-! `PRINT_PARAM_UINT8`, `PRINT_PARAM_UINT16` and `PRINT_PARAM_UINT32` print a field under its
name. -/

def printParamUint8 (name : String) (offset : Nat) : Output :=
  .printf ("  " ++ name ++ ": %u \n") [.int (page.ptr offset 0).toUInt32]

def printParamUint16 (name : String) (offset : Nat) : Output :=
  .printf ("  " ++ name ++ ": %u \n") [.int (extractInt16 (page.ptr offset)).toUInt32]

def printParamUint32 (name : String) (offset : Nat) : Output :=
  .printf ("  " ++ name ++ ": %lu \n") [.int (extractInt32 (page.ptr offset))]

def manufacturerBlock : List Output :=
  [ .printf "MANUFACTURER INFORMATION BLOCK: \n" [],
    .printf "  Manufacturer: %.12s  \n" [.str (page.bytes deviceMfnOffset 12)],
    .printf "  JEDEC ID:     0x%02X \n" [.int (page.ptr jedecMfnIdOffset 0).toUInt32],
    .printf "  Model:        %.20s \n" [.str (page.bytes deviceMpnOffset 20)],
    .printf "  Date Code:    0x%04X \n"
      [.int (extractInt16 (page.ptr dateCodeOffset)).toUInt32] ]

def memoryOrganisationBlock : List Output :=
  [ .printf "MEMORY ORGANISATION BLOCK: \n" [],
    printParamUint32 page "bytes_per_page" bytesPerPageOffset,
    printParamUint16 page "spare_bytes_per_page" spareBytesPerPageOffset,
    printParamUint32 page "pages_per_block" pagesPerBlockOffset,
    printParamUint32 page "blocks_per_lun" blocksPerLunOffset,
    printParamUint8 page "num_lun" numLunOffset,
    printParamUint8 page "num_addr_cycles" numAddrCyclesOffset,
    printParamUint8 page "bits_per_cell" bitsPerCellOffset,
    printParamUint16 page "bad_blocks_max_per_lun" badBlocksMaxPerLunOffset,
    printParamUint16 page "block_endurance" blockEnduranceOffset,
    printParamUint8 page "gauranteed_valid_blocks" gauranteedValidBlocksOffset,
    printParamUint16 page "gauranteed_blocks_endurance" gauranteedBlocksEnduranceOffset,
    printParamUint8 page "num_programs_per_page" numProgramsPerPageOffset,
    printParamUint8 page "num_bits_ecc_correctable" numBitsEccCorrectableOffset ]

/-- The total size, and how it is calculated. -/
def capacityLine : List Output :=
  let bytesPerPage : UInt32 := extractInt32 (page.ptr bytesPerPageOffset)
  let pagesPerBlock : UInt16 := extractInt16 (page.ptr pagesPerBlockOffset)
  let blocksPerLun : UInt16 := extractInt16 (page.ptr blocksPerLunOffset)
  let logicalUnits : UInt8 := page.ptr numLunOffset 0
  let totalSize : UInt32 := bytesPerPage * pagesPerBlock.toUInt32 * blocksPerLun.toUInt32 *
    logicalUnits.toUInt32
  [ .printf "CAPACITY: %lu MB" [.int (totalSize / (1024 * 1024))],
    .printf " = %lu bytes * %u pages * %u blocks * %u units \n"
      [.int bytesPerPage, .int pagesPerBlock.toUInt32, .int blocksPerLun.toUInt32,
        .int logicalUnits.toUInt32] ]

/-- What `onfi_print` returns, and what it prints. -/
def onfiPrint (pageLen : UInt32) (detailed : Bool) : UInt32 × List Output :=
  if pageLen < 256 then (1, [.stderr "page_len is not long enough! \n"])
  else if page.bytes signatureOffset signature.length ≠ signature then
    (1, [.stderr "Invalid signature \n"])
  else if (page.ptr revisionOffset 0).toNat > revisionMax then
    (1, [.stderr "Unknown revision \n"])
  else
    (0, manufacturerBlock page ++ (if detailed then memoryOrganisationBlock page else []) ++
      capacityLine page)

end Print

/-- The pages that are printed. -/
def ParameterPage.Accepted (page : ParameterPage) (pageLen : UInt32) : Prop :=
  256 ≤ pageLen ∧ page.bytes signatureOffset signature.length = signature ∧
    (page.ptr revisionOffset 0).toNat ≤ revisionMax

/-- An accepted page is printed in full, and any other is an error without a line of output. -/
theorem onfiPrint_accepted {page : ParameterPage} {pageLen : UInt32}
    (h : page.Accepted pageLen) (detailed : Bool) :
    onfiPrint page pageLen detailed = (0, manufacturerBlock page ++
      (if detailed then memoryOrganisationBlock page else []) ++ capacityLine page) := by
  obtain ⟨hlen, hsignature, hrevision⟩ := h
  unfold onfiPrint
  rw [if_neg (UInt32.not_lt.mpr hlen), if_neg (not_ne_iff.mpr hsignature),
    if_neg (Nat.not_lt.mpr hrevision)]

theorem onfiPrint_rejected {page : ParameterPage} {pageLen : UInt32}
    (h : ¬ page.Accepted pageLen) (detailed : Bool) :
    ∃ text, onfiPrint page pageLen detailed = (1, [.stderr text]) := by
  unfold onfiPrint
  by_cases hlen : pageLen < 256
  · rw [if_pos hlen]
    exact ⟨_, rfl⟩
  by_cases hsignature : page.bytes signatureOffset signature.length = signature
  · have hrevision : (page.ptr revisionOffset 0).toNat > revisionMax := by
      by_contra hle
      exact h ⟨UInt32.not_lt.mp hlen, hsignature, Nat.not_lt.mp hle⟩
    rw [if_neg hlen, if_neg (not_ne_iff.mpr hsignature), if_pos hrevision]
    exact ⟨_, rfl⟩
  · rw [if_neg hlen, if_pos hsignature]
    exact ⟨_, rfl⟩

end SpiNand
