import SpiNand.Interaction.BigEndian
import SpiNand.Onfi.OnfiPrint
import Mathlib.Data.Nat.Digits.Defs
import Mathlib.Tactic.Ring

/-!
# The capacity that is printed

The capacity is the product of four fields of the page. The detailed listing prints all of them in
full. The capacity line takes two of them from their low 16 bits, and multiplies in 32 bits.

* **`capacity_exact_iff`**: on an accepted page the figure and its factors are right exactly if
  these two fields have no more than 16 bits and the product no more than 32.
-/

namespace SpiNand

open Interaction

/-! ## The fields -/

/-- The number in so many bytes, the least significant first. -/
def ParameterPage.field (page : ParameterPage) (offset len : Nat) : Nat :=
  Nat.ofDigits 256 ((page.bytes offset len).map UInt8.toNat)

theorem toNat_extractInt16 (b : Nat → UInt8) :
    (extractInt16 b).toNat = (b 0).toNat + (b 1).toNat * 2 ^ 8 := by
  have hshift : ((b 1).toUInt16 <<< 8).toNat = (b 1).toNat * 2 ^ 8 := by
    have h₁ := (b 1).toNat_lt
    rw [UInt16.toNat_shiftLeft, UInt8.toNat_toUInt16]
    show (b 1).toNat <<< 8 % 2 ^ 16 = _
    rw [Nat.shiftLeft_eq]
    omega
  rw [extractInt16, UInt16.toNat_or, hshift, UInt8.toNat_toUInt16]
  exact or_mul_two_pow (b 0).toNat_lt _

theorem toNat_extractInt32 (b : Nat → UInt8) :
    (extractInt32 b).toNat =
      (b 0).toNat + (b 1).toNat * 2 ^ 8 + (b 2).toNat * 2 ^ 16 + (b 3).toNat * 2 ^ 24 := by
  have h₀ := (b 0).toNat_lt
  have h₁ := (b 1).toNat_lt
  have h₂ := (b 2).toNat_lt
  have hshift₁ : ((b 1).toUInt32 <<< 8).toNat = (b 1).toNat * 2 ^ 8 :=
    toNat_byte_shiftLeft (b 1) (by decide)
  have hshift₂ : ((b 2).toUInt32 <<< 16).toNat = (b 2).toNat * 2 ^ 16 :=
    toNat_byte_shiftLeft (b 2) (by decide)
  have hshift₃ : ((b 3).toUInt32 <<< 24).toNat = (b 3).toNat * 2 ^ 24 :=
    toNat_byte_shiftLeft (b 3) (by decide)
  rw [extractInt32, UInt32.toNat_or, UInt32.toNat_or, UInt32.toNat_or, hshift₁, hshift₂, hshift₃,
    UInt8.toNat_toUInt32]
  rw [or_mul_two_pow (k := 8) h₀, or_mul_two_pow (k := 16) (by omega),
    or_mul_two_pow (k := 24) (by omega)]

theorem field_one (page : ParameterPage) (offset : Nat) :
    page.field offset 1 = (page.ptr offset 0).toNat := Nat.ofDigits_singleton

theorem field_four (page : ParameterPage) (offset : Nat) :
    page.field offset 4 = (extractInt32 (page.ptr offset)).toNat := by
  rw [toNat_extractInt32]
  show Nat.ofDigits 256 [(page.ptr offset 0).toNat, (page.ptr offset 1).toNat,
    (page.ptr offset 2).toNat, (page.ptr offset 3).toNat] = _
  simp only [Nat.ofDigits_cons, Nat.ofDigits_nil]
  ring

/-- The low 16 bits of a field are the whole of it if it has no more. -/
theorem extractInt16_eq_iff (b : Nat → UInt8) :
    (extractInt16 b).toUInt32 = extractInt32 b ↔ (extractInt32 b).toNat < 2 ^ 16 := by
  rw [← UInt32.toNat_inj, UInt16.toNat_toUInt32, toNat_extractInt16, toNat_extractInt32]
  have h₀ := (b 0).toNat_lt
  have h₁ := (b 1).toNat_lt
  omega

/-! ## What is printed -/

/-- The arguments of the first `printf` with a format. -/
def printed (out : List Output) (format : String) : Option (List PrintArg) :=
  out.findSome? fun
    | .printf f args => if f = format then some args else none
    | .stderr _ => none

/-- The exact size in bytes. -/
def ParameterPage.size (page : ParameterPage) : Nat :=
  page.field bytesPerPageOffset 4 * page.field pagesPerBlockOffset 4 *
    page.field blocksPerLunOffset 4 * page.field numLunOffset 1

/-- The figure of the capacity line is the exact size in megabytes. -/
def FigureExact (page : ParameterPage) (pageLen : UInt32) (detailed : Bool) : Prop :=
  ∃ megabytes : UInt32,
    printed (onfiPrint page pageLen detailed).2 "CAPACITY: %lu MB" = some [.int megabytes] ∧
    megabytes.toNat = page.size / 2 ^ 20

/-- The factors of the capacity line are what the detailed listing prints. -/
def FactorsListed (page : ParameterPage) (pageLen : UInt32) (detailed : Bool) : Prop :=
  ∃ bytes pages blocks units : UInt32,
    printed (onfiPrint page pageLen detailed).2
      " = %lu bytes * %u pages * %u blocks * %u units \n" =
        some [.int bytes, .int pages, .int blocks, .int units] ∧
    printed (onfiPrint page pageLen true).2 "  bytes_per_page: %lu \n" = some [.int bytes] ∧
    printed (onfiPrint page pageLen true).2 "  pages_per_block: %lu \n" = some [.int pages] ∧
    printed (onfiPrint page pageLen true).2 "  blocks_per_lun: %lu \n" = some [.int blocks] ∧
    printed (onfiPrint page pageLen true).2 "  num_lun: %u \n" = some [.int units]

/-- The 32 bits that are printed in megabytes. -/
def totalSize (page : ParameterPage) : UInt32 :=
  extractInt32 (page.ptr bytesPerPageOffset) *
    (extractInt16 (page.ptr pagesPerBlockOffset)).toUInt32 *
    (extractInt16 (page.ptr blocksPerLunOffset)).toUInt32 * (page.ptr numLunOffset 0).toUInt32

section Printed

variable {page : ParameterPage} {pageLen : UInt32} (h : page.Accepted pageLen)
include h

theorem printed_figure (detailed : Bool) :
    printed (onfiPrint page pageLen detailed).2 "CAPACITY: %lu MB" =
      some [.int (totalSize page / (1024 * 1024))] := by
  rw [onfiPrint_accepted h]
  cases detailed <;> rfl

theorem printed_factors (detailed : Bool) :
    printed (onfiPrint page pageLen detailed).2
      " = %lu bytes * %u pages * %u blocks * %u units \n" =
        some [.int (extractInt32 (page.ptr bytesPerPageOffset)),
          .int (extractInt16 (page.ptr pagesPerBlockOffset)).toUInt32,
          .int (extractInt16 (page.ptr blocksPerLunOffset)).toUInt32,
          .int (page.ptr numLunOffset 0).toUInt32] := by
  rw [onfiPrint_accepted h]
  cases detailed <;> rfl

/-- The listing prints a field of four bytes in full. -/
theorem printed_listing :
    printed (onfiPrint page pageLen true).2 "  bytes_per_page: %lu \n" =
        some [.int (extractInt32 (page.ptr bytesPerPageOffset))] ∧
      printed (onfiPrint page pageLen true).2 "  pages_per_block: %lu \n" =
        some [.int (extractInt32 (page.ptr pagesPerBlockOffset))] ∧
      printed (onfiPrint page pageLen true).2 "  blocks_per_lun: %lu \n" =
        some [.int (extractInt32 (page.ptr blocksPerLunOffset))] ∧
      printed (onfiPrint page pageLen true).2 "  num_lun: %u \n" =
        some [.int (page.ptr numLunOffset 0).toUInt32] := by
  rw [onfiPrint_accepted h]
  exact ⟨rfl, rfl, rfl, rfl⟩

/-- The factors are those of the listing exactly if two fields have no more than 16 bits. -/
theorem factorsListed_iff (detailed : Bool) :
    FactorsListed page pageLen detailed ↔
      page.field pagesPerBlockOffset 4 < 2 ^ 16 ∧ page.field blocksPerLunOffset 4 < 2 ^ 16 := by
  unfold FactorsListed
  obtain ⟨hbytes, hpages, hblocks, hunits⟩ := printed_listing h
  rw [printed_factors h, hbytes, hpages, hblocks, hunits, field_four, field_four,
    ← extractInt16_eq_iff, ← extractInt16_eq_iff]
  constructor
  · rintro ⟨bytes, pages, blocks, units, hline, -, hpages, hblocks, -⟩
    simp only [Option.some.injEq, List.cons.injEq, PrintArg.int.injEq] at hline hpages hblocks
    exact ⟨hline.2.1.trans hpages.1.symm, hline.2.2.1.trans hblocks.1.symm⟩
  · rintro ⟨hpages, hblocks⟩
    rw [hpages, hblocks]
    exact ⟨_, _, _, _, rfl, rfl, rfl, rfl, rfl⟩

end Printed

/-- The product in 32 bits, where the two fields have no more than 16. -/
theorem toNat_totalSize {page : ParameterPage} (hpages : page.field pagesPerBlockOffset 4 < 2 ^ 16)
    (hblocks : page.field blocksPerLunOffset 4 < 2 ^ 16) :
    (totalSize page).toNat = page.size % 2 ^ 32 := by
  rw [field_four] at hpages hblocks
  rw [ParameterPage.size, totalSize, (extractInt16_eq_iff _).mpr hpages,
    (extractInt16_eq_iff _).mpr hblocks, UInt32.toNat_mul, UInt32.toNat_mul, UInt32.toNat_mul,
    Nat.mod_mul_mod, Nat.mul_assoc, Nat.mod_mul_mod, UInt8.toNat_toUInt32, field_four, field_four,
    field_four, field_one]
  simp only [Nat.mul_assoc]

/-- The figure, where the factors are right. -/
theorem figureExact_iff {page : ParameterPage} {pageLen : UInt32} (h : page.Accepted pageLen)
    (hpages : page.field pagesPerBlockOffset 4 < 2 ^ 16)
    (hblocks : page.field blocksPerLunOffset 4 < 2 ^ 16) (detailed : Bool) :
    FigureExact page pageLen detailed ↔ page.size < 2 ^ 32 := by
  have hfigure : (totalSize page / (1024 * 1024)).toNat = page.size % 2 ^ 32 / 2 ^ 20 := by
    rw [UInt32.toNat_div, toNat_totalSize hpages hblocks]
    rfl
  unfold FigureExact
  rw [printed_figure h]
  constructor
  · rintro ⟨megabytes, hline, hexact⟩
    simp only [Option.some.injEq, List.cons.injEq, PrintArg.int.injEq, and_true] at hline
    rw [← hline, hfigure] at hexact
    omega
  · intro hsize
    refine ⟨_, rfl, ?_⟩
    rw [hfigure, Nat.mod_eq_of_lt hsize]

/-- **The capacity.** On every page that is accepted, the figure and its factors are right exactly
if the pages of a block and the blocks of a unit fit in 16 bits and the size in 32. -/
theorem capacity_exact_iff {page : ParameterPage} {pageLen : UInt32} (h : page.Accepted pageLen)
    (detailed : Bool) :
    FigureExact page pageLen detailed ∧ FactorsListed page pageLen detailed ↔
      page.field pagesPerBlockOffset 4 < 2 ^ 16 ∧ page.field blocksPerLunOffset 4 < 2 ^ 16 ∧
        page.size < 2 ^ 32 := by
  rw [factorsListed_iff h]
  constructor
  · rintro ⟨hfigure, hpages, hblocks⟩
    exact ⟨hpages, hblocks, (figureExact_iff h hpages hblocks detailed).mp hfigure⟩
  · rintro ⟨hpages, hblocks, hsize⟩
    exact ⟨(figureExact_iff h hpages hblocks detailed).mpr hsize, hpages, hblocks⟩

/-! ## Two pages -/

/-- The bytes of a page with so many blocks of 64 pages of 2048 bytes, the second and the third
byte of their number being given. -/
def sampleByte (low high : UInt8) : Nat → UInt8
  | 0 => 0x4F
  | 1 => 0x4E
  | 2 => 0x46
  | 3 => 0x49
  | 81 => 8
  | 92 => 64
  | 97 => low
  | 98 => high
  | 100 => 1
  | _ => 0

def samplePage (low high : UInt8) : ParameterPage := Vector.ofFn fun i => sampleByte low high i

theorem samplePage_ptr (low high : UInt8) {offset i : Nat} (hi : offset + i < 256) :
    (samplePage low high).ptr offset i = sampleByte low high (offset + i) := by
  simp [ParameterPage.ptr, samplePage, hi]

/-- A field of the page, from its bytes. -/
theorem samplePage_bytes (low high : UInt8) {offset len : Nat} (hlen : offset + len ≤ 256) :
    (samplePage low high).bytes offset len =
      (List.range len).map fun i => sampleByte low high (offset + i) := by
  apply List.map_congr_left
  intro i hi
  have hlt : i < len := List.mem_range.mp hi
  exact samplePage_ptr low high (by omega)

theorem samplePage_field (low high : UInt8) {offset len : Nat} (hlen : offset + len ≤ 256) :
    (samplePage low high).field offset len = Nat.ofDigits 256
      ((List.range len).map fun i => (sampleByte low high (offset + i)).toNat) := by
  rw [ParameterPage.field, samplePage_bytes low high hlen, List.map_map]
  rfl

theorem samplePage_accepted (low high : UInt8) : (samplePage low high).Accepted 256 := by
  refine ⟨by decide, ?_, ?_⟩
  · rw [samplePage_bytes low high (by decide)]
    rfl
  · rw [samplePage_ptr low high (by decide)]
    exact Nat.zero_le revisionMax

/-- The fields that make up the size. -/
theorem samplePage_fields (low high : UInt8) :
    (samplePage low high).field bytesPerPageOffset 4 = 2048 ∧
      (samplePage low high).field pagesPerBlockOffset 4 = 64 ∧
      (samplePage low high).field blocksPerLunOffset 4 = low.toNat * 2 ^ 8 + high.toNat * 2 ^ 16 ∧
      (samplePage low high).field numLunOffset 1 = 1 := by
  refine ⟨?_, ?_, ?_, ?_⟩
  · rw [samplePage_field low high (by decide)]
    rfl
  · rw [samplePage_field low high (by decide)]
    rfl
  · rw [samplePage_field low high (by decide)]
    show Nat.ofDigits 256 [0, low.toNat, high.toNat, 0] = _
    simp only [Nat.ofDigits_cons, Nat.ofDigits_nil]
    omega
  · rw [samplePage_field low high (by decide)]
    rfl

/-- The capacity of a page with 2048 blocks. -/
theorem capacity_exact_samplePage :
    FigureExact (samplePage 8 0) 256 true ∧ FactorsListed (samplePage 8 0) 256 true := by
  obtain ⟨hbytes, hpages, hblocks, hunits⟩ := samplePage_fields 8 0
  refine (capacity_exact_iff (samplePage_accepted 8 0) true).mpr ?_
  rw [ParameterPage.size, hbytes, hpages, hblocks, hunits]
  decide

/-- With 32768 blocks the size is 4096 megabytes, and the figure is not. -/
theorem four_gigabytes_misprinted :
    (samplePage 128 0).Accepted 256 ∧ (samplePage 128 0).size = 2 ^ 32 ∧
      ¬ FigureExact (samplePage 128 0) 256 true := by
  obtain ⟨hbytes, hpages, hblocks, hunits⟩ := samplePage_fields 128 0
  have haccepted := samplePage_accepted 128 0
  have hsize : (samplePage 128 0).size = 2 ^ 32 := by
    rw [ParameterPage.size, hbytes, hpages, hblocks, hunits]
    rfl
  refine ⟨haccepted, hsize, ?_⟩
  rw [figureExact_iff haccepted (by rw [hpages]; decide) (by rw [hblocks]; decide), hsize]
  exact Nat.lt_irrefl _

end SpiNand
