import SpiNand.Bus.Environment
import Mathlib.Logic.Function.Basic

/-!
# The flash chip

The chip is not part of the repository. `Chip` is the device the driver is written for: an array
of rows, cache registers through which all data passes, a write-enable latch, and a time during
which it is busy with one of its three array commands.

* **`Geometry`** says which cache register a row and a column use. `singleCache` has one for all;
  `twoPlanes` has one for each plane, the plane of a row being the lowest bit of its block
  number and that of a column address its bit 12.
* **`Weather`** is everything about one transfer that is not determined by the commands before
  it: the HAL's result, how long an array command will take, the status bits.
* **`Chip.env`** is the environment it makes. A transfer that the HAL reports as failed did not
  reach the chip; a busy chip ignores every command except GET_FEATURES.

The array commands of this chip do not fail: its failure bits and its ECC field are like any other
status bit, without an effect on the array. A chip whose array commands fail is `WornChip`.
-/

namespace SpiNand

open Interaction

/-! ## Rows -/

/-- A row of the array, or a cache register: a byte for each column. -/
abbrev Row := Nat → UInt8

/-- The content of an erased row. -/
def Row.erased : Row := fun _ => 0xFF

/-- The row with `data` written from `column` on. -/
def Row.overwrite (r : Row) (column : Nat) (data : List UInt8) : Row :=
  fun i => if column ≤ i then data[i - column]?.getD (r i) else r i

/-- Programming only clears bits. -/
def Row.program (r cache : Row) : Row := fun i => r i &&& cache i

/-- Which cache register a row and a column address use, and which byte of it. -/
structure Geometry (π : Type) where
  rowPlane : Nat → π
  colPlane : Nat → π
  colByte : Nat → Nat

/-- One cache register. -/
def singleCache : Geometry Unit where
  rowPlane _ := ()
  colPlane _ := ()
  colByte column := column

/-- The block a row is in. -/
def blockOf (row : Nat) : Nat := row / pagesPerBlock

/-- Two planes, each with a cache register. -/
def twoPlanes : Geometry Bool where
  rowPlane row := blockOf row % 2 == 1
  colPlane column := column / 2 ^ 12 % 2 == 1
  colByte column := column % 2 ^ 12

/-! ## Commands -/

/-- What the commands act on. -/
structure Core (π : Type) where
  array : Nat → Row
  cache : π → Row
  latch : Bool

/-- The commands that keep the chip busy. -/
inductive ArrayOp
  | read
  | program
  | erase

/-- The status reads the driver's wait for a command allows. -/
def ArrayOp.budget : ArrayOp → Nat
  | .read => pollBudget pageReadTimeUs
  | .program => pollBudget programTimeUs
  | .erase => pollBudget eraseTimeUs

namespace Core

variable {π : Type} [DecidableEq π] (g : Geometry π)

def setCache (m : Core π) (plane : π) (r : Row) : Core π :=
  { m with cache := Function.update m.cache plane r }

/-- The array after PROGRAM_EXECUTE. -/
def programmed (m : Core π) (row : Nat) : Nat → Row :=
  Function.update m.array row ((m.array row).program (m.cache (g.rowPlane row)))

/-- The array after BLOCK_ERASE. -/
def erased (m : Core π) (row : Nat) : Nat → Row :=
  fun r => if blockOf r = blockOf row then Row.erased else m.array r

/-- What a command does. Without the latch, PROGRAM_EXECUTE and BLOCK_ERASE do nothing. -/
def exec (m : Core π) : NandCmd → Core π
  | .writeEnable => { m with latch := true }
  | .writeDisable | .reset => { m with latch := false }
  | .pageRead row => m.setCache (g.rowPlane row) (m.array row)
  | .programLoad column data =>
    m.setCache (g.colPlane column) (Row.erased.overwrite (g.colByte column) data)
  | .programLoadRandom column data =>
    m.setCache (g.colPlane column)
      ((m.cache (g.colPlane column)).overwrite (g.colByte column) data)
  | .programExecute row =>
    if m.latch then { m with array := m.programmed g row, latch := false } else m
  | .blockErase row =>
    if m.latch then { m with array := m.erased row, latch := false } else m
  | .readId _ | .readCache _ _ | .getFeatures _ | .setFeatures _ _ => m

/-- Commands one after the other. -/
def execs (m : Core π) (cs : List NandCmd) : Core π := cs.foldl (Core.exec g) m

/-- The bytes READ_CACHE sends. -/
def stream (m : Core π) (column : Nat) : Nat → UInt8 :=
  fun i => m.cache (g.colPlane column) (g.colByte column + i)

/-- The array command that a command starts. -/
def starts (m : Core π) : NandCmd → Option ArrayOp
  | .pageRead _ => some .read
  | .programExecute _ => if m.latch then some .program else none
  | .blockErase _ => if m.latch then some .erase else none
  | _ => none

end Core

/-! ## The chip over time -/

/-- What the commands do not determine about one transfer. -/
structure Weather where
  /-- What the HAL reports. -/
  status : Status
  /-- The number of status reads that an array command started now will show busy. -/
  busy : ArrayOp → Nat
  /-- The status register, apart from its busy bit. -/
  lights : UInt8
  /-- What is received where the chip sends nothing of its own. -/
  bytes : Nat → UInt8

/-- The status register. -/
def Weather.statusByte (w : Weather) (busy : Bool) : UInt8 :=
  if busy then w.lights ||| featureRegStatusOipMask
  else w.lights &&& ~~~featureRegStatusOipMask

/-- The busy bit of the status register says whether the chip is busy. -/
theorem oip_statusByte (w : Weather) (busy : Bool) : oip (w.statusByte busy) = busy := by
  have hmask : featureRegStatusOipMask = 1 := rfl
  unfold oip Weather.statusByte
  rw [hmask]
  cases busy with
  | true =>
    have h : (w.lights ||| 1) &&& 1 = 1 := by
      apply UInt8.toBitVec_inj.mp
      ext i hi
      simp
      grind
    simp [h]
  | false =>
    have h : (w.lights &&& ~~~(1 : UInt8)) &&& 1 = 0 := by
      rw [UInt8.and_assoc]
      simp
    simp [h]

/-- The chip: what the commands act on, the status reads until it is ready again, and the
weather of the transfers to come. -/
structure Chip (π : Type) where
  core : Core π
  busy : Nat
  future : Nat → Weather

namespace Chip

/-! ## The commands of the operations -/

def eraseCmds (blockAddr : UInt16) : List NandCmd :=
  [.writeEnable, .blockErase (blockRow blockAddr.toUInt32)]

def progCmds (pageAddr : UInt32) (data : PageData) : List NandCmd :=
  [.writeEnable, .programLoad 0 data.bytes, .writeEnable, .programExecute (rowOf pageAddr)]

def readCmds (pageAddr : UInt32) : List NandCmd := [.pageRead (rowOf pageAddr)]

def copyCmds (srcPageAddr destPageAddr : UInt32) : List NandCmd :=
  [.pageRead (rowOf srcPageAddr), .writeEnable, .programLoadRandom 0 [],
    .programExecute (rowOf destPageAddr)]

def markCmds (blockAddr : UInt32) : List NandCmd :=
  [.pageRead (blockRow blockAddr), .writeEnable,
    .programLoadRandom markerColumn [badBlockMarkerValue], .programExecute (blockRow blockAddr)]

/-! ## Transfers -/

variable {π : Type} [DecidableEq π] (g : Geometry π)

/-- The chip receives a command. -/
def receive (s : Chip π) (w : Weather) (c : NandCmd) : Answer × Chip π :=
  if c = .getFeatures featureRegStatus then
    (⟨w.status, fun _ => w.statusByte (0 < s.busy)⟩, { s with busy := s.busy - 1 })
  else if 0 < s.busy then (⟨w.status, w.bytes⟩, s)
  else
    let bytes := match c with
      | .readCache column _ => s.core.stream g column
      | _ => w.bytes
    let busy := match s.core.starts c with
      | some op => w.busy op
      | none => 0
    (⟨w.status, bytes⟩, { s with core := s.core.exec g c, busy })

/-- One transfer of a command. -/
def transfer (s : Chip π) (c : NandCmd) : Answer × Chip π :=
  let w := s.future 0
  let s := { s with future := fun n => s.future (n + 1) }
  if w.status ≠ amHalStatusSuccess then (⟨w.status, w.bytes⟩, s) else s.receive g w c

/-- The chip behind the HAL. -/
def env : Environment (Chip π)
  | s, .blockingTransfer t =>
    match t.decode with
    | some c => s.transfer g c
    | none => (⟨(s.future 0).status, (s.future 0).bytes⟩, s)
  | s, _ => (.zero, s)

/-- The handler of the chip, with anything on the stack. -/
abbrev handler : Handler (Chip π) Call Answer := Handler.stacked (Chip.env g)

variable {g}

/-- Every transfer returns what the HAL reports, and uses up its weather. -/
theorem transfer_status (s : Chip π) (c : NandCmd) :
    (s.transfer g c).1.status = (s.future 0).status := by
  unfold Chip.transfer Chip.receive
  simp only
  split_ifs <;> rfl

theorem transfer_future (s : Chip π) (c : NandCmd) :
    (s.transfer g c).2.future = fun n => s.future (n + 1) := by
  unfold Chip.transfer Chip.receive
  simp only
  split_ifs <;> rfl

/-- A command that reaches the chip behind the HAL. -/
theorem cmd_env {c : NandCmd} {φ : Answer → Chip π → Prop} {s : Chip π}
    (h : φ (s.transfer g c).1 (s.transfer g c).2) : Handler.cmd (Chip.handler g) c φ s := by
  intro t ht
  have henv : Chip.env g s (.blockingTransfer t) = s.transfer g c := by
    simp only [Chip.env, ht]
  show φ (Chip.env g s (.blockingTransfer t)).1 (Chip.env g s (.blockingTransfer t)).2
  rw [henv]
  exact h

end Chip

end SpiNand
