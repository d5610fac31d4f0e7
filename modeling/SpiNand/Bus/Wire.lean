import SpiNand.Driver.Command
import SpiNand.Interaction.BigEndian

/-!
# What a transfer puts on the wire

A blocking transfer sends the opcode, then, if `bSendAddr`, an address of `ASIZE + 1` bytes with
the most significant byte first, then the data in the transaction's direction. The chip sees
only these bytes. `Transfer.decode` is its view: the command, with the row taken from three
address bytes and the column from two, or `none` where the bytes do not form a command of the
flash.

The lemmas after it decode the transfer of every command helper, so that nothing later looks at
transactions or address widths again.
-/

namespace SpiNand

open Interaction

/-- The commands of the flash, with their operands. -/
inductive NandCmd
  | reset
  | writeEnable
  | writeDisable
  | readId (len : Nat)
  | pageRead (row : Nat)
  | readCache (column len : Nat)
  | programLoad (column : Nat) (data : List UInt8)
  | programLoadRandom (column : Nat) (data : List UInt8)
  | programExecute (row : Nat)
  | blockErase (row : Nat)
  | getFeatures (reg : UInt8)
  | setFeatures (reg value : UInt8)
  deriving DecidableEq

namespace Transfer

/-- The address bytes on the wire. -/
def addrBytes (t : Transfer) : List UInt8 :=
  if t.pio.bSendAddr then beBytes (t.cfg.asize.toNat + 1) t.pio.ui32DeviceAddr.toNat else []

/-- The data bytes sent. -/
def dataBytes (t : Transfer) : List UInt8 :=
  if t.pio.eDirection = .tx then t.pio.pui32Buffer.take t.pio.ui32NumBytes.toNat else []

/-- An instruction byte followed by address and data on one lane, with no turnaround cycles. -/
def plain (t : Transfer) : Bool :=
  t.pio.bSendInstr && !t.pio.bTurnaround && !t.pio.bQuadCmd

/-- A row address: three bytes. -/
def row (t : Transfer) : Option Nat :=
  match t.addrBytes with
  | [a, b, c] => some (beNat [a, b, c])
  | _ => none

/-- A column address: two bytes. -/
def column (t : Transfer) : Option Nat :=
  match t.addrBytes with
  | [a, b] => some (beNat [a, b])
  | _ => none

/-- A column address followed by a dummy byte. -/
def columnDummy (t : Transfer) : Option Nat :=
  match t.addrBytes with
  | [a, b, _] => some (beNat [a, b])
  | _ => none

/-- The register of a feature command: one byte. -/
def register (t : Transfer) : Option UInt8 :=
  match t.addrBytes with
  | [a] => some a
  | _ => none

/-- A command without address. -/
def bare (t : Transfer) (c : NandCmd) : Option NandCmd :=
  if t.addrBytes.isEmpty then some c else none

/-- The command a transfer in transmit direction carries. -/
def decodeTx (t : Transfer) : Option NandCmd :=
  let op := t.pio.ui16DeviceInstr.toUInt8
  if op = cmdReset then t.bare .reset
  else if op = cmdWriteEnable then t.bare .writeEnable
  else if op = cmdWriteDisable then t.bare .writeDisable
  else if op = cmdPageRead then t.row.map .pageRead
  else if op = cmdProgramExecute then t.row.map .programExecute
  else if op = cmdBlockErase then t.row.map .blockErase
  else if op = cmdProgramLoad then t.column.map (.programLoad · t.dataBytes)
  else if op = cmdProgramLoadRandom then t.column.map (.programLoadRandom · t.dataBytes)
  else if op = cmdSetFeatures then
    match t.register, t.dataBytes with
    | some reg, [value] => some (.setFeatures reg value)
    | _, _ => none
  else none

/-- The command a transfer in receive direction carries. -/
def decodeRx (t : Transfer) : Option NandCmd :=
  let op := t.pio.ui16DeviceInstr.toUInt8
  if op = cmdReadId then t.bare (.readId t.pio.ui32NumBytes.toNat)
  else if op = cmdReadCacheSingle then t.columnDummy.map (.readCache · t.pio.ui32NumBytes.toNat)
  else if op = cmdGetFeatures then t.register.map .getFeatures
  else none

/-- The command of a transfer, as the chip reads it off the wire. -/
def decode (t : Transfer) : Option NandCmd :=
  if t.plain then
    match t.pio.eDirection with
    | .tx => t.decodeTx
    | .rx => t.decodeRx
  else none

end Transfer

/-- The row a page address selects: the three bytes that are sent. -/
def rowOf (pageAddr : UInt32) : Nat := pageAddr.toNat % 2 ^ 24

/-! ## Decoding the helpers' transfers -/

section Decode

variable (d : Driver)

theorem decode_reset :
    (d.starts (writeTransaction cmdReset false 0 [] 0) d.cfg.asize).decode = some .reset := rfl

theorem decode_writeEnable :
    (d.starts (writeTransaction cmdWriteEnable false 0 [] 0) d.cfg.asize).decode =
      some .writeEnable := rfl

theorem decode_readId (buffer : List UInt8) :
    (d.starts (readTransaction cmdReadId false 0 buffer 3) d.cfg.asize).decode =
      some (.readId 3) := rfl

theorem decode_getFeatures (reg : UInt8) :
    (d.starts (getFeaturesTransaction reg) 0).decode = some (.getFeatures reg) := by
  have h : UInt8.ofNat (reg.toUInt32.toNat / 256 ^ 0) = reg := by simp
  exact congrArg (fun r => some (NandCmd.getFeatures r)) h

theorem decode_setFeatures (reg value : UInt8) :
    (d.starts (setFeaturesTransaction reg value) 0).decode = some (.setFeatures reg value) := by
  have h : UInt8.ofNat (reg.toUInt32.toNat / 256 ^ 0) = reg := by simp
  exact congrArg (fun r => some (NandCmd.setFeatures r value)) h

/-- Three address bytes give back the page address, without its highest byte. -/
theorem row_starts (op : UInt8) (pageAddr : UInt32) :
    (d.starts (writeTransaction op true pageAddr [] 0) 2).row = some (rowOf pageAddr) :=
  congrArg some (beNat_beBytes 3 pageAddr.toNat)

theorem decode_pageRead (pageAddr : UInt32) :
    (d.starts (writeTransaction cmdPageRead true pageAddr [] 0) 2).decode =
      some (.pageRead (rowOf pageAddr)) :=
  congrArg (Option.map NandCmd.pageRead) (row_starts d cmdPageRead pageAddr)

theorem decode_programExecute (pageAddr : UInt32) :
    (d.starts (writeTransaction cmdProgramExecute true pageAddr [] 0) 2).decode =
      some (.programExecute (rowOf pageAddr)) :=
  congrArg (Option.map NandCmd.programExecute) (row_starts d cmdProgramExecute pageAddr)

theorem decode_blockErase (pageAddr : UInt32) :
    (d.starts (writeTransaction cmdBlockErase true pageAddr [] 0) 2).decode =
      some (.blockErase (rowOf pageAddr)) :=
  congrArg (Option.map NandCmd.blockErase) (row_starts d cmdBlockErase pageAddr)

/-- Two address bytes give back the column. -/
theorem column_starts (op : UInt8) (columnAddr : UInt16) (data : List UInt8) (len : UInt32) :
    (d.starts (writeTransaction op true columnAddr.toUInt32 data len) 1).column =
      some columnAddr.toNat := by
  have h : beNat (beBytes 2 columnAddr.toUInt32.toNat) = columnAddr.toNat := by
    rw [beNat_beBytes, UInt16.toNat_toUInt32]
    exact Nat.mod_eq_of_lt columnAddr.toNat_lt
  exact congrArg some h

theorem decode_programLoad (columnAddr : UInt16) (data : List UInt8) (len : UInt32) :
    (d.starts (writeTransaction cmdProgramLoad true columnAddr.toUInt32 data len) 1).decode =
      some (.programLoad columnAddr.toNat (data.take len.toNat)) :=
  congrArg (Option.map (NandCmd.programLoad · (data.take len.toNat)))
    (column_starts d cmdProgramLoad columnAddr data len)

theorem decode_programLoadRandom (columnAddr : UInt16) (data : List UInt8) (len : UInt32) :
    (d.starts (writeTransaction cmdProgramLoadRandom true columnAddr.toUInt32 data len) 1).decode =
      some (.programLoadRandom columnAddr.toNat (data.take len.toNat)) :=
  congrArg (Option.map (NandCmd.programLoadRandom · (data.take len.toNat)))
    (column_starts d cmdProgramLoadRandom columnAddr data len)

/-- The column address of a read is shifted to make room for the dummy byte. -/
theorem toNat_columnDummy (columnAddr : UInt16) :
    (columnAddr.toUInt32 <<< 8).toNat = columnAddr.toNat * 256 := by
  have hcol := columnAddr.toNat_lt
  have hlt : columnAddr.toUInt32.toNat * 2 ^ 8 < 2 ^ 32 := by
    rw [UInt16.toNat_toUInt32]
    omega
  have hshift := toNat_shiftLeft_of_lt (n := 8) (by decide) hlt
  rwa [UInt16.toNat_toUInt32] at hshift

/-- The column shifted left by one byte leaves its two bytes first and a zero byte last. -/
theorem columnDummy_starts (op : UInt8) (columnAddr : UInt16) (data : List UInt8) (len : UInt32) :
    (d.starts (readTransaction op true (columnAddr.toUInt32 <<< 8) data len) 2).columnDummy =
      some columnAddr.toNat := by
  have hcol := columnAddr.toNat_lt
  have hshift := toNat_columnDummy columnAddr
  show some (beNat [UInt8.ofNat ((columnAddr.toUInt32 <<< 8).toNat / 256 ^ 2),
    UInt8.ofNat ((columnAddr.toUInt32 <<< 8).toNat / 256 ^ 1)]) = _
  rw [hshift]
  simp [beNat]
  omega

theorem decode_readCache (columnAddr : UInt16) (data : List UInt8) (len : UInt32) :
    (d.starts (readTransaction cmdReadCacheSingle true (columnAddr.toUInt32 <<< 8) data len)
      2).decode = some (.readCache columnAddr.toNat len.toNat) :=
  congrArg (Option.map (NandCmd.readCache · len.toNat))
    (columnDummy_starts d cmdReadCacheSingle columnAddr data len)

end Decode

end SpiNand
