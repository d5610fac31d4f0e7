import SpiNand.Interaction.Prog

/-!
# The target's side of RTT

`SEGGER_RTT.c` on one channel, as programs that ask the memory: each load and each store is a
question, since the debug probe may access the memory between any two of them. Accesses take
effect in the order of the program, and `memcpy()` copies byte by byte. `SEGGER_RTT_LOCK()` keeps
out other code of the target, of which there is none here.

* **`writeBlocking`**, **`writeNoCheck`** store bytes in the ring buffer, and
  **`seggerRttWriteNoLock`** chooses between them by the mode of the channel.
* **`seggerRttSetTerminal`**, **`seggerRttTerminalOut`** send terminal switches with the text.
* **`seggerRttReadNoLock`** takes bytes out of a down-buffer.
* **`amPrintString`** and **`write`** are how the program prints: the output of the Ambiq
  `printf()` and of the C library.

A loop that waits for the host has fuel.
-/

namespace SpiNand.Rtt

open Interaction Interaction.Prog

/-! ## Accesses -/

/-- The first byte of the control block's ID, and the fields of a ring buffer. -/
inductive Field where
  | acID
  | sizeOfBuffer
  | wrOff
  | rdOff
  | flags
  deriving DecidableEq, Repr

inductive Access where
  | load (f : Field)
  | store (f : Field) (v : UInt32)
  | loadByte (i : UInt32)
  | storeByte (i : UInt32) (b : UInt8)
  | loadActiveTerminal
  | storeActiveTerminal (id : UInt8)
  deriving DecidableEq, Repr

/-- What a load returns. -/
structure Reply where
  word : UInt32
  byte : UInt8
  deriving DecidableEq, Repr

/-- A loop is still waiting. -/
inductive Stop where
  | outOfFuel
  deriving DecidableEq, Repr

abbrev TargetM := Prog Access Reply Stop

def load (f : Field) : TargetM UInt32 := .ask (.load f) fun r => .done r.word

def store (f : Field) (v : UInt32) : TargetM Unit := .ask (.store f v) fun _ => .done ()

/-- `pRing->pBuffer[i]` -/
def loadByte (i : UInt32) : TargetM UInt8 := .ask (.loadByte i) fun r => .done r.byte

/-- `pRing->pBuffer[i] = b` -/
def storeByte (i : UInt32) (b : UInt8) : TargetM Unit := .ask (.storeByte i b) fun _ => .done ()

def loadActiveTerminal : TargetM UInt8 := .ask .loadActiveTerminal fun r => .done r.byte

def storeActiveTerminal (id : UInt8) : TargetM Unit :=
  .ask (.storeActiveTerminal id) fun _ => .done ()

/-- `memcpy(pRing->pBuffer + off, bytes, ...)` -/
def memcpyTo (off : UInt32) : List UInt8 → TargetM Unit
  | [] => pure ()
  | b :: bytes => do
    storeByte off b
    memcpyTo (off + 1) bytes

/-- `memcpy(..., pRing->pBuffer + off, n)` -/
def memcpyFrom (off : UInt32) : Nat → TargetM (List UInt8)
  | 0 => pure []
  | n + 1 => do
    let b ← loadByte off
    let bytes ← memcpyFrom (off + 1) n
    return b :: bytes

/-! ## The channel -/

def seggerRttModeNoBlockSkip : UInt32 := 0
def seggerRttModeNoBlockTrim : UInt32 := 1
def seggerRttModeBlockIfFifoFull : UInt32 := 2
def seggerRttModeMask : UInt32 := 3

def bufferSizeUp : UInt32 := 4096
def bufferSizeDown : UInt32 := 16

/-- `_aTerminalId` -/
def aTerminalId : List UInt8 :=
  [48, 49, 50, 51, 52, 53, 54, 55, 56, 57, 65, 66, 67, 68, 69, 70]

/-- `_DoInit()` for buffer 0, up or down. The ID is written last, and of it the first byte is
kept. -/
def doInit (SizeOfBuffer : UInt32) : TargetM Unit := do
  store .sizeOfBuffer SizeOfBuffer
  store .rdOff 0
  store .wrOff 0
  store .flags seggerRttModeNoBlockSkip
  store .acID 83

/-- `INIT()` -/
def init (SizeOfBuffer : UInt32) : TargetM Unit := do
  let acID ← load .acID
  if acID = 0 then doInit SizeOfBuffer else pure ()

/-- `SEGGER_RTT_Init()`, for one buffer. -/
def seggerRttInit (SizeOfBuffer : UInt32) : TargetM Unit := doInit SizeOfBuffer

/-- An offset at the end of the buffer starts again. -/
def wrapAround (SizeOfBuffer off : UInt32) : UInt32 := if off = SizeOfBuffer then 0 else off

/-! ## Up-buffers -/

/-- What one turn of `_WriteBlocking()` writes. -/
def numBytesToWrite (SizeOfBuffer RdOff WrOff NumBytes : UInt32) : UInt32 :=
  min (min (if RdOff > WrOff then RdOff - WrOff - 1 else SizeOfBuffer - (WrOff - RdOff + 1))
    (SizeOfBuffer - WrOff)) NumBytes

/-- The loop of `_WriteBlocking()`. -/
def writeBlockingLoop : Nat → UInt32 → List UInt8 → UInt32 → UInt32 → TargetM UInt32
  | 0, _, _, _, _ => .stop .outOfFuel
  | fuel + 1, WrOff, pBuffer, NumBytes, NumBytesWritten => do
    let RdOff ← load .rdOff
    let SizeOfBuffer ← load .sizeOfBuffer
    let n := numBytesToWrite SizeOfBuffer RdOff WrOff NumBytes
    memcpyTo WrOff (pBuffer.take n.toNat)
    store .wrOff (wrapAround SizeOfBuffer (WrOff + n))
    if NumBytes - n = 0 then
      pure (NumBytesWritten + n)
    else
      writeBlockingLoop fuel (wrapAround SizeOfBuffer (WrOff + n)) (pBuffer.drop n.toNat)
        (NumBytes - n) (NumBytesWritten + n)

/-- `_WriteBlocking()` -/
def writeBlocking (fuel : Nat) (pBuffer : List UInt8) (NumBytes : UInt32) : TargetM UInt32 := do
  let WrOff ← load .wrOff
  writeBlockingLoop fuel WrOff pBuffer NumBytes 0

/-- Bytes that end before the buffer does. -/
def copyStraight (WrOff : UInt32) (pData : List UInt8) (NumBytes : UInt32) : TargetM Unit := do
  memcpyTo WrOff (pData.take NumBytes.toNat)
  store .wrOff (WrOff + NumBytes)

/-- Bytes that wrap around after `Rem` of them. -/
def copyWrapped (WrOff Rem : UInt32) (pData : List UInt8) (NumBytes : UInt32) : TargetM Unit := do
  memcpyTo WrOff (pData.take Rem.toNat)
  memcpyTo 0 ((pData.drop Rem.toNat).take (NumBytes - Rem).toNat)
  store .wrOff (NumBytes - Rem)

/-- `_WriteNoCheck()` -/
def writeNoCheck (pData : List UInt8) (NumBytes : UInt32) : TargetM Unit := do
  let WrOff ← load .wrOff
  let SizeOfBuffer ← load .sizeOfBuffer
  let Rem := SizeOfBuffer - WrOff
  if Rem > NumBytes then
    copyStraight WrOff pData NumBytes
  else
    copyWrapped WrOff Rem pData NumBytes

/-- `_PostTerminalSwitch()` -/
def postTerminalSwitch (fuel : Nat) (TerminalId : UInt8) : TargetM Unit := do
  let _ ← writeBlocking fuel [0xFF, aTerminalId.getD TerminalId.toNat 0] 2
  pure ()

/-- `_GetAvailWriteSpace()` -/
def getAvailWriteSpace : TargetM UInt32 := do
  let RdOff ← load .rdOff
  let WrOff ← load .wrOff
  let SizeOfBuffer ← load .sizeOfBuffer
  return if RdOff ≤ WrOff then SizeOfBuffer - 1 - WrOff + RdOff else RdOff - WrOff - 1

/-- `SEGGER_RTT_WriteNoLock()` -/
def seggerRttWriteNoLock (fuel : Nat) (pBuffer : List UInt8) (NumBytes : UInt32) :
    TargetM UInt32 := do
  let Flags ← load .flags
  if Flags = seggerRttModeNoBlockSkip then do
    let Avail ← getAvailWriteSpace
    if Avail < NumBytes then
      return 0
    else do
      writeNoCheck pBuffer NumBytes
      return NumBytes
  else if Flags = seggerRttModeNoBlockTrim then do
    let Avail ← getAvailWriteSpace
    let Status := if Avail < NumBytes then Avail else NumBytes
    writeNoCheck pBuffer Status
    return Status
  else if Flags = seggerRttModeBlockIfFifoFull then
    writeBlocking fuel pBuffer NumBytes
  else
    return 0

/-- `SEGGER_RTT_Write()` -/
def seggerRttWrite (fuel : Nat) (pBuffer : List UInt8) (NumBytes : UInt32) : TargetM UInt32 := do
  init bufferSizeUp
  seggerRttWriteNoLock fuel pBuffer NumBytes

/-- The length of a string, which is given without the `'\0'` at its end. -/
def strlen (s : List UInt8) : UInt32 := UInt32.ofNat s.length

/-- `SEGGER_RTT_WriteString()` -/
def seggerRttWriteString (fuel : Nat) (s : List UInt8) : TargetM UInt32 :=
  seggerRttWrite fuel s (strlen s)

/-- `am_print_string()` -/
def amPrintString (fuel : Nat) (pcStr : List UInt8) : TargetM Unit := do
  let _ ← seggerRttWriteString fuel pcStr
  pure ()

/-- `_write()`, which returns `len` whatever was written. -/
def write (fuel : Nat) (ptr : List UInt8) (len : UInt32) : TargetM UInt32 := do
  let _ ← seggerRttWrite fuel ptr len
  return len

/-- `SEGGER_RTT_WriteSkipNoLock()` as it is written in C. -/
def seggerRttWriteSkipNoLock (pBuffer : List UInt8) (NumBytes : UInt32) : TargetM UInt32 := do
  let RdOff ← load .rdOff
  let WrOff ← load .wrOff
  let SizeOfBuffer ← load .sizeOfBuffer
  if RdOff ≤ WrOff then do
    let Avail := SizeOfBuffer - WrOff - 1
    if Avail ≥ NumBytes then do
      copyStraight WrOff pBuffer NumBytes
      return 1
    else if Avail + RdOff ≥ NumBytes then do
      copyWrapped WrOff (SizeOfBuffer - WrOff) pBuffer NumBytes
      return 1
    else
      return 0
  else if RdOff - WrOff - 1 ≥ NumBytes then do
    copyStraight WrOff pBuffer NumBytes
    return 1
  else
    return 0

/-- The free cells, as `SEGGER_RTT_WriteWithOverwriteNoLock()` computes them. -/
def overwriteAvail : TargetM UInt32 := do
  let WrOff ← load .wrOff
  let RdOff ← load .rdOff
  let SizeOfBuffer ← load .sizeOfBuffer
  return if WrOff = RdOff then SizeOfBuffer - 1
    else if WrOff < RdOff then RdOff - WrOff - 1
    else RdOff - WrOff - 1 + SizeOfBuffer

/-- The loop that brings `RdOff` back into the buffer. -/
def wrapRdOff : Nat → TargetM Unit
  | 0 => .stop .outOfFuel
  | fuel + 1 => do
    let RdOff ← load .rdOff
    let SizeOfBuffer ← load .sizeOfBuffer
    if RdOff ≥ SizeOfBuffer then do
      store .rdOff (RdOff - SizeOfBuffer)
      wrapRdOff fuel
    else
      pure ()

/-- The loop that writes, with the cells before the end of the buffer. After the first time around
it is taken to end one cell earlier. -/
def overwriteLoop : Nat → UInt32 → List UInt8 → UInt32 → TargetM Unit
  | 0, _, _, _ => .stop .outOfFuel
  | fuel + 1, Avail, pData, NumBytes => do
    let WrOff ← load .wrOff
    if Avail > NumBytes then do
      memcpyTo WrOff (pData.take NumBytes.toNat)
      store .wrOff (WrOff + NumBytes)
    else do
      memcpyTo WrOff (pData.take Avail.toNat)
      store .wrOff 0
      let SizeOfBuffer ← load .sizeOfBuffer
      if NumBytes - Avail = 0 then
        pure ()
      else
        overwriteLoop fuel (SizeOfBuffer - 1) (pData.drop Avail.toNat) (NumBytes - Avail)

/-- `SEGGER_RTT_WriteWithOverwriteNoLock()`, which is for times when no host reads the buffer: it
moves the read offset itself. -/
def seggerRttWriteWithOverwriteNoLock (fuel : Nat) (pBuffer : List UInt8) (NumBytes : UInt32) :
    TargetM Unit := do
  let Avail ← overwriteAvail
  (if NumBytes > Avail then do
    let RdOff ← load .rdOff
    store .rdOff (RdOff + (NumBytes - Avail))
    wrapRdOff fuel
  else pure () : TargetM Unit)
  let SizeOfBuffer ← load .sizeOfBuffer
  let WrOff ← load .wrOff
  overwriteLoop fuel (SizeOfBuffer - WrOff) pBuffer NumBytes

/-- The offset after the next byte. -/
def nextWrOff : TargetM UInt32 := do
  let WrOff ← load .wrOff
  let SizeOfBuffer ← load .sizeOfBuffer
  return wrapAround SizeOfBuffer (WrOff + 1)

/-- The end of the `PutChar` functions: the byte is written if it has a place. -/
def putIfFree (c : UInt8) (WrOff : UInt32) : TargetM UInt32 := do
  let RdOff ← load .rdOff
  if WrOff ≠ RdOff then do
    let off ← load .wrOff
    storeByte off c
    store .wrOff WrOff
    return 1
  else
    return 0

/-- `SEGGER_RTT_PutCharSkipNoLock()` -/
def seggerRttPutCharSkipNoLock (c : UInt8) : TargetM UInt32 := do
  let WrOff ← nextWrOff
  putIfFree c WrOff

/-- `SEGGER_RTT_PutCharSkip()` -/
def seggerRttPutCharSkip (c : UInt8) : TargetM UInt32 := do
  init bufferSizeUp
  let WrOff ← nextWrOff
  putIfFree c WrOff

/-- The loop of `SEGGER_RTT_PutChar()`. -/
def putCharWait : Nat → UInt32 → TargetM Unit
  | 0, _ => .stop .outOfFuel
  | fuel + 1, WrOff => do
    let RdOff ← load .rdOff
    if WrOff = RdOff then putCharWait fuel WrOff else pure ()

/-- `SEGGER_RTT_PutChar()` -/
def seggerRttPutChar (fuel : Nat) (c : UInt8) : TargetM UInt32 := do
  init bufferSizeUp
  let WrOff ← nextWrOff
  let Flags ← load .flags
  (if Flags = seggerRttModeBlockIfFifoFull then putCharWait fuel WrOff else pure () : TargetM Unit)
  putIfFree c WrOff

/-- `SEGGER_RTT_SetFlagsUpBuffer()` -/
def seggerRttSetFlagsUpBuffer (Flags : UInt32) : TargetM Int := do
  init bufferSizeUp
  store .flags Flags
  return 0

/-! ## Terminals -/

/-- `SEGGER_RTT_SetTerminal()` -/
def seggerRttSetTerminal (fuel : Nat) (TerminalId : UInt8) : TargetM Int := do
  init bufferSizeUp
  if TerminalId.toNat < aTerminalId.length then do
    let ac := [0xFF, aTerminalId.getD TerminalId.toNat 0]
    let Flags ← load .flags
    if Flags &&& seggerRttModeMask = seggerRttModeBlockIfFifoFull then do
      storeActiveTerminal TerminalId
      let _ ← writeBlocking fuel ac 2
      return 0
    else do
      let Avail ← getAvailWriteSpace
      if Avail ≥ 2 then do
        storeActiveTerminal TerminalId
        writeNoCheck ac 2
        return 0
      else
        return -1
  else
    return -1

/-- The cast of an `unsigned` to `int`. -/
def toInt (v : UInt32) : Int := v.toInt32.toInt

/-- The text of `SEGGER_RTT_TerminalOut()` between its two terminal switches. -/
def terminalFrame (fuel : Nat) (TerminalId : UInt8) (s : List UInt8) (NumBytes : UInt32) :
    TargetM Int := do
  postTerminalSwitch fuel TerminalId
  let Status ← writeBlocking fuel s NumBytes
  let ActiveTerminal ← loadActiveTerminal
  postTerminalSwitch fuel ActiveTerminal
  return toInt Status

/-- `SEGGER_RTT_TerminalOut()` -/
def seggerRttTerminalOut (fuel : Nat) (TerminalId : UInt8) (s : List UInt8) : TargetM Int := do
  init bufferSizeUp
  if TerminalId.toNat < aTerminalId.length then do
    let FragLen := strlen s
    let Avail ← getAvailWriteSpace
    let Flags ← load .flags
    let Mode := Flags &&& seggerRttModeMask
    if Mode = seggerRttModeNoBlockSkip then
      if Avail < FragLen + 4 then
        return 0
      else
        terminalFrame fuel TerminalId s FragLen
    else if Mode = seggerRttModeNoBlockTrim then
      if Avail < 4 then
        return -1
      else
        terminalFrame fuel TerminalId s (if FragLen < Avail - 4 then FragLen else Avail - 4)
    else if Mode = seggerRttModeBlockIfFifoFull then
      terminalFrame fuel TerminalId s FragLen
    else
      return -1
  else
    return -1

/-! ## Down-buffers -/

/-- The bytes of a down-buffer up to its end, if what there is to read wraps around: the bytes,
the offset after them and how much room the caller has left. -/
def readUntilWrapAround (RdOff WrOff BufferSize : UInt32) :
    TargetM (List UInt8 × UInt32 × UInt32) :=
  if RdOff > WrOff then do
    let SizeOfBuffer ← load .sizeOfBuffer
    let NumBytesRem := min (SizeOfBuffer - RdOff) BufferSize
    let bytes ← memcpyFrom RdOff NumBytesRem.toNat
    return (bytes, wrapAround SizeOfBuffer (RdOff + NumBytesRem), BufferSize - NumBytesRem)
  else
    return ([], RdOff, BufferSize)

/-- `SEGGER_RTT_ReadNoLock()`: the bytes that it stores in the caller's buffer, whose number it
returns. -/
def seggerRttReadNoLock (BufferSize : UInt32) : TargetM (List UInt8) := do
  init bufferSizeDown
  let RdOff ← load .rdOff
  let WrOff ← load .wrOff
  let (bytes, RdOff, BufferSize) ← readUntilWrapAround RdOff WrOff BufferSize
  let NumBytesRem := min (WrOff - RdOff) BufferSize
  let bytes' ← memcpyFrom RdOff NumBytesRem.toNat
  (if bytes ++ bytes' ≠ [] then store .rdOff (RdOff + NumBytesRem) else pure () : TargetM Unit)
  return bytes ++ bytes'

/-- `SEGGER_RTT_Read()` -/
def seggerRttRead (BufferSize : UInt32) : TargetM (List UInt8) := seggerRttReadNoLock BufferSize

/-- `SEGGER_RTT_GetKey()` -/
def seggerRttGetKey : TargetM Int := do
  let bytes ← seggerRttRead 1
  return match bytes with
    | [c] => (c.toNat : Int)
    | _ => -1

/-- `SEGGER_RTT_WaitKey()` -/
def seggerRttWaitKey : Nat → TargetM Int
  | 0 => .stop .outOfFuel
  | fuel + 1 => do
    let r ← seggerRttGetKey
    if r < 0 then seggerRttWaitKey fuel else pure r

/-- `SEGGER_RTT_HasKey()` -/
def seggerRttHasKey : TargetM Int := do
  init bufferSizeDown
  let RdOff ← load .rdOff
  let WrOff ← load .wrOff
  return if RdOff ≠ WrOff then 1 else 0

end SpiNand.Rtt
