import Lc3.Memory
import Lc3.TrapRoutine

/-!
# Trap services

A trap routine talks to the console and depends on R0 and memory alone.  Its
only effects on the machine are a key in R0 or the halt, and neither comes
before its last console call has succeeded.
-/

namespace Lc3

/-- What a trap routine changes in the machine. -/
inductive ServiceEffect
  | none
  /-- R0 becomes the byte that was read. -/
  | key (byte : UInt8)
  | halt
  deriving DecidableEq

namespace TrapRoutine

open Dialogue

/-- The byte written before `IN` waits for a key. -/
def inputPrompt : UInt8 := 0x20

/-- The text written before the machine halts. -/
def haltNotice : String := "\nHalted\n"

/-- The one or two characters of a cell, the low byte first.  A zero high byte
pads a string of odd length. -/
def packedBytes (cell : Word) : List UInt8 :=
  if cell.highByte = 0 then [cell.lowByte] else [cell.lowByte, cell.highByte]

/-- Write the bytes and flush them. -/
def print (bytes : List UInt8) : Attempt Unit := do
  writeAll bytes
  send

/-- The console calls of a routine and what it changes. -/
def serve (routine : TrapRoutine) (r0 : Word) (mem : Memory) : Attempt ServiceEffect :=
  match routine with
  | getc => do
      let byte ← read
      pure (.key byte)
  | out => do
      print [r0.lowByte]
      pure .none
  | puts => do
      print ((mem.stringAt r0).map Word.lowByte)
      pure .none
  | input => do
      print [inputPrompt]
      let byte ← read
      print [byte]
      pure (.key byte)
  | putsp => do
      print ((mem.stringAt r0).flatMap packedBytes)
      pure .none
  | halt => do
      print haltNotice.toUTF8.toList
      pure .halt

end TrapRoutine

end Lc3
