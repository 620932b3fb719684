import Lc3.Word

/-!
# Trap routines

Six service routines are reachable through `TRAP`, at the vectors x20 to x25.
-/

namespace Lc3

/-- A service routine. -/
inductive TrapRoutine
  /-- Read a character into R0 without echo. -/
  | getc
  /-- Write the character in R0. -/
  | out
  /-- Write the string at R0, one character in each cell. -/
  | puts
  /-- Prompt for a character, read it into R0 and echo it. -/
  | input
  /-- Write the string at R0, two characters in each cell. -/
  | putsp
  /-- Announce the halt and stop the machine. -/
  | halt
  deriving DecidableEq

namespace TrapRoutine

/-- The routine at a trap vector, if there is one. -/
def ofVector? (vector : UInt8) : Option TrapRoutine :=
  match vector.toNat with
  | 0x20 => some getc
  | 0x21 => some out
  | 0x22 => some puts
  | 0x23 => some input
  | 0x24 => some putsp
  | 0x25 => some halt
  | _ => none

/-- The trap vector of a routine. -/
def vector : TrapRoutine → UInt8
  | getc => 0x20
  | out => 0x21
  | puts => 0x22
  | input => 0x23
  | putsp => 0x24
  | halt => 0x25

/-- The assembler's name of the routine. -/
def name : TrapRoutine → String
  | getc => "GETC"
  | out => "OUT"
  | puts => "PUTS"
  | input => "IN"
  | putsp => "PUTSP"
  | halt => "HALT"

end TrapRoutine

end Lc3
