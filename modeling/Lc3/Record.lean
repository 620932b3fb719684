import Lc3.Fault
import Lc3.Instruction.Disassembly

/-!
# Log records

What is logged while images are loaded and a program runs.  A record holds what
happened; its text is made only when it is asked for.
-/

namespace Lc3

/-- An event worth logging. -/
inductive Record
  /-- An image file was read and decoded. -/
  | imageRead (path : String) (words : Nat) (origin : Word)
  /-- An image is placed in memory. -/
  | loading (words : Nat) (origin : Word)
  /-- A run begins at this program counter. -/
  | runningFrom (pc : Word)
  /-- The word fetched at `addr` is executed. -/
  | executing (addr word : Word)
  /-- The executed instruction faulted. -/
  | faulted (fault : Fault)
  /-- A run has ended without a fault at this program counter. -/
  | haltedAt (pc : Word)

namespace Record

/-- The importance of a record. -/
def level : Record → String
  | imageRead .. => "DEBUG"
  | loading .. => "DEBUG"
  | runningFrom _ => "DEBUG"
  | executing .. => "TRACE"
  | faulted _ => "WARN"
  | haltedAt _ => "DEBUG"

/-- The record in one line. -/
def text : Record → String
  | imageRead path words origin =>
      "read image " ++ path ++ ": " ++ Text.decimal words ++ " words at 0x"
        ++ Text.hexWord origin
  | loading words origin =>
      "loading " ++ Text.decimal words ++ " words at 0x" ++ Text.hexWord origin
  | runningFrom pc => "running from 0x" ++ Text.hexWord pc
  | executing addr word =>
      "0x" ++ Text.hexWord addr ++ ": " ++ Text.hexWord word ++ "  "
        ++ (Instruction.decode word).text
  | faulted fault => fault.message
  | haltedAt pc => "halted at 0x" ++ Text.hexWord pc

end Record

end Lc3
