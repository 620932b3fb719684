import Lc3.Console.Dialogue
import Lc3.Diagnostic
import Lc3.Opcode
import Lc3.Text.Numeral
import Lc3.TrapRoutine

/-!
# Faults

A running program stops with a fault if it executes an instruction that the
machine does not support, or if the console fails in a trap routine.
-/

namespace Lc3

/-- Why a running program was stopped; `addr` is the instruction's address. -/
inductive Fault
  | reservedOpcode (opcode : Opcode) (word addr : Word)
  | unknownTrap (vector : UInt8) (addr : Word)
  | console (routine : TrapRoutine) (addr : Word) (cause : ConsoleError)
  deriving DecidableEq

namespace Fault

/-- The address of the instruction that caused the fault. -/
def addr : Fault → Word
  | reservedOpcode _ _ addr => addr
  | unknownTrap _ addr => addr
  | console _ addr _ => addr

/-- The fault in one line, without its cause. -/
def message : Fault → String
  | reservedOpcode opcode word addr =>
      "Reserved opcode " ++ opcode.name ++ " (0x" ++ Text.hexWord word
        ++ ") at address 0x" ++ Text.hexWord addr
  | unknownTrap vector addr =>
      "Unknown trap vector x" ++ Text.hexByte vector ++ " at address 0x" ++ Text.hexWord addr
  | console routine addr _ =>
      "Console failure during " ++ routine.name ++ " at address 0x" ++ Text.hexWord addr

/-- The report about a fault. -/
def diagnostic (fault : Fault) : Diagnostic :=
  match fault with
  | reservedOpcode .. =>
      { message := fault.message
        code := "run::reserved_opcode"
        help := some
          "RTI and the reserved opcode are not supported; the image may be corrupt"
        cause := none }
  | unknownTrap .. =>
      { message := fault.message
        code := "run::unknown_trap"
        help := some
          "supported vectors are GETC, OUT, PUTS, IN, PUTSP and HALT (x20-x25)"
        cause := none }
  | console _ _ cause =>
      { message := fault.message
        code := "run::console"
        help := none
        cause := some cause.message }

end Fault

end Lc3
