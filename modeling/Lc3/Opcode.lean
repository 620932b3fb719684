import Lc3.Word

/-!
# Opcodes

Bits 15 to 12 of an instruction word select one of sixteen operations.
-/

namespace Lc3

/-- The operation of an instruction. -/
inductive Opcode
  | br | add | ld | st | jsr | and | ldr | str
  | rti | not | ldi | sti | jmp | res | lea | trap
  deriving DecidableEq

namespace Opcode

/-- The operation selected by the top four bits of an instruction word. -/
def ofWord (w : Word) : Opcode :=
  match (w >>> 12).toNat with
  | 0x0 => br
  | 0x1 => add
  | 0x2 => ld
  | 0x3 => st
  | 0x4 => jsr
  | 0x5 => and
  | 0x6 => ldr
  | 0x7 => str
  | 0x8 => rti
  | 0x9 => not
  | 0xA => ldi
  | 0xB => sti
  | 0xC => jmp
  | 0xD => res
  | 0xE => lea
  | _ => trap

/-- The top four bits that select the operation. -/
def nibble : Opcode → Word
  | br => 0x0
  | add => 0x1
  | ld => 0x2
  | st => 0x3
  | jsr => 0x4
  | and => 0x5
  | ldr => 0x6
  | str => 0x7
  | rti => 0x8
  | not => 0x9
  | ldi => 0xA
  | sti => 0xB
  | jmp => 0xC
  | res => 0xD
  | lea => 0xE
  | trap => 0xF

/-- The assembler's name of the operation. -/
def name : Opcode → String
  | br => "BR"
  | add => "ADD"
  | ld => "LD"
  | st => "ST"
  | jsr => "JSR"
  | and => "AND"
  | ldr => "LDR"
  | str => "STR"
  | rti => "RTI"
  | not => "NOT"
  | ldi => "LDI"
  | sti => "STI"
  | jmp => "JMP"
  | res => "RES"
  | lea => "LEA"
  | trap => "TRAP"

end Opcode

end Lc3
