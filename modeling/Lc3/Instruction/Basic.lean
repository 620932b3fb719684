import Lc3.Opcode

/-!
# Instructions

An instruction is the meaning of an instruction word.  Immediates and offsets
are held widened to a whole word, ready for wrapping address arithmetic.
Every word decodes: whether an instruction may be executed is left to the
machine.
-/

namespace Lc3

/-- The second operand of `ADD` and `AND`. -/
inductive Operand
  | register (r : Word)
  | immediate (value : Word)
  deriving DecidableEq

/-- Where `JSR` and `JSRR` jump to. -/
inductive CallTarget
  /-- An offset from the incremented program counter. -/
  | offset (offset : Word)
  /-- The address held by a register. -/
  | register (base : Word)
  deriving DecidableEq

/-- A decoded instruction. -/
inductive Instruction
  /-- Branch if the condition code is selected by `mask`. -/
  | br (mask offset : Word)
  | add (dr sr1 : Word) (src2 : Operand)
  | ld (dr offset : Word)
  | st (sr offset : Word)
  /-- Jump and leave the return address in R7. -/
  | jsr (target : CallTarget)
  | and (dr sr1 : Word) (src2 : Operand)
  | ldr (dr base offset : Word)
  | str (sr base offset : Word)
  | rti
  | not (dr sr : Word)
  | ldi (dr offset : Word)
  | sti (sr offset : Word)
  /-- Jump to the address in a register; `RET` is the jump through R7. -/
  | jmp (base : Word)
  | res
  | lea (dr offset : Word)
  | trap (vector : UInt8)
  deriving DecidableEq

namespace Instruction

/-- The operation of an instruction. -/
def opcode : Instruction → Opcode
  | br .. => .br
  | add .. => .add
  | ld .. => .ld
  | st .. => .st
  | jsr .. => .jsr
  | and .. => .and
  | ldr .. => .ldr
  | str .. => .str
  | rti => .rti
  | not .. => .not
  | ldi .. => .ldi
  | sti .. => .sti
  | jmp .. => .jmp
  | res => .res
  | lea .. => .lea
  | trap .. => .trap

/-- The register number in bits 11 to 9. -/
def upperField (w : Word) : Word := w >>> 9 &&& 7

/-- The register number in bits 8 to 6. -/
def middleField (w : Word) : Word := w >>> 6 &&& 7

/-- The second operand: an immediate of five bits if bit 5 is set, else the
register in bits 2 to 0. -/
def secondOperand (w : Word) : Operand :=
  if w &&& 0x20 = 0 then .register (w &&& 7) else .immediate (Word.signExtend 5 w)

/-- The instruction that a word encodes. -/
def decode (w : Word) : Instruction :=
  match Opcode.ofWord w with
  | .br => br (upperField w) (Word.signExtend 9 w)
  | .add => add (upperField w) (middleField w) (secondOperand w)
  | .ld => ld (upperField w) (Word.signExtend 9 w)
  | .st => st (upperField w) (Word.signExtend 9 w)
  | .jsr =>
      if w &&& 0x800 = 0 then jsr (.register (middleField w))
      else jsr (.offset (Word.signExtend 11 w))
  | .and => and (upperField w) (middleField w) (secondOperand w)
  | .ldr => ldr (upperField w) (middleField w) (Word.signExtend 6 w)
  | .str => str (upperField w) (middleField w) (Word.signExtend 6 w)
  | .rti => rti
  | .not => not (upperField w) (middleField w)
  | .ldi => ldi (upperField w) (Word.signExtend 9 w)
  | .sti => sti (upperField w) (Word.signExtend 9 w)
  | .jmp => jmp (middleField w)
  | .res => res
  | .lea => lea (upperField w) (Word.signExtend 9 w)
  | .trap => trap w.lowByte

end Instruction

end Lc3
