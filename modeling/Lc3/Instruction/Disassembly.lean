import Lc3.Instruction.Basic
import Lc3.Text.Numeral
import Lc3.TrapRoutine

/-!
# Disassembly

Instructions are written as in assembler source: register numbers after `R`,
immediates and offsets as signed decimals after `#`, a trap by its routine's
name if it has one.
-/

namespace Lc3

namespace Text

/-- A register operand. -/
def register (r : Word) : String := "R" ++ decimal r.toNat

/-- An immediate or an offset. -/
def literal (w : Word) : String := "#" ++ signed w.toInt

end Text

open Text

/-- The second operand as it is written. -/
def Operand.text : Operand → String
  | .register r => Text.register r
  | .immediate value => literal value

namespace Instruction

/-- The letters of the condition codes that a branch mask selects. -/
def maskText (mask : Word) : String :=
  (if mask &&& 4 = 0 then "" else "n")
    ++ (if mask &&& 2 = 0 then "" else "z")
    ++ (if mask &&& 1 = 0 then "" else "p")

/-- A register and an offset after the operation's name. -/
def offsetText (name : String) (r offset : Word) : String :=
  name ++ " " ++ register r ++ ", " ++ literal offset

/-- Two registers after the operation's name. -/
def pairText (name : String) (r s : Word) : String :=
  name ++ " " ++ register r ++ ", " ++ register s

/-- The instruction as it is written in assembler source. -/
def text : Instruction → String
  | br mask offset => "BR" ++ maskText mask ++ " " ++ literal offset
  | add dr sr1 src2 => pairText "ADD" dr sr1 ++ ", " ++ src2.text
  | ld dr offset => offsetText "LD" dr offset
  | st sr offset => offsetText "ST" sr offset
  | jsr (.offset offset) => "JSR " ++ literal offset
  | jsr (.register base) => "JSRR " ++ register base
  | and dr sr1 src2 => pairText "AND" dr sr1 ++ ", " ++ src2.text
  | ldr dr base offset => pairText "LDR" dr base ++ ", " ++ literal offset
  | str sr base offset => pairText "STR" sr base ++ ", " ++ literal offset
  | rti => "RTI"
  | not dr sr => pairText "NOT" dr sr
  | ldi dr offset => offsetText "LDI" dr offset
  | sti sr offset => offsetText "STI" sr offset
  | jmp base => if base = 7 then "RET" else "JMP " ++ register base
  | res => "RES"
  | lea dr offset => offsetText "LEA" dr offset
  | trap vector =>
      match TrapRoutine.ofVector? vector with
      | some routine => routine.name
      | none => "TRAP x" ++ hexByte vector

end Instruction

end Lc3
