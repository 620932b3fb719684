import Lc3.Instruction.Basic

/-!
# Instruction encoding

The word written for an instruction.  Bits that its format does not use are
zero, except in `NOT`, whose low six bits the assembler sets.  An instruction
is well formed if each of its fields fits the bits that the format has for it;
these are the instructions that decoding can produce.
-/

namespace Lc3

namespace Word

/-- The first positive integer that does not fit in `width` bits. -/
def fieldBound (width : Nat) : Nat := 1 <<< (width - 1)

/-- The word is the two's complement of an integer of `width` bits. -/
def Fits (width : Nat) (w : Word) : Prop :=
  -(fieldBound width : Int) ≤ w.toInt ∧ w.toInt < fieldBound width

instance (width : Nat) (w : Word) : Decidable (Fits width w) :=
  inferInstanceAs (Decidable (_ ∧ _))

end Word

/-- A register number or an immediate of five bits. -/
def Operand.WellFormed : Operand → Prop
  | .register r => r < 8
  | .immediate value => value.Fits 5

/-- An offset of eleven bits or a register number. -/
def CallTarget.WellFormed : CallTarget → Prop
  | .offset value => value.Fits 11
  | .register base => base < 8

namespace Instruction

/-- Every field fits the bits of its format. -/
def WellFormed : Instruction → Prop
  | br mask offset => mask < 8 ∧ offset.Fits 9
  | add dr sr1 src2 => dr < 8 ∧ sr1 < 8 ∧ src2.WellFormed
  | ld dr offset => dr < 8 ∧ offset.Fits 9
  | st sr offset => sr < 8 ∧ offset.Fits 9
  | jsr target => target.WellFormed
  | and dr sr1 src2 => dr < 8 ∧ sr1 < 8 ∧ src2.WellFormed
  | ldr dr base offset => dr < 8 ∧ base < 8 ∧ offset.Fits 6
  | str sr base offset => sr < 8 ∧ base < 8 ∧ offset.Fits 6
  | rti => True
  | not dr sr => dr < 8 ∧ sr < 8
  | ldi dr offset => dr < 8 ∧ offset.Fits 9
  | sti sr offset => sr < 8 ∧ offset.Fits 9
  | jmp base => base < 8
  | res => True
  | lea dr offset => dr < 8 ∧ offset.Fits 9
  | trap _ => True

/-- The low six bits of an instruction with a second operand. -/
def encodeOperand : Operand → Word
  | .register r => r &&& 7
  | .immediate value => 0x20 ||| (value &&& 0x1F)

/-- A register number and a nine-bit offset below the opcode. -/
def encodeOffset (field offset : Word) : Word :=
  (field &&& 7) <<< 9 ||| (offset &&& 0x1FF)

/-- Two register numbers and six more bits below the opcode. -/
def encodePair (upper middle low : Word) : Word :=
  (upper &&& 7) <<< 9 ||| (middle &&& 7) <<< 6 ||| (low &&& 0x3F)

/-- The bits of an instruction below its opcode. -/
def encodeFields : Instruction → Word
  | br mask offset => encodeOffset mask offset
  | add dr sr1 src2 => encodePair dr sr1 (encodeOperand src2)
  | ld dr offset => encodeOffset dr offset
  | st sr offset => encodeOffset sr offset
  | jsr (.offset offset) => 0x800 ||| (offset &&& 0x7FF)
  | jsr (.register base) => encodePair 0 base 0
  | and dr sr1 src2 => encodePair dr sr1 (encodeOperand src2)
  | ldr dr base offset => encodePair dr base offset
  | str sr base offset => encodePair sr base offset
  | rti => 0
  | not dr sr => encodePair dr sr 0x3F
  | ldi dr offset => encodeOffset dr offset
  | sti sr offset => encodeOffset sr offset
  | jmp base => encodePair 0 base 0
  | res => 0
  | lea dr offset => encodeOffset dr offset
  | trap vector => vector.toUInt16

/-- The word that encodes an instruction. -/
def encode (i : Instruction) : Word := i.opcode.nibble <<< 12 ||| i.encodeFields

end Instruction

end Lc3
