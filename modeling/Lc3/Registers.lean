import Lc3.Word

/-!
# Registers

Eight general registers, the program counter and the condition code.  Register
numbers are taken modulo eight.  No condition holds until the first value is
written together with its condition.
-/

namespace Lc3

/-- The sign of the value that was last written together with its condition. -/
inductive Condition
  | negative | zero | positive
  deriving DecidableEq

namespace Condition

/-- The sign of a word, read as a two's-complement integer. -/
def ofWord (w : Word) : Condition :=
  if w = 0 then zero else if w < 0x8000 then positive else negative

/-- The bit that selects the condition in a branch mask. -/
def bit : Condition → Word
  | negative => 4
  | zero => 2
  | positive => 1

/-- The condition's letter. -/
def letter : Condition → String
  | negative => "N"
  | zero => "Z"
  | positive => "P"

end Condition

/-- R0 to R7, the program counter and the condition code. -/
structure Registers where
  general : Vector Word 8
  pc : Word
  condition : Option Condition

namespace Registers

/-- All general registers zero and no condition. -/
def startingAt (pc : Word) : Registers where
  general := Vector.replicate 8 0
  pc := pc
  condition := none

/-- The value of general register `r`. -/
def get (regs : Registers) (r : Word) : Word := regs.general[r.toNat % 8]

/-- Give general register `r` a value; the condition stays. -/
def set (regs : Registers) (r value : Word) : Registers :=
  { regs with general := regs.general.set (r.toNat % 8) value }

theorem get_set (regs : Registers) (r value s : Word) :
    (regs.set r value).get s = if r.toNat % 8 = s.toNat % 8 then value else regs.get s := by
  simp [get, set, Vector.getElem_set]

@[simp] theorem get_set_self (regs : Registers) (r value : Word) :
    (regs.set r value).get r = value := by
  simp [get_set]

/-- Move the program counter. -/
def jump (regs : Registers) (pc : Word) : Registers := { regs with pc := pc }

/-- Take the condition from the present value of register `r`. -/
def setCondition (regs : Registers) (r : Word) : Registers :=
  { regs with condition := some (Condition.ofWord (regs.get r)) }

/-- Give register `r` a value and take the condition from it. -/
def assign (regs : Registers) (r value : Word) : Registers :=
  (regs.set r value).setCondition r

/-- Whether a branch with this mask is taken. -/
def selectedBy (regs : Registers) (mask : Word) : Bool :=
  match regs.condition with
  | none => false
  | some condition => condition.bit &&& mask != 0

end Registers

end Lc3
