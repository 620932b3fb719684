import Lc3.Instruction.Basic
import Lc3.Memory
import Lc3.Registers

/-!
# The machine

Memory, registers and whether the machine still runs.  The console is not a
part of it: what the machine wants from a console is in the dialogue of each
step.
-/

namespace Lc3

/-- Whether a machine still runs. -/
inductive Status
  | running | halted
  deriving DecidableEq

/-- The state of a machine. -/
structure Machine where
  memory : Memory
  registers : Registers
  status : Status

namespace Machine

/-- The address of the first instruction, whatever the images' origins. -/
def startAddress : Word := 0x3000

/-- A machine with blank memory that will run from the start address. -/
def initial : Machine where
  memory := .blank
  registers := .startingAt startAddress
  status := .running

/-- The value of register `r`. -/
def get (m : Machine) (r : Word) : Word := m.registers.get r

/-- Give register `r` a value; the condition stays. -/
def set (m : Machine) (r value : Word) : Machine :=
  { m with registers := m.registers.set r value }

/-- Give register `r` a value and take the condition from it. -/
def assign (m : Machine) (r value : Word) : Machine :=
  { m with registers := m.registers.assign r value }

/-- Move the program counter. -/
def jump (m : Machine) (pc : Word) : Machine :=
  { m with registers := m.registers.jump pc }

/-- Store a value in a cell. -/
def write (m : Machine) (addr value : Word) : Machine :=
  { m with memory := m.memory.write addr value }

/-- Read a cell as the running program does. -/
def read (m : Machine) (addr : Word) : Dialogue (Word × Machine) := do
  let poll ← KeyPoll.before addr
  let m := { m with memory := m.memory.receive poll }
  pure (m.memory.peek addr, m)

/-- Only the keyboard's status cell has an effect when it is read. -/
theorem read_of_ne (m : Machine) (addr : Word) (h : addr ≠ Memory.keyboardStatus) :
    m.read addr = .done (m.memory.peek addr, m) := by
  unfold read KeyPoll.before
  rw [if_neg h]
  rfl

/-- Stop the machine. -/
def stop (m : Machine) : Machine := { m with status := .halted }

/-- The address at an offset from the program counter. -/
def relative (m : Machine) (offset : Word) : Word := m.registers.pc + offset

/-- The value of a second operand. -/
def operand (m : Machine) : Operand → Word
  | .register r => m.get r
  | .immediate value => value

end Machine

end Lc3
