import Lc3.Machine.Basic
import Lc3.Machine.Service
import Lc3.Record

/-!
# Steps

One step fetches the word at the program counter, moves the program counter
past it and executes the word's instruction.  A fault halts the machine and
leaves it otherwise as it was after the fetch.  A halted machine does nothing.
-/

namespace Lc3

/-- The machine after an instruction, and the fault that the instruction raised. -/
structure Execution where
  machine : Machine
  fault : Option Fault

/-- The machine after a step, the step's result and what it logged. -/
structure Transition where
  machine : Machine
  result : Except Fault Status
  log : List Record

namespace Machine

/-- Go on without a fault. -/
def proceed (m : Machine) : Execution where
  machine := m
  fault := none

/-- Raise a fault. -/
def raise (m : Machine) (fault : Fault) : Execution where
  machine := m
  fault := some fault

/-- Carry out the effect of a trap routine. -/
def apply (m : Machine) : ServiceEffect → Machine
  | .none => m
  | .key byte => m.set 0 byte.toUInt16
  | .halt => m.stop

/-- Run the trap routine at a vector. -/
def trap (m : Machine) (addr : Word) (vector : UInt8) : Dialogue Execution :=
  match TrapRoutine.ofVector? vector with
  | none => pure (m.raise (.unknownTrap vector addr))
  | some routine => do
      match ← (routine.serve (m.get 0) m.memory).run with
      | .ok effect => pure (m.apply effect).proceed
      | .error cause => pure (m.raise (.console routine addr cause))

/-- Jump to `target` and leave the return address in R7. -/
def call (m : Machine) (target : Word) : Machine :=
  (m.set 7 m.registers.pc).jump target

/-- Execute an instruction that was fetched from `addr` as `word`. -/
def execute (m : Machine) (addr word : Word) : Instruction → Dialogue Execution
  | .br mask offset =>
      pure (if m.registers.selectedBy mask then m.jump (m.relative offset) else m).proceed
  | .add dr sr1 src2 => pure (m.assign dr (m.get sr1 + m.operand src2)).proceed
  | .and dr sr1 src2 => pure (m.assign dr (m.get sr1 &&& m.operand src2)).proceed
  | .not dr sr => pure (m.assign dr (~~~ m.get sr)).proceed
  | .lea dr offset => pure (m.assign dr (m.relative offset)).proceed
  | .ld dr offset => do
      let (value, m) ← m.read (m.relative offset)
      pure (m.assign dr value).proceed
  | .ldi dr offset => do
      let (pointer, m) ← m.read (m.relative offset)
      let (value, m) ← m.read pointer
      pure (m.assign dr value).proceed
  | .ldr dr base offset => do
      let (value, m) ← m.read (m.get base + offset)
      pure (m.assign dr value).proceed
  | .st sr offset => pure (m.write (m.relative offset) (m.get sr)).proceed
  | .sti sr offset => do
      let (pointer, m) ← m.read (m.relative offset)
      pure (m.write pointer (m.get sr)).proceed
  | .str sr base offset => pure (m.write (m.get base + offset) (m.get sr)).proceed
  | .jmp base => pure (m.jump (m.get base)).proceed
  | .jsr (.offset offset) => pure (m.call (m.relative offset)).proceed
  | .jsr (.register base) => pure (m.call (m.get base)).proceed
  | .trap vector => m.trap addr vector
  | .rti => pure (m.raise (.reservedOpcode .rti word addr))
  | .res => pure (m.raise (.reservedOpcode .res word addr))

/-- Read the word at the program counter and move past it. -/
def fetch (m : Machine) : Dialogue (Word × Machine) := do
  let addr := m.registers.pc
  let (word, m) ← m.read addr
  pure (word, m.jump (addr + 1))

/-- The transition that an execution leads to. -/
def settle (executing : Record) : Execution → Transition
  | ⟨m, none⟩ =>
      { machine := m
        result := .ok m.status
        log := [executing] }
  | ⟨m, some fault⟩ =>
      { machine := m.stop
        result := .error fault
        log := [executing, .faulted fault] }

/-- Execute one instruction, unless the machine has halted. -/
def step (m : Machine) : Dialogue Transition :=
  match m.status with
  | .halted =>
      pure
        { machine := m
          result := .ok .halted
          log := [] }
  | .running => do
      let addr := m.registers.pc
      let (word, m) ← m.fetch
      let execution ← m.execute addr word (Instruction.decode word)
      pure (settle (.executing addr word) execution)

theorem step_halted (m : Machine) (h : m.status = .halted) :
    m.step = .done ⟨m, .ok .halted, []⟩ := by
  unfold step
  rw [h]
  rfl

theorem step_running (m : Machine) (h : m.status = .running) :
    m.step = m.fetch.bind fun fetched =>
      (fetched.2.execute m.registers.pc fetched.1 (Instruction.decode fetched.1)).bind
        fun execution => .done (settle (.executing m.registers.pc fetched.1) execution) := by
  unfold step
  rw [h]
  rfl

end Machine

end Lc3
