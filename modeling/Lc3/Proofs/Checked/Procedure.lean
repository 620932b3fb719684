import Lc3.Proofs.Architecture.State
import Lc3.Proofs.Checked.Basic

/-!
# Procedures on a bare machine

A bare machine has arrays of cells and of registers whose sizes nothing bounds.  A
procedure changes it, talks to the console and ends early if a check fails.  It performs
an operation of the machine if it makes the same calls and comes to the same end, always
without a panic.  This is kept when procedures are put one after the other.
-/

namespace Lc3

/-- The parts of a machine, without the proofs of their sizes. -/
structure Bare where
  cells : Array Word
  general : Array Word
  pc : Word
  condition : Option Condition
  status : Status

namespace Bare

def of (m : Machine) : Bare where
  cells := m.memory.cells.toArray
  general := m.registers.general.toArray
  pc := m.registers.pc
  condition := m.registers.condition
  status := m.status

/-- A new machine with memory and registers of the right sizes. -/
def initial : Bare where
  cells := Array.replicate 65536 0
  general := Array.replicate 8 0
  pc := 0x3000
  condition := none
  status := .running

theorem of_initial : of .initial = initial := rfl

@[simp] theorem size_cells (m : Machine) : (of m).cells.size = 65536 := m.memory.cells.size_toArray

@[simp] theorem size_general (m : Machine) : (of m).general.size = 8 :=
  m.registers.general.size_toArray

end Bare

/-- A computation on a bare machine that may panic.  What was changed before stays. -/
abbrev Procedure (α : Type) : Type := ExceptT Panic (StateT Bare Dialogue) α

namespace Procedure

variable {α β : Type}

/-- The dialogue of a procedure, with the bare machine that it leaves. -/
def start (a : Procedure α) (bare : Bare) : Dialogue (Except Panic α × Bare) :=
  StateT.run (ExceptT.run a) bare

/-- Panic if the check has failed. -/
def check (x : Checked α) : Procedure α := ExceptT.mk (pure x)

instance : MonadLift Checked Procedure where
  monadLift := check

/-- Talk to the console. -/
def say (d : Dialogue α) : Procedure α :=
  ExceptT.mk fun bare => d.bind fun x => .done (.ok x, bare)

theorem start_say (d : Dialogue α) (bare : Bare) :
    (say d).start bare = d.bind fun x => .done (.ok x, bare) := rfl

/-- Nothing follows a panic. -/
theorem start_bind (a : Procedure α) (f : α → Procedure β) (bare : Bare) :
    (a >>= f).start bare = (a.start bare).bind fun
      | (.ok x, bare') => (f x).start bare'
      | (.error panic, bare') => .done (.error panic, bare') := by
  show (a.start bare).bind _ = _
  congr 1
  funext held
  rcases held with ⟨panic | x, bare'⟩ <;> rfl

/-- The procedure makes the calls of the dialogue and ends as it does, without a panic. -/
def Performs (a : Procedure α) (m : Machine) (d : Dialogue (α × Machine)) : Prop :=
  a.start (Bare.of m) = d.bind fun held => .done (.ok held.1, Bare.of held.2)

theorem performs_pure (x : α) (m : Machine) : Performs (pure x) m (.done (x, m)) := rfl

theorem performs_check {c : Checked α} {x : α} (h : c = .ok x) (m : Machine) :
    Performs (check c) m (.done (x, m)) := by
  unfold Performs
  rw [h]
  rfl

theorem performs_say (d : Dialogue α) (m : Machine) :
    Performs (say d) m (d.bind fun x => .done (x, m)) := by
  unfold Performs
  rw [start_say, Dialogue.bind_assoc]
  rfl

theorem Performs.bind {a : Procedure α} {f : α → Procedure β} {m : Machine}
    {d : Dialogue (α × Machine)} {e : α × Machine → Dialogue (β × Machine)}
    (ha : Performs a m d) (hf : ∀ x m', Performs (f x) m' (e (x, m'))) :
    Performs (a >>= f) m (d.bind e) := by
  unfold Performs at ha ⊢
  rw [start_bind, ha, Dialogue.bind_assoc, Dialogue.bind_assoc]
  congr 1
  funext held
  exact hf held.1 held.2

/-- An operation without calls, and what follows it. -/
theorem Performs.next {a : Procedure α} {f : α → Procedure β} {m m' : Machine} {x : α}
    {e : Dialogue (β × Machine)} (ha : Performs a m (.done (x, m')))
    (hf : Performs (f x) m' e) : Performs (a >>= f) m e := by
  unfold Performs at ha ⊢
  rw [start_bind, ha]
  exact hf

theorem Performs.map {a : Procedure α} {m : Machine} {d : Dialogue (α × Machine)}
    (ha : Performs a m d) (g : α → β) :
    Performs (g <$> a) m (d.bind fun held => .done (g held.1, held.2)) := by
  rw [← bind_pure_comp]
  exact ha.bind fun x m' => performs_pure (g x) m'

/-- Look something up in the bare machine. -/
def query (f : Bare → Checked α) : Procedure α := ExceptT.mk fun bare => .done (f bare, bare)

/-- Change the bare machine, unless a check fails. -/
def change (f : Bare → Checked Bare) : Procedure Unit :=
  ExceptT.mk fun bare =>
    match f bare with
    | .ok bare' => .done (.ok (), bare')
    | .error panic => .done (.error panic, bare)

theorem performs_query {f : Bare → Checked α} {m : Machine} {x : α} (h : f (Bare.of m) = .ok x) :
    Performs (query f) m (.done (x, m)) := by
  show Dialogue.done (f (Bare.of m), Bare.of m) = _
  rw [h]
  rfl

theorem start_change (f : Bare → Checked Bare) (bare : Bare) :
    (change f).start bare =
      match f bare with
      | .ok bare' => .done (.ok (), bare')
      | .error panic => .done (.error panic, bare) := rfl

theorem performs_change {f : Bare → Checked Bare} {m m' : Machine}
    (h : f (Bare.of m) = .ok (Bare.of m')) : Performs (change f) m (.done ((), m')) := by
  unfold Performs
  rw [start_change, h]
  rfl

/-- Read a cell without any effect. -/
def peek (addr : Word) : Procedure Word := query fun bare => Checked.item bare.cells addr.toNat

def write (addr value : Word) : Procedure Unit :=
  change fun bare => do
    let cells ← Checked.setItem bare.cells addr.toNat value
    pure { bare with cells := cells }

/-- Ask the console for a key.  A failed read is the same as no key. -/
def askKey : Dialogue (Option UInt8) :=
  .keyAvailable fun available =>
    if available then .readChar fun answer => .done answer.toOption else .done none

/-- Store an asked key in the keyboard's cells. -/
def receive : Option UInt8 → Procedure Unit
  | some byte => do
      write 0xFE00 (← Checked.shiftLeft 1 15)
      write 0xFE02 byte.toUInt16
  | none => write 0xFE00 0

/-- Read a cell, after a poll if it is the keyboard's status cell. -/
def read (addr : Word) : Procedure Word := do
  if addr = 0xFE00 then
    receive (← say askKey)
  peek addr

def getRegister (r : Word) : Procedure Word :=
  query fun bare => Checked.item bare.general (r &&& 7).toNat

def setRegister (r value : Word) : Procedure Unit :=
  change fun bare => do
    let general ← Checked.setItem bare.general (r &&& 7).toNat value
    pure { bare with general := general }

/-- Take the condition from a register. -/
def updateFlags (r : Word) : Procedure Unit := do
  let value ← getRegister r
  change fun bare => pure { bare with condition := some (Condition.ofWord value) }

/-- Give a register a value and take the condition from it. -/
def assign (r value : Word) : Procedure Unit := do
  setRegister r value
  updateFlags r

/-- Whether the condition is one of those in the mask. -/
def selectedBy (mask : Word) : Procedure Bool :=
  query fun bare =>
    match bare.condition with
    | none => pure false
    | some condition => pure (condition.bit &&& mask != 0)

def pc : Procedure Word := query fun bare => pure bare.pc

def setPc (addr : Word) : Procedure Unit := change fun bare => pure { bare with pc := addr }

/-- The address at an offset from the program counter. -/
def relative (offset : Word) : Procedure Word := do
  pure ((← pc) + offset)

def operand : Operand → Procedure Word
  | .register r => getRegister r
  | .immediate value => pure value

def status : Procedure Status := query fun bare => pure bare.status

def stop : Procedure Unit := change fun bare => pure { bare with status := .halted }

section Operations

variable (m : Machine)

theorem performs_peek (addr : Word) : Performs (peek addr) m (.done (m.memory.peek addr, m)) :=
  performs_query (Checked.item_of_lt (by simp [addr.toNat_lt]))

theorem performs_write (addr value : Word) :
    Performs (write addr value) m (.done ((), m.write addr value)) := by
  have hset : Checked.setItem (Bare.of m).cells addr.toNat value =
      .ok (Bare.of (m.write addr value)).cells :=
    Checked.setItem_of_lt value (by simp [addr.toNat_lt])
  apply performs_change
  rw [hset]
  rfl

theorem performs_receive (key : Option UInt8) :
    Performs (receive key) m
      (.done ((), { m with memory := m.memory.receive (ArchState.pollOf key) })) := by
  cases key with
  | some byte =>
      exact (performs_check rfl m).next
        ((performs_write m 0xFE00 0x8000).next (performs_write _ 0xFE02 byte.toUInt16))
  | none => exact performs_write m 0xFE00 0

theorem ask_eq : KeyPoll.ask = askKey.bind fun key => .done (ArchState.pollOf key) := by
  refine congrArg Dialogue.keyAvailable (funext fun available => ?_)
  cases available with
  | false => rfl
  | true => exact congrArg Dialogue.readChar (funext fun answer => by cases answer <;> rfl)

/-- A cell is read as the machine reads it. -/
theorem performs_read (addr : Word) : Performs (read addr) m (m.read addr) := by
  unfold read
  by_cases h : addr = 0xFE00
  · have hask : m.read addr = (askKey.bind fun key => .done (key, m)).bind fun asked =>
        let memory := asked.2.memory.receive (ArchState.pollOf asked.1)
        .done (memory.peek addr, { asked.2 with memory := memory }) := by
      unfold Machine.read KeyPoll.before
      rw [if_pos (show addr = Memory.keyboardStatus from h), ask_eq, Dialogue.bind_eq,
        Dialogue.bind_assoc, Dialogue.bind_assoc]
      rfl
    rw [if_pos h, hask]
    exact (performs_say askKey m).bind fun key m' =>
      (performs_receive m' key).next (performs_peek _ addr)
  · rw [if_neg h, Machine.read_of_ne m addr h]
    exact performs_peek m addr

theorem toNat_and_seven (r : Word) : (r &&& 7).toNat = r.toNat % 8 := by
  rw [Word.toNat_and_seven]
  simp [Word.bits]

theorem performs_getRegister (r : Word) : Performs (getRegister r) m (.done (m.get r, m)) := by
  apply performs_query
  rw [toNat_and_seven, Checked.item_of_lt (by simp; omega)]
  rfl

theorem performs_setRegister (r value : Word) :
    Performs (setRegister r value) m (.done ((), m.set r value)) := by
  apply performs_change
  rw [toNat_and_seven, Checked.setItem_of_lt value (by simp; omega)]
  rfl

theorem performs_updateFlags (r : Word) :
    Performs (updateFlags r) m
      (.done ((), { m with registers := m.registers.setCondition r })) :=
  (performs_getRegister m r).next (performs_change rfl)

theorem performs_assign (r value : Word) :
    Performs (assign r value) m (.done ((), m.assign r value)) :=
  (performs_setRegister m r value).next (performs_updateFlags (m.set r value) r)

theorem performs_selectedBy (mask : Word) :
    Performs (selectedBy mask) m (.done (m.registers.selectedBy mask, m)) := by
  apply performs_query
  unfold Registers.selectedBy
  show (match m.registers.condition with | none => _ | some condition => _) = _
  cases m.registers.condition <;> rfl

theorem performs_pc : Performs pc m (.done (m.registers.pc, m)) := performs_query rfl

theorem performs_setPc (addr : Word) : Performs (setPc addr) m (.done ((), m.jump addr)) :=
  performs_change rfl

theorem performs_relative (offset : Word) :
    Performs (relative offset) m (.done (m.relative offset, m)) :=
  (performs_pc m).next (performs_pure _ m)

theorem performs_operand (operand : Operand) :
    Performs (Procedure.operand operand) m (.done (m.operand operand, m)) := by
  cases operand with
  | register r => exact performs_getRegister m r
  | immediate value => exact performs_pure value m

theorem performs_status : Performs status m (.done (m.status, m)) := performs_query rfl

theorem performs_stop : Performs stop m (.done ((), m.stop)) := performs_change rfl

end Operations

end Procedure

end Lc3
