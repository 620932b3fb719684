import Lc3.Console.Device
import Lc3.Machine.Step
import Lc3.Proofs.Word.Field

/-!
# The architectural state

What an instruction set manual speaks about: registers, condition code, cells
and status as plain functions and values, with the console that answers key
polls.  Every operation of the machine is one change of this state, and each
change names all that it touches.
-/

namespace Lc3

/-- The state that the instruction table is written about. -/
structure ArchState (σ : Type) where
  register : Fin 8 → Word
  pc : Word
  condition : Option Condition
  cell : Word → Word
  status : Status
  console : σ

namespace ArchState

/-- R0, which hands values to trap routines and back. -/
abbrev r0 : Fin 8 := 0

/-- R7, which keeps return addresses. -/
abbrev r7 : Fin 8 := 7

variable {σ : Type}

/-- The architectural state of a machine at a console. -/
def of (m : Machine) (console : σ) : ArchState σ where
  register r := m.registers.general[r]
  pc := m.registers.pc
  condition := m.registers.condition
  cell := m.memory.peek
  status := m.status
  console := console

/-- Give a register a value and set the condition code to the value's sign. -/
def define (s : ArchState σ) (r : Fin 8) (value : Word) : ArchState σ :=
  { s with
    register := Function.update s.register r value
    condition := some (Condition.ofInt value.toInt) }

/-- Give a cell a value. -/
def store (s : ArchState σ) (addr value : Word) : ArchState σ :=
  { s with cell := Function.update s.cell addr value }

/-- Move the program counter. -/
def goto (s : ArchState σ) (addr : Word) : ArchState σ := { s with pc := addr }

/-- Jump and keep the old program counter in R7. -/
def link (s : ArchState σ) (target : Word) : ArchState σ :=
  { s with
    register := Function.update s.register r7 s.pc
    pc := target }

/-- The keyboard's cells after a key poll. -/
def receive (s : ArchState σ) : Option UInt8 → ArchState σ
  | some byte => (s.store 0xFE00 0x8000).store 0xFE02 byte.toUInt16
  | none => s.store 0xFE00 0

section Keyboard

variable [Console σ]

/-- Ask the console for a key.  A failed read gives none. -/
def askKey (console : σ) : Option UInt8 × σ :=
  let (available, console) := Console.keyAvailable console
  if available then
    match Console.readChar console with
    | (.ok byte, console) => (some byte, console)
    | (.error _, console) => (none, console)
  else (none, console)

/-- Read a cell.  The keyboard's status cell is set by a key poll first. -/
def load (s : ArchState σ) (addr : Word) : Word × ArchState σ :=
  if addr = 0xFE00 then
    let asked := askKey s.console
    (if asked.1.isSome then 0x8000 else 0, { s with console := asked.2 }.receive asked.1)
  else (s.cell addr, s)

/-- Read the word at the program counter and move on to the next address. -/
def fetch (s : ArchState σ) : Word × ArchState σ :=
  let loaded := s.load s.pc
  (loaded.1, loaded.2.goto (UInt16.ofInt (s.pc.toNat + 1)))

end Keyboard

theorem of_memory (m : Machine) (memory : Memory) (console : σ) :
    of { m with memory := memory } console = { of m console with cell := memory.peek } := rfl

theorem peek_write_eq_update (memory : Memory) (addr value : Word) :
    (memory.write addr value).peek = Function.update memory.peek addr value := by
  funext other
  rw [Memory.peek_write, Function.update_apply]
  simp only [eq_comm]

theorem of_write (m : Machine) (addr value : Word) (console : σ) :
    of (m.write addr value) console = (of m console).store addr value := by
  unfold Machine.write
  rw [of_memory, peek_write_eq_update]
  rfl

theorem of_jump (m : Machine) (addr : Word) (console : σ) :
    of (m.jump addr) console = (of m console).goto addr := rfl

theorem of_stop (m : Machine) (console : σ) :
    of m.stop console = { of m console with status := .halted } := rfl

/-- Register numbers name the registers of the architectural state. -/
theorem get_eq_register (m : Machine) (console : σ) {number : Word} {r : Fin 8}
    (h : number.toNat = r) : m.get number = (of m console).register r := by
  have hmod : number.toNat % 8 = r := by omega
  unfold Machine.get Registers.get of
  simp only [hmod, Fin.getElem_fin]

theorem of_set (m : Machine) (value : Word) (console : σ) {number : Word} {r : Fin 8}
    (h : number.toNat = r) :
    of (m.set number value) console =
      { of m console with register := Function.update (of m console).register r value } := by
  have hmod : number.toNat % 8 = r := by omega
  unfold of
  congr 1
  funext other
  rw [Function.update_apply]
  show (m.registers.general.set (number.toNat % 8) value)[other.val] = _
  rw [Vector.getElem_set]
  simp only [hmod, Fin.val_inj, eq_comm, Fin.getElem_fin]

theorem of_assign (m : Machine) (value : Word) (console : σ) {number : Word} {r : Fin 8}
    (h : number.toNat = r) :
    of (m.assign number value) console = (of m console).define r value := by
  have hset := of_set m value console h
  have hcondition : (m.assign number value).registers.condition =
      some (Condition.ofInt value.toInt) := by
    show some (Condition.ofWord ((m.registers.set number value).get number)) = _
    rw [Registers.get_set_self, Condition.ofWord_eq_ofInt]
  calc of (m.assign number value) console
      = { of (m.set number value) console with
          condition := (m.assign number value).registers.condition } := rfl
    _ = (of m console).define r value := by rw [hset, hcondition]; rfl

theorem of_call (m : Machine) (target : Word) (console : σ) :
    of (m.call target) console = (of m console).link target := by
  unfold Machine.call
  rw [of_jump, of_set m _ console (r := 7) rfl]
  rfl

/-- What the machine keeps of an asked key. -/
def pollOf : Option UInt8 → KeyPoll
  | some byte => .key byte
  | none => .noKey

theorem peek_receive_eq (memory : Memory) (key : Option UInt8) :
    (memory.receive (pollOf key)).peek =
      match key with
      | some byte =>
          Function.update (Function.update memory.peek 0xFE00 0x8000) 0xFE02 byte.toUInt16
      | none => Function.update memory.peek 0xFE00 0 := by
  cases key with
  | none => exact peek_write_eq_update memory _ _
  | some byte =>
      show ((memory.write _ _).write _ _).peek = _
      rw [peek_write_eq_update, peek_write_eq_update]
      rfl

theorem of_receive (m : Machine) (key : Option UInt8) (console : σ) :
    of { m with memory := m.memory.receive (pollOf key) } console =
      (of m console).receive key := by
  rw [of_memory, peek_receive_eq]
  cases key <;> rfl

theorem peek_receive (memory : Memory) (key : Option UInt8) :
    (memory.receive (pollOf key)).peek 0xFE00 = if key.isSome then 0x8000 else 0 := by
  rw [peek_receive_eq]
  cases key with
  | none => exact Function.update_self _ _ _
  | some byte =>
      -- the key itself is stored after the status, in another cell
      show Function.update (Function.update _ _ _) _ _ _ = _
      rw [Function.update_of_ne (by decide), Function.update_self]
      rfl

theorem fetch_of_ne (m : Machine) (h : m.registers.pc ≠ 0xFE00) :
    m.fetch = .done (m.memory.peek m.registers.pc, m.jump (m.registers.pc + 1)) := by
  show (m.read m.registers.pc >>= fun read => pure (read.1, read.2.jump _)) = _
  rw [Machine.read_of_ne m _ h]
  rfl

section Keyboard

variable [Console σ]

theorem load_of_ne (s : ArchState σ) {addr : Word} (h : addr ≠ 0xFE00) :
    s.load addr = (s.cell addr, s) := if_neg h

theorem load_keyboardStatus (s : ArchState σ) :
    s.load 0xFE00 =
      (if (askKey s.console).1.isSome then 0x8000 else 0,
        { s with console := (askKey s.console).2 }.receive (askKey s.console).1) := rfl

/-- Reading a cell leaves registers, condition code and status alone. -/
theorem load_eq (s : ArchState σ) (addr : Word) :
    (s.load addr).2 =
      { s with
        cell := (s.load addr).2.cell
        console := (s.load addr).2.console } := by
  by_cases h : addr = 0xFE00
  · subst h
    rw [load_keyboardStatus]
    cases (askKey s.console).1 <;> rfl
  · rw [load_of_ne s h]

@[simp] theorem load_register (s : ArchState σ) (addr : Word) :
    (s.load addr).2.register = s.register := by rw [load_eq]

@[simp] theorem load_pc (s : ArchState σ) (addr : Word) : (s.load addr).2.pc = s.pc := by
  rw [load_eq]

@[simp] theorem load_condition (s : ArchState σ) (addr : Word) :
    (s.load addr).2.condition = s.condition := by rw [load_eq]

@[simp] theorem load_status (s : ArchState σ) (addr : Word) :
    (s.load addr).2.status = s.status := by rw [load_eq]

/-- Reading changes at most the keyboard's cells, and only at its status cell. -/
theorem load_cell (s : ArchState σ) (addr other : Word)
    (hother : addr = 0xFE00 → other ≠ 0xFE00 ∧ other ≠ 0xFE02) :
    (s.load addr).2.cell other = s.cell other := by
  by_cases h : addr = 0xFE00
  · obtain ⟨hstatus, hdata⟩ := hother h
    subst h
    rw [load_keyboardStatus]
    cases (askKey s.console).1 with
    | some byte =>
        show Function.update (Function.update s.cell _ _) _ _ other = _
        rw [Function.update_of_ne hdata, Function.update_of_ne hstatus]
    | none =>
        show Function.update s.cell _ _ other = _
        rw [Function.update_of_ne hstatus]
  · rw [load_of_ne s h]

theorem hold_ask (console : σ) :
    KeyPoll.ask.hold console = (pollOf (askKey console).1, (askKey console).2) := by
  unfold askKey KeyPoll.ask Dialogue.hold
  rcases Console.keyAvailable console with ⟨_ | _, console'⟩
  · rfl
  · simp only [if_true]
    unfold Dialogue.hold
    rcases Console.readChar console' with ⟨_ | byte, console''⟩ <;> rfl

/-- Reading a cell of the machine reads the cell of its architectural state. -/
theorem load_of (m : Machine) (addr : Word) (console : σ) :
    (of m console).load addr =
      (((m.read addr).hold console).1.1,
        of ((m.read addr).hold console).1.2 ((m.read addr).hold console).2) := by
  by_cases h : addr = Memory.keyboardStatus
  · subst h
    have hread : (m.read Memory.keyboardStatus).hold console =
        let memory := m.memory.receive (KeyPoll.ask.hold console).1
        ((memory.peek Memory.keyboardStatus, { m with memory := memory }),
          (KeyPoll.ask.hold console).2) := by
      unfold Machine.read KeyPoll.before
      rw [if_pos rfl, Dialogue.bind_eq, Dialogue.hold_bind]
      rfl
    rw [hread, hold_ask]
    -- the cell is read after the key was stored, as the poll has left it
    show _ = (Memory.peek _ 0xFE00, of { m with memory := m.memory.receive (pollOf _) } _)
    rw [of_receive, peek_receive]
    exact load_keyboardStatus (of m console)
  · rw [Machine.read_of_ne m addr h, load_of_ne _ h]
    rfl

theorem transcript_read (m : Machine) (addr : Word) (console : σ) :
    (m.read addr).transcript console = (KeyPoll.before addr).transcript console := by
  unfold Machine.read
  rw [Dialogue.bind_eq, Dialogue.transcript_bind]
  exact List.append_nil _

theorem transcript_fetch (m : Machine) (console : σ) :
    m.fetch.transcript console = (KeyPoll.before m.registers.pc).transcript console := by
  rw [← transcript_read m]
  unfold Machine.fetch
  rw [Dialogue.bind_eq, Dialogue.transcript_bind]
  exact List.append_nil _

/-- Fetching goes through the program counter and moves past it. -/
theorem fetch_of (m : Machine) (console : σ) :
    (of m console).fetch =
      ((m.fetch.hold console).1.1, of (m.fetch.hold console).1.2 (m.fetch.hold console).2) := by
  have hload := load_of m m.registers.pc console
  have hfetch : m.fetch.hold console =
      let read := (m.read m.registers.pc).hold console
      ((read.1.1, read.1.2.jump (m.registers.pc + 1)), read.2) := by
    unfold Machine.fetch
    rw [Dialogue.bind_eq, Dialogue.hold_bind]
    rfl
  have hnext : UInt16.ofInt (m.registers.pc.toNat + 1) = m.registers.pc + 1 :=
    (Word.add_eq_ofInt m.registers.pc 1).symm
  rw [hfetch]
  unfold fetch
  show (((of m console).load m.registers.pc).1,
    ((of m console).load m.registers.pc).2.goto (UInt16.ofInt (m.registers.pc.toNat + 1))) = _
  rw [hload, hnext]
  rfl

end Keyboard

end ArchState

end Lc3
