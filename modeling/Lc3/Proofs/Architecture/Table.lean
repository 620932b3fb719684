import Lc3.Console.Buffer
import Lc3.Proofs.Architecture.State

/-!
# The instruction table

The semantics of the thirteen instructions that only touch the architectural
state, written over the bits of the fetched word with integer arithmetic.  The
main result is that a step of the machine applies exactly the word's row of the
table, after the fetch and over every console.
-/

namespace Lc3

namespace ArchState

variable {σ : Type}

/-- The address at an integer distance from the program counter. -/
def relative (s : ArchState σ) (offset : Int) : Word := UInt16.ofInt (s.pc.toNat + offset)

/-- The address at an integer distance from a register's value. -/
def based (s : ArchState σ) (base : Fin 8) (offset : Int) : Word :=
  UInt16.ofInt ((s.register base).toNat + offset)

/-- The second operand of `ADD` and `AND`: an immediate in mode 1, else the
value of a register. -/
def operand (s : ArchState σ) (w : Word) : Int :=
  if w.bits 5 5 = 1 then w.signedBits 5 else (s.register (w.registerAt 0)).toNat

/-- A branch is taken if a condition is set and its bit is set in the word. -/
def branches (s : ArchState σ) (w : Word) : Bool :=
  match s.condition with
  | none => false
  | some condition => w.bits condition.maskBit condition.maskBit = 1

variable [Console σ]

/-- The table's row for a word, applied after the program counter was moved. -/
def row (s : ArchState σ) (w : Word) : ArchState σ :=
  let dr := w.registerAt 9
  let base := w.registerAt 6
  let near := s.relative (w.signedBits 9)
  match w.bits 15 12 with
  | 0x0 => if s.branches w then s.goto near else s
  | 0x1 => s.define dr (UInt16.ofInt ((s.register base).toNat + s.operand w))
  | 0x2 => (s.load near).2.define dr (s.load near).1
  | 0x3 => s.store near (s.register dr)
  | 0x4 => s.link (if w.bits 11 11 = 1 then s.relative (w.signedBits 11) else s.register base)
  | 0x5 => s.define dr (s.register base &&& UInt16.ofInt (s.operand w))
  | 0x6 =>
      let value := s.load (s.based base (w.signedBits 6))
      value.2.define dr value.1
  | 0x7 => s.store (s.based base (w.signedBits 6)) (s.register dr)
  | 0x9 => s.define dr (~~~ s.register base)
  | 0xA =>
      let pointer := s.load near
      let value := pointer.2.load pointer.1
      value.2.define dr value.1
  | 0xB =>
      let pointer := s.load near
      pointer.2.store pointer.1 (s.register dr)
  | 0xC => s.goto (s.register base)
  | 0xE => s.define dr near
  -- `TRAP`, `RTI` and `RES` are not rows of the table
  | _ => s

end ArchState

namespace Word

/-- The word's operation has a row in the table. -/
def HasRow (w : Word) : Prop :=
  w.bits 15 12 ≠ 0x8 ∧ w.bits 15 12 ≠ 0xD ∧ w.bits 15 12 ≠ 0xF

end Word

namespace Machine

open ArchState

variable {σ : Type}

/-- The address at an encoded offset from the program counter. -/
theorem relative_of (m : Machine) (console : σ) (w : Word) {width : Nat} (hpos : 0 < width)
    (hle : width ≤ 15) :
    m.relative (Word.signExtend width w) = (of m console).relative (w.signedBits width) :=
  Word.add_signExtend m.registers.pc w hpos hle

theorem get_upperField (m : Machine) (console : σ) (w : Word) :
    m.get (Instruction.upperField w) = (of m console).register (w.registerAt 9) :=
  get_eq_register m console (Instruction.toNat_upperField w)

theorem get_middleField (m : Machine) (console : σ) (w : Word) :
    m.get (Instruction.middleField w) = (of m console).register (w.registerAt 6) :=
  get_eq_register m console (Instruction.toNat_middleField w)

theorem of_assign_upperField (m : Machine) (console : σ) (w value : Word) :
    of (m.assign (Instruction.upperField w) value) console =
      (of m console).define (w.registerAt 9) value :=
  of_assign m value console (Instruction.toNat_upperField w)

/-- The address at an encoded offset from a base register. -/
theorem based_of (m : Machine) (console : σ) (w : Word) :
    m.get (Instruction.middleField w) + Word.signExtend 6 w =
      (of m console).based (w.registerAt 6) (w.signedBits 6) := by
  rw [get_middleField m console, Word.add_signExtend _ _ (by omega) (by omega)]
  rfl

/-- The decoded second operand is the table's, modulo 65536. -/
theorem operand_of (m : Machine) (console : σ) (w : Word) :
    m.operand (Instruction.secondOperand w) = UInt16.ofInt ((of m console).operand w) := by
  have hbit := w.and_operandMode_iff
  have hlt := w.bits_single_lt 5
  unfold Instruction.secondOperand ArchState.operand
  by_cases h : w.bits 5 5 = 1
  · rw [if_neg (by rw [hbit]; omega), if_pos h]
    exact Word.signExtend_eq_ofInt w (by omega) (by omega)
  · rw [if_pos (by rw [hbit]; omega), if_neg h, Word.ofInt_toNat]
    exact get_eq_register m console (Word.toNat_and_seven w)

theorem selectedBy_of (m : Machine) (console : σ) (w : Word) :
    m.registers.selectedBy (Instruction.upperField w) = (of m console).branches w := by
  unfold Registers.selectedBy branches
  show _ = match m.registers.condition with | none => _ | some condition => _
  cases m.registers.condition with
  | none => rfl
  | some condition => exact Condition.bit_and_upperField condition w

variable [Console σ]

/-- An execution goes on without a fault and ends in this architectural state. -/
def Realizes (d : Dialogue Execution) (console : σ) (s : ArchState σ) : Prop :=
  ∃ m console', d.hold console = (m.proceed, console') ∧ of m console' = s

theorem realizes_pure {m : Machine} {console : σ} {s : ArchState σ} (h : of m console = s) :
    Realizes (pure m.proceed) console s :=
  ⟨m, console, rfl, h⟩

/-- An execution that begins with a mapped read goes on from what was read. -/
theorem realizes_read {m : Machine} {console : σ} {addr : Word} {s : ArchState σ}
    {next : Word × Machine → Dialogue Execution}
    (h : ∀ m' console', of m' console' = ((of m console).load addr).2 →
      Realizes (next (((of m console).load addr).1, m')) console' s) :
    Realizes (m.read addr >>= next) console s := by
  have hload := load_of m addr console
  rw [hload] at h
  unfold Realizes
  rw [Dialogue.bind_eq, Dialogue.hold_bind]
  exact h _ _ rfl

/-- A loaded value ends up in the destination register. -/
theorem realizes_load (m : Machine) (console : σ) (w addr : Word) :
    Realizes
      (m.read addr >>= fun read => pure (read.2.assign (Instruction.upperField w) read.1).proceed)
      console
      (((of m console).load addr).2.define (w.registerAt 9) ((of m console).load addr).1) := by
  apply realizes_read
  intro m' console' hm'
  apply realizes_pure
  rw [of_assign_upperField, hm']

theorem execute_realizes_row (m : Machine) (console : σ) (addr w : Word) (hrow : w.HasRow) :
    Realizes (m.execute addr w (Instruction.decode w)) console ((of m console).row w) := by
  have hnibble := Opcode.nibble_ofWord w
  have hnear := relative_of m console w (show 0 < 9 by omega) (show 9 ≤ 15 by omega)
  unfold Instruction.decode ArchState.row
  cases hop : Opcode.ofWord w <;> rw [hop] at hnibble <;> rw [← hnibble]
  case br =>
    apply realizes_pure
    rw [selectedBy_of m console]
    split
    · rw [of_jump, hnear]
      rfl
    · rfl
  case add =>
    apply realizes_pure
    rw [of_assign_upperField, get_middleField m console, operand_of m console,
      ← Word.ofInt_toNat ((of m console).register _), ← UInt16.ofInt_add]
    rfl
  case ld =>
    show Realizes (m.read _ >>= _) console _
    rw [hnear]
    exact realizes_load m console w _
  case st =>
    apply realizes_pure
    rw [of_write, hnear, get_upperField m console]
    rfl
  case jsr =>
    have hbit := w.and_callMode_iff
    have hlt := w.bits_single_lt 11
    -- the target is computed before R7 is written, in both modes
    by_cases h : w &&& 0x800 = 0
    · have hclear : ¬ w.bits 11 11 = 1 := by rw [hbit] at h; omega
      rw [if_pos h]
      apply realizes_pure
      rw [of_call, get_middleField m console]
      simp only [hclear, if_false]
      rfl
    · have hset : w.bits 11 11 = 1 := by rw [hbit] at h; omega
      rw [if_neg h]
      apply realizes_pure
      rw [of_call, relative_of m console w (by omega) (by omega)]
      simp only [hset, if_true]
      rfl
  case and =>
    apply realizes_pure
    rw [of_assign_upperField, get_middleField m console, operand_of m console]
    rfl
  case ldr =>
    show Realizes (m.read _ >>= _) console _
    rw [based_of m console]
    exact realizes_load m console w _
  case str =>
    apply realizes_pure
    rw [of_write, based_of m console, get_upperField m console]
    rfl
  case not =>
    apply realizes_pure
    rw [of_assign_upperField, get_middleField m console]
    rfl
  case ldi =>
    show Realizes (m.read _ >>= _) console _
    rw [hnear]
    apply realizes_read
    intro m' console' hm'
    -- the second read polls the console that the first one has left
    have hload := realizes_load m' console' w
      ((of m console).load ((of m console).relative (w.signedBits 9))).1
    rw [hm'] at hload
    exact hload
  case sti =>
    show Realizes (m.read _ >>= _) console _
    rw [hnear]
    apply realizes_read
    intro m' console' hm'
    apply realizes_pure
    -- the stored register is read after the pointer, which leaves it alone
    rw [of_write, hm', get_upperField m' console', hm', load_register]
    rfl
  case jmp =>
    apply realizes_pure
    rw [of_jump, get_middleField m console]
    rfl
  case lea =>
    apply realizes_pure
    rw [of_assign_upperField, hnear]
    rfl
  -- the operations that have no row
  case rti => exact absurd hnibble.symm hrow.1
  case res => exact absurd hnibble.symm hrow.2.1
  case trap => exact absurd hnibble.symm hrow.2.2

end Machine

namespace ArchState

variable {σ : Type} [Console σ]

/-- No row of the table stops the machine. -/
theorem row_status (s : ArchState σ) (w : Word) : (s.row w).status = s.status := by
  unfold row
  dsimp only
  split <;> first | rfl | skip
  case h_1 => split <;> rfl
  all_goals simp only [define, store, load_status]

end ArchState

namespace Machine

open ArchState

variable {σ : Type} [Console σ]

/-- A step at a word of the table goes on without a fault. -/
theorem hold_step_of_hasRow (m : Machine) (console : σ) (hrunning : m.status = .running)
    (hrow : (of m console).fetch.1.HasRow) :
    ∃ m' console' record, m.step.hold console = (settle record m'.proceed, console') ∧
      m'.status = .running ∧
      of m' console' = (of m console).fetch.2.row (of m console).fetch.1 := by
  have hstatus : (of m console).fetch.2.status = .running := by
    unfold ArchState.fetch
    exact (load_status _ _).trans hrunning
  rw [fetch_of] at hrow hstatus ⊢
  obtain ⟨m', console', hexecute, hstate⟩ :=
    execute_realizes_row (m.fetch.hold console).1.2 (m.fetch.hold console).2
      m.registers.pc (m.fetch.hold console).1.1 hrow
  have hrunning' : m'.status = .running := by
    have hrowStatus := congrArg ArchState.status hstate
    rw [row_status] at hrowStatus
    exact hrowStatus.trans hstatus
  refine ⟨m', console', .executing m.registers.pc (m.fetch.hold console).1.1, ?_, hrunning', hstate⟩
  rw [step_running m hrunning, Dialogue.hold_bind, Dialogue.hold_bind, hexecute]
  rfl

theorem step_result_of_hasRow (m : Machine) (console : σ) (hrunning : m.status = .running)
    (hrow : (of m console).fetch.1.HasRow) :
    (m.step.hold console).1.result = .ok .running := by
  obtain ⟨m', console', record, hstep, hrunning', -⟩ := hold_step_of_hasRow m console hrunning hrow
  rw [hstep]
  exact congrArg Except.ok hrunning'

theorem of_step_of_hasRow (m : Machine) (console : σ) (hrunning : m.status = .running)
    (hrow : (of m console).fetch.1.HasRow) :
    of (m.step.hold console).1.machine (m.step.hold console).2 =
      (of m console).fetch.2.row (of m console).fetch.1 := by
  obtain ⟨m', console', record, hstep, -, hstate⟩ := hold_step_of_hasRow m console hrunning hrow
  rw [hstep]
  exact hstate

/-- A step of a running machine applies the row of the fetched word to the
state after the fetch, and the machine goes on. -/
theorem step_applies_row (m : Machine) (console : σ) (hrunning : m.status = .running)
    (hrow : (of m console).fetch.1.HasRow) :
    (m.step.hold console).1.result = .ok .running ∧
      of (m.step.hold console).1.machine (m.step.hold console).2 =
        (of m console).fetch.2.row (of m console).fetch.1 :=
  ⟨step_result_of_hasRow m console hrunning hrow, of_step_of_hasRow m console hrunning hrow⟩

/-- A machine about to load the keyboard's status through a pointer. -/
def pollingMachine : Machine :=
  { initial with memory := (Memory.blank.write 0x3000 0xA001).write 0x3002 0xFE00 }

theorem step_applies_row_pollingMachine :
    let console := Buffer.ofInput [0x6B]
    (of pollingMachine console).fetch.1 = 0xA001 ∧
      (pollingMachine.step.hold console).1.result = .ok .running ∧
      of (pollingMachine.step.hold console).1.machine (pollingMachine.step.hold console).2 =
        (of pollingMachine console).fetch.2.row 0xA001 := by
  intro console
  have hword : (of pollingMachine console).fetch.1 = 0xA001 := by
    show pollingMachine.memory.peek 0x3000 = 0xA001
    unfold pollingMachine
    rw [Memory.peek_write_of_ne _ _ (by decide), Memory.peek_write_self]
  have hrow : (of pollingMachine console).fetch.1.HasRow := by
    rw [hword]
    exact ⟨by decide, by decide, by decide⟩
  have happlied := step_applies_row pollingMachine console rfl hrow
  rw [hword] at happlied
  exact ⟨hword, happlied⟩

end Machine

end Lc3
