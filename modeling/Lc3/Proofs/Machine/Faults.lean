import Lc3.Console.Scripted
import Lc3.Proofs.Architecture.Table
import Lc3.Proofs.Machine.Trap

/-!
# Faults

Which fault the fetched word raises is decided by its bits and by the first
failing console call of its trap routine.  The main result is that a step fails
exactly with the raised fault and leaves everything but the status as the fetch
has left it.
-/

namespace Lc3

/-- The fault raised by executing the word fetched from `addr`, where `calls`
are the console calls of the execution. -/
inductive Word.Raises (w addr : Word) (calls : List ConsoleCall) : Fault → Prop
  | rti (hop : w.bits 15 12 = 0x8) : Raises w addr calls (.reservedOpcode .rti w addr)
  | res (hop : w.bits 15 12 = 0xD) : Raises w addr calls (.reservedOpcode .res w addr)
  | unknownTrap (vector : UInt8) (hop : w.bits 15 12 = 0xF)
      (hvector : vector.toNat = w.bits 7 0)
      (hunknown : w.bits 7 0 < 0x20 ∨ 0x25 < w.bits 7 0) :
      Raises w addr calls (.unknownTrap vector addr)
  | console (routine : TrapRoutine) (cause : ConsoleError) (hop : w.bits 15 12 = 0xF)
      (hvector : routine.vector.toNat = w.bits 7 0) (hcause : firstFailure calls = some cause) :
      Raises w addr calls (.console routine addr cause)

theorem Word.Raises.not_hasRow {w addr : Word} {calls : List ConsoleCall} {fault : Fault}
    (h : w.Raises addr calls fault) : ¬ w.HasRow := by
  rintro ⟨hrti, hres, htrap⟩
  cases h <;> contradiction

namespace Machine

open ArchState

variable {σ : Type} [Console σ]

/-- All that the execution of a word can be: a row of the table, a reserved
operation or a trap. -/
theorem execute_cases (m : Machine) (addr w : Word) (console : σ) :
    (w.HasRow ∧
      Realizes (m.execute addr w (Instruction.decode w)) console ((of m console).row w)) ∨
    (w.bits 15 12 = 0x8 ∧ m.execute addr w (Instruction.decode w) =
      .done (m.raise (.reservedOpcode .rti w addr))) ∨
    (w.bits 15 12 = 0xD ∧ m.execute addr w (Instruction.decode w) =
      .done (m.raise (.reservedOpcode .res w addr))) ∨
    (w.bits 15 12 = 0xF ∧ m.execute addr w (Instruction.decode w) = m.trap addr w.lowByte) := by
  by_cases hrow : w.HasRow
  · exact Or.inl ⟨hrow, execute_realizes_row m console addr w hrow⟩
  · refine Or.inr ?_
    have hnibble := Opcode.nibble_ofWord w
    unfold Word.HasRow at hrow
    unfold Instruction.decode
    cases hop : Opcode.ofWord w <;> rw [hop] at hnibble
    case rti => exact Or.inl ⟨hnibble.symm, rfl⟩
    case res => exact Or.inr (Or.inl ⟨hnibble.symm, rfl⟩)
    case trap => exact Or.inr (Or.inr ⟨hnibble.symm, rfl⟩)
    -- every other operation has a row
    all_goals exact absurd (by rw [← hnibble]; decide) hrow

/-- An execution ends in a fault exactly if its word raises the fault. -/
theorem execute_fault_iff (m : Machine) (addr w : Word) (console : σ) (fault : Fault) :
    ((m.execute addr w (Instruction.decode w)).hold console).1.fault = some fault ↔
      w.Raises addr ((m.execute addr w (Instruction.decode w)).transcript console) fault := by
  rcases execute_cases m addr w console with
    ⟨hrow, m', console', hexecute, -⟩ | ⟨hop, hexecute⟩ | ⟨hop, hexecute⟩ | ⟨hop, hexecute⟩
  · rw [hexecute]
    exact iff_of_false (by simp [proceed]) fun h => h.not_hasRow hrow
  · rw [hexecute]
    constructor
    · intro h
      cases h
      exact .rti hop
    · intro h
      cases h with
      | rti => rfl
      | res hother | unknownTrap _ hother | console _ _ hother => rw [hop] at hother; omega
  · rw [hexecute]
    constructor
    · intro h
      cases h
      exact .res hop
    · intro h
      cases h with
      | res => rfl
      | rti hother | unknownTrap _ hother | console _ _ hother => rw [hop] at hother; omega
  · -- the low byte of the word is the vector on both sides
    have hbyte : ∀ vector : UInt8, vector.toNat = w.bits 7 0 ↔ w.lowByte = vector := by
      intro vector
      rw [← Word.toNat_lowByte, UInt8.toNat_inj, eq_comm]
    rw [hexecute, trap_fault_iff, TrapRoutine.ofVector?_eq_none_iff, Word.toNat_lowByte]
    constructor
    · rintro (⟨hunknown, rfl⟩ | ⟨routine, cause, hvector, hcause, rfl⟩)
      · exact .unknownTrap _ hop (Word.toNat_lowByte w) hunknown
      · rw [TrapRoutine.ofVector?_eq_some_iff, ← hbyte] at hvector
        exact .console routine cause hop hvector hcause
    · intro h
      cases h with
      | rti hother | res hother => rw [hop] at hother; omega
      | unknownTrap vector _ hvector hunknown =>
          rw [hbyte] at hvector
          exact Or.inl ⟨hunknown, by rw [hvector]⟩
      | console routine cause _ hvector hcause =>
          rw [hbyte, ← TrapRoutine.ofVector?_eq_some_iff] at hvector
          exact Or.inr ⟨routine, cause, hvector, hcause, rfl⟩

/-- A faulting execution leaves the machine as it was. -/
theorem execute_machine_of_fault (m : Machine) (addr w : Word) (console : σ)
    (h : ((m.execute addr w (Instruction.decode w)).hold console).1.fault ≠ none) :
    ((m.execute addr w (Instruction.decode w)).hold console).1.machine = m := by
  rcases execute_cases m addr w console with
    ⟨-, m', console', hexecute, -⟩ | ⟨-, hexecute⟩ | ⟨-, hexecute⟩ | ⟨-, hexecute⟩ <;>
    rw [hexecute] at h ⊢
  · exact absurd rfl h
  · rfl
  · rfl
  · exact trap_machine_of_fault m addr w.lowByte console h

/-- The calls of a step are those of the fetch and those of the execution. -/
theorem transcript_step (m : Machine) (console : σ) (hrunning : m.status = .running) :
    let fetched := m.fetch.hold console
    m.step.transcript console =
      m.fetch.transcript console ++
        (fetched.1.2.execute m.registers.pc fetched.1.1
          (Instruction.decode fetched.1.1)).transcript fetched.2 := by
  rw [step_running m hrunning, Dialogue.transcript_bind, Dialogue.transcript_bind]
  exact congrArg _ (List.append_nil _)

theorem hold_step (m : Machine) (console : σ) (hrunning : m.status = .running) :
    let fetched := m.fetch.hold console
    let executed := (fetched.1.2.execute m.registers.pc fetched.1.1
      (Instruction.decode fetched.1.1)).hold fetched.2
    m.step.hold console =
      (settle (.executing m.registers.pc fetched.1.1) executed.1, executed.2) := by
  rw [step_running m hrunning, Dialogue.hold_bind, Dialogue.hold_bind]
  rfl

theorem settle_result_error_iff (record : Record) (execution : Execution) (fault : Fault) :
    (settle record execution).result = .error fault ↔ execution.fault = some fault := by
  rcases execution with ⟨m, _ | raised⟩
  · exact iff_of_false (fun h => by cases h) (fun h => by cases h)
  · show Except.error raised = .error fault ↔ _
    simp

theorem settle_machine_of_fault (record : Record) (execution : Execution)
    (h : execution.fault ≠ none) :
    (settle record execution).machine = execution.machine.stop := by
  rcases execution with ⟨m, _ | raised⟩
  · exact absurd rfl h
  · rfl

/-- A key poll with a failing call has found no key. -/
theorem askKey_of_failure (console : σ)
    (h : firstFailure (KeyPoll.ask.transcript console) ≠ none) : (askKey console).1 = none := by
  unfold KeyPoll.ask Dialogue.transcript at h
  unfold askKey
  generalize Console.keyAvailable console = available at h ⊢
  rcases available with ⟨_ | _, console'⟩
  · rfl
  · simp only [if_true] at h ⊢
    unfold Dialogue.transcript at h
    generalize Console.readChar console' = answer at h ⊢
    rcases answer with ⟨cause | byte, console''⟩
    · rfl
    -- a poll that has read a key has no failing call
    · exact absurd rfl h

/-- A fetch with a failing call gives the word of a branch that is never taken. -/
theorem fetch_word_of_failure (m : Machine) (console : σ)
    (h : firstFailure (m.fetch.transcript console) ≠ none) : (of m console).fetch.1 = 0 := by
  rw [transcript_fetch] at h
  unfold KeyPoll.before at h
  by_cases hpc : m.registers.pc = Memory.keyboardStatus
  · rw [if_pos hpc] at h
    have hnone := askKey_of_failure console h
    show ((of m console).load m.registers.pc).1 = 0
    rw [hpc]
    show (if (askKey console).1.isSome then 0x8000 else 0) = (0 : Word)
    rw [hnone]
    rfl
  · rw [if_neg hpc] at h
    exact absurd rfl h

/-- The result of a step is decided by the word that was fetched and by the calls
of its execution. -/
theorem step_result_error_iff (m : Machine) (console : σ) (hrunning : m.status = .running)
    (fault : Fault) :
    let fetched := m.fetch.hold console
    (m.step.hold console).1.result = .error fault ↔
      (of m console).fetch.1.Raises m.registers.pc
        ((fetched.1.2.execute m.registers.pc fetched.1.1
          (Instruction.decode fetched.1.1)).transcript fetched.2) fault := by
  have hword : (of m console).fetch.1 = (m.fetch.hold console).1.1 :=
    congrArg Prod.fst (fetch_of m console)
  rw [hold_step m console hrunning, settle_result_error_iff, hword]
  exact execute_fault_iff _ _ _ _ fault

/-- A failed step leaves what the fetch has left, but for the status and the
console. -/
theorem of_step_of_error (m : Machine) (console : σ) (hrunning : m.status = .running)
    {fault : Fault} (hfault : (m.step.hold console).1.result = .error fault) :
    of (m.step.hold console).1.machine (m.step.hold console).2 =
      { (of m console).fetch.2 with
        status := .halted
        console := (m.step.hold console).2 } := by
  have hfetched : (of m console).fetch.2 =
      of (m.fetch.hold console).1.2 (m.fetch.hold console).2 :=
    congrArg Prod.snd (fetch_of m console)
  rw [hold_step m console hrunning, settle_result_error_iff] at hfault
  have hraised := Option.ne_none_iff_exists'.mpr ⟨fault, hfault⟩
  have hafter : (m.step.hold console).1.machine = (m.fetch.hold console).1.2.stop := by
    rw [hold_step m console hrunning, settle_machine_of_fault _ _ hraised,
      execute_machine_of_fault _ _ _ _ hraised]
  rw [hafter, of_stop, hfetched]
  rfl

/-- A step of a running machine fails exactly with the fault that the fetched
word raises.  A failing key poll raises none, and after a fault the registers,
the condition code and all cells but the keyboard's are as before the step. -/
theorem step_error_iff_raises (m : Machine) (console : σ) (hrunning : m.status = .running) :
    let before := of m console
    let w := before.fetch.1
    let after := of (m.step.hold console).1.machine (m.step.hold console).2
    ∃ calls, m.step.transcript console = m.fetch.transcript console ++ calls ∧
      (∀ fault, (m.step.hold console).1.result = .error fault ↔
        w.Raises before.pc calls fault) ∧
      (firstFailure (m.fetch.transcript console) ≠ none ∨ w.HasRow →
        ∃ status, (m.step.hold console).1.result = .ok status) ∧
      (∀ fault, (m.step.hold console).1.result = .error fault →
        after.register = before.register ∧
        after.condition = before.condition ∧
        after.pc = UInt16.ofInt (before.pc.toNat + 1) ∧
        after.status = .halted ∧
        ∀ addr, (before.pc = 0xFE00 → addr ≠ 0xFE00 ∧ addr ≠ 0xFE02) →
          after.cell addr = before.cell addr) := by
  intro before w after
  have hresult := step_result_error_iff m console hrunning
  refine ⟨_, transcript_step m console hrunning, hresult, ?_, ?_⟩
  · intro h
    -- a failed poll fetches the word 0, a branch on no condition, which has a row
    have hrow : w.HasRow := by
      rcases h with hfailure | hrow
      · have hzero : w = 0 := fetch_word_of_failure m console hfailure
        rw [hzero]
        exact ⟨by decide, by decide, by decide⟩
      · exact hrow
    cases hstep : (m.step.hold console).1.result with
    | ok status => exact ⟨status, rfl⟩
    | error fault => exact absurd hrow ((hresult fault).mp hstep).not_hasRow
  · intro fault hfault
    have hafter : after = { before.fetch.2 with
        status := .halted
        console := (m.step.hold console).2 } := of_step_of_error m console hrunning hfault
    rw [hafter]
    refine ⟨load_register _ _, load_condition _ _, rfl, rfl, ?_⟩
    intro addr haddr
    exact load_cell before before.pc addr haddr

/-- A new machine with one instruction at its start address. -/
def holding (w : Word) : Machine := { initial with memory := Memory.blank.write 0x3000 w }

theorem fetch_holding (w : Word) :
    (holding w).fetch = .done (w, (holding w).jump 0x3001) := by
  have hword : (holding w).memory.peek 0x3000 = w := Memory.peek_write_self _ _ _
  rw [fetch_of_ne (holding w) (by decide : (0x3000 : Word) ≠ 0xFE00)]
  show Dialogue.done ((holding w).memory.peek 0x3000, _) = _
  rw [hword]
  rfl

/-- A console whose second written byte fails. -/
def failingEcho : Scripted := .ofInput ⟨[], [1], [], #[]⟩ [0x79]

/-- The character that was read is lost when its echo fails: R0 stays zero. -/
theorem step_error_failingEcho :
    ((holding 0xF023).step.hold failingEcho).1.result =
        .error (.console .input 0x3000 (Scripted.failure "write" 1)) ∧
      (of ((holding 0xF023).step.hold failingEcho).1.machine
        ((holding 0xF023).step.hold failingEcho).2).register 0 = 0 := by
  obtain ⟨calls, hcalls, hresult, -, hafter⟩ :=
    step_error_iff_raises (holding 0xF023) failingEcho rfl
  rw [transcript_step (holding 0xF023) failingEcho rfl, List.append_cancel_left_eq,
    fetch_holding] at hcalls
  have hserved : calls =
      [.writeChar 0x20 (.ok ()), .flush (.ok ()), .readChar (.ok 0x79),
        .writeChar 0x79 (.error (Scripted.failure "write" 1))] := by
    rw [← hcalls]
    exact transcript_trap_known _ _ (show TrapRoutine.ofVector? 0x23 = some .input from rfl)
      failingEcho
  have hfault := (hresult (.console .input 0x3000 (Scripted.failure "write" 1))).mpr (by
    have hword : (of (holding 0xF023) failingEcho).fetch.1 = 0xF023 := by
      rw [fetch_of, fetch_holding]
      rfl
    rw [hword, hserved]
    exact .console .input _ (by decide) (by decide) rfl)
  refine ⟨hfault, ?_⟩
  rw [(hafter _ hfault).1]
  rfl

end Machine

end Lc3
