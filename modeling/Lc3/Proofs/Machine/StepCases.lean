import Lc3.Proofs.Architecture.Reading
import Lc3.Proofs.Machine.Faults

/-!
# The cases of a step

A step of a running machine applies a row of the instruction table, refuses its
word, or runs a trap routine that succeeds or fails.  Each case says which calls
the step has made, what its result is and what it has left, so that invariants
are derived from the cases and no later proof looks into a step again.
-/

namespace Lc3

namespace Word

/-- The word is a `TRAP` to the routine. -/
def Invokes (w : Word) (routine : TrapRoutine) : Prop :=
  w.bits 15 12 = 0xF ∧ routine.vector.toNat = w.bits 7 0

/-- The word is a reserved operation, or a `TRAP` to no routine. -/
def Refused (w : Word) : Prop :=
  w.bits 15 12 = 0x8 ∨ w.bits 15 12 = 0xD ∨
    (w.bits 15 12 = 0xF ∧ (w.bits 7 0 < 0x20 ∨ 0x25 < w.bits 7 0))

theorem Invokes.not_hasRow {w : Word} {routine : TrapRoutine} (h : w.Invokes routine) :
    ¬ w.HasRow := fun hrow => hrow.2.2 h.1

theorem Refused.not_hasRow {w : Word} (h : w.Refused) : ¬ w.HasRow := by
  rintro ⟨hrti, hres, htrap⟩
  rcases h with hop | hop | ⟨hop, -⟩ <;> contradiction

theorem Invokes.not_refused {w : Word} {routine : TrapRoutine} (h : w.Invokes routine) :
    ¬ w.Refused := by
  obtain ⟨hop, hvector⟩ := h
  have hknown : 0x20 ≤ routine.vector.toNat ∧ routine.vector.toNat ≤ 0x25 := by
    cases routine <;> decide
  unfold Refused
  omega

/-- The calls of the step have no part in why a word is refused. -/
theorem Raises.of_refused {w addr : Word} {calls others : List ConsoleCall} {fault : Fault}
    (hword : w.Refused) (h : w.Raises addr calls fault) : w.Raises addr others fault := by
  cases h with
  | rti hop => exact .rti hop
  | res hop => exact .res hop
  | unknownTrap vector hop hvector hunknown => exact .unknownTrap vector hop hvector hunknown
  | console routine cause hop hvector =>
      exact absurd hword (Invokes.not_refused ⟨hop, hvector⟩)

theorem Invokes.unique {w : Word} {first second : TrapRoutine} (hfirst : w.Invokes first)
    (hsecond : w.Invokes second) : first = second := by
  have hvector : first.vector = second.vector :=
    UInt8.toNat_inj.mp (hfirst.2.trans hsecond.2.symm)
  have hknown := TrapRoutine.ofVector?_vector first
  rw [hvector, TrapRoutine.ofVector?_vector] at hknown
  exact (Option.some.inj hknown).symm

end Word

namespace ArchState

variable {σ : Type}

/-- Carry out the effect of a trap routine. -/
def carryOut (s : ArchState σ) : ServiceEffect → ArchState σ
  | .none => s
  | .key byte => { s with register := Function.update s.register r0 byte.toUInt16 }
  | .halt => { s with status := .halted }

/-- What the keyboard's status cell gives is no `TRAP`. -/
theorem pc_ne_of_invokes [Console σ] (s : ArchState σ) {routine : TrapRoutine}
    (h : s.fetch.1.Invokes routine) : s.pc ≠ 0xFE00 := by
  intro hpc
  have hop := h.1
  rw [fetch_word, hpc] at hop
  rcases s.load_status_value with hvalue | hvalue <;> rw [hvalue] at hop <;> revert hop <;> decide

/-- A `TRAP` to a routine is fetched without a poll, and nothing else is read. -/
theorem stepReadings_of_invokes [Console σ] (s : ArchState σ) {routine : TrapRoutine}
    (h : s.fetch.1.Invokes routine) : s.polls = [] ∧ s.stepReadings.flatMap Reading.calls = [] := by
  have hfetch : ¬ (⟨s, s.pc⟩ : Reading σ).Polls := s.pc_ne_of_invokes h
  unfold polls
  rw [stepReadings_of_not_hasRow s h.not_hasRow, List.flatMap_singleton,
    Reading.calls_of_not_polls hfetch]
  exact ⟨by simp [hfetch], rfl⟩

theorem of_apply (m : Machine) (effect : ServiceEffect) (console : σ) :
    of (m.apply effect) console = (of m console).carryOut effect := by
  cases effect with
  | none => rfl
  | key byte => exact of_set m _ console (r := 0) rfl
  | halt => rfl

end ArchState

namespace Machine

open ArchState

variable {σ : Type} [Console σ]

/-- The execution of the fetched word. -/
def execution (m : Machine) (console : σ) : Dialogue Execution :=
  (m.fetch.hold console).1.2.execute m.registers.pc (m.fetch.hold console).1.1
    (Instruction.decode (m.fetch.hold console).1.1)

theorem hold_step_eq (m : Machine) (console : σ) (hrunning : m.status = .running) :
    m.step.hold console =
      (settle (.executing m.registers.pc (m.fetch.hold console).1.1)
          ((m.execution console).hold (m.fetch.hold console).2).1,
        ((m.execution console).hold (m.fetch.hold console).2).2) :=
  hold_step m console hrunning

/-- The calls of a trap routine that the fetched word runs. -/
def service (m : Machine) (console : σ) (routine : TrapRoutine) : Dialogue.Attempt ServiceEffect :=
  routine.serve ((of m console).fetch.2.register r0) (m.fetch.hold console).1.2.memory

/-- All that a step of a running machine can be. -/
inductive StepCase (m : Machine) (console : σ) : Prop
  | row
      (hword : (of m console).fetch.1.HasRow)
      (hcalls : m.step.transcript console =
        (of m console).stepReadings.flatMap Reading.calls)
      (hresult : (m.step.hold console).1.result = .ok .running)
      (hafter : of (m.step.hold console).1.machine (m.step.hold console).2 =
        (of m console).fetch.2.row (of m console).fetch.1)
  | refused (fault : Fault)
      (hword : (of m console).fetch.1.Refused)
      (hcalls : m.step.transcript console =
        (of m console).stepReadings.flatMap Reading.calls)
      (hresult : (m.step.hold console).1.result = .error fault)
      (hfault : ∀ routine addr cause, fault ≠ .console routine addr cause)
      (hafter : of (m.step.hold console).1.machine (m.step.hold console).2 =
        { (of m console).fetch.2 with status := .halted })
  | served (routine : TrapRoutine) (effect : ServiceEffect) (console' : σ)
      (hword : (of m console).fetch.1.Invokes routine)
      (hcalls : m.step.transcript console =
        (of m console).stepReadings.flatMap Reading.calls ++
          (m.service console routine).run.transcript (of m console).fetch.2.console)
      (hserved : (m.service console routine).run.hold (of m console).fetch.2.console =
        (.ok effect, console'))
      (hresult : ∃ status, (m.step.hold console).1.result = .ok status)
      (hafter : of (m.step.hold console).1.machine (m.step.hold console).2 =
        { (of m console).fetch.2.carryOut effect with console := console' })
  | failed (routine : TrapRoutine) (cause : ConsoleError) (console' : σ)
      (hword : (of m console).fetch.1.Invokes routine)
      (hcalls : m.step.transcript console =
        (of m console).stepReadings.flatMap Reading.calls ++
          (m.service console routine).run.transcript (of m console).fetch.2.console)
      (hserved : (m.service console routine).run.hold (of m console).fetch.2.console =
        (.error cause, console'))
      (hresult : (m.step.hold console).1.result =
        .error (.console routine m.registers.pc cause))
      (hafter : of (m.step.hold console).1.machine (m.step.hold console).2 =
        { (of m console).fetch.2 with
          status := .halted
          console := console' })

/-- The fetch makes the calls of the first reading. -/
theorem transcript_fetch_eq (m : Machine) (console : σ) :
    m.fetch.transcript console =
      (⟨of m console, (of m console).pc⟩ : Reading σ).calls :=
  transcript_fetch m console

/-- A word without a row makes the calls of its fetch and of its execution. -/
theorem transcript_step_of_not_hasRow (m : Machine) (console : σ)
    (hrunning : m.status = .running) (hrow : ¬ (of m console).fetch.1.HasRow) :
    m.step.transcript console =
      (of m console).stepReadings.flatMap Reading.calls ++
        (m.execution console).transcript (m.fetch.hold console).2 := by
  rw [transcript_step m console hrunning, transcript_fetch_eq,
    stepReadings_of_not_hasRow _ hrow]
  simp only [List.flatMap_cons, List.flatMap_nil, List.append_nil]
  rfl

theorem step_row (m : Machine) (console : σ) (hrunning : m.status = .running)
    (hrow : (of m console).fetch.1.HasRow) : m.StepCase console := by
  refine .row hrow ?_ (step_result_of_hasRow m console hrunning hrow)
    (of_step_of_hasRow m console hrunning hrow)
  have hfetch := fetch_of m console
  have hexecute := transcript_execute_of_hasRow (m.fetch.hold console).1.2
    (m.fetch.hold console).2 m.registers.pc (m.fetch.hold console).1.1
    (by rw [hfetch] at hrow; exact hrow)
  rw [transcript_step m console hrunning, transcript_fetch_eq, hexecute]
  unfold stepReadings
  rw [hfetch]
  rfl

theorem step_refused (m : Machine) (console : σ) (hrunning : m.status = .running)
    {fault : Fault} (hword : (of m console).fetch.1.Refused)
    (hfault : ∀ routine addr cause, fault ≠ .console routine addr cause)
    (hexecute : m.execution console =
        .done ((m.fetch.hold console).1.2.raise fault)) : m.StepCase console := by
  have hstep := hold_step_eq m console hrunning
  have hcalls := transcript_step_of_not_hasRow m console hrunning hword.not_hasRow
  rw [hexecute] at hstep
  rw [hexecute, Dialogue.transcript_done, List.append_nil] at hcalls
  refine .refused fault hword hcalls ?_ hfault ?_
  · rw [hstep]
    rfl
  · rw [hstep, fetch_of]
    rfl

theorem step_trap (m : Machine) (console : σ) (hrunning : m.status = .running)
    {routine : TrapRoutine} (hword : (of m console).fetch.1.Invokes routine)
    (hexecute : m.execution console =
        (m.fetch.hold console).1.2.trap m.registers.pc routine.vector) :
    m.StepCase console := by
  have hfetch := fetch_of m console
  have hvector := TrapRoutine.ofVector?_vector routine
  have hconsole : (of m console).fetch.2.console = (m.fetch.hold console).2 := by rw [hfetch]; rfl
  have hservice : m.service console routine =
      routine.serve ((m.fetch.hold console).1.2.get 0) (m.fetch.hold console).1.2.memory := by
    unfold service
    rw [hfetch, get_eq_register _ (m.fetch.hold console).2 (r := 0) rfl]
  have hstep := hold_step_eq m console hrunning
  have hcalls := transcript_step_of_not_hasRow m console hrunning hword.not_hasRow
  rw [hexecute, hold_trap_known _ _ hvector, ← hservice, ← hconsole] at hstep
  rw [hexecute, transcript_trap_known _ _ hvector, ← hservice, ← hconsole] at hcalls
  rcases houtcome : (m.service console routine).run.hold (of m console).fetch.2.console with
    ⟨cause | effect, console'⟩
  · rw [houtcome] at hstep
    refine .failed routine cause console' hword hcalls houtcome ?_ ?_
    · rw [hstep]
      rfl
    · rw [hstep, hfetch]
      rfl
  · rw [houtcome] at hstep
    refine .served routine effect console' hword hcalls houtcome ?_ ?_
    · rw [hstep]
      exact ⟨_, rfl⟩
    · rw [hstep, hfetch, ← of_apply]
      rfl

theorem step_cases (m : Machine) (console : σ) (hrunning : m.status = .running) :
    m.StepCase console := by
  have hword : (of m console).fetch.1 = (m.fetch.hold console).1.1 :=
    congrArg Prod.fst (fetch_of m console)
  rcases execute_cases (m.fetch.hold console).1.2 m.registers.pc (m.fetch.hold console).1.1
      (m.fetch.hold console).2 with
    ⟨hrow, -⟩ | ⟨hop, hexecute⟩ | ⟨hop, hexecute⟩ | ⟨hop, hexecute⟩
  · exact step_row m console hrunning (hword ▸ hrow)
  · exact step_refused m console hrunning (hword ▸ Or.inl hop) (by simp) hexecute
  · exact step_refused m console hrunning (hword ▸ Or.inr (Or.inl hop)) (by simp) hexecute
  · have hbyte := Word.toNat_lowByte (m.fetch.hold console).1.1
    cases hvector : TrapRoutine.ofVector? (m.fetch.hold console).1.1.lowByte with
    | none =>
        have hunknown := (TrapRoutine.ofVector?_eq_none_iff _).mp hvector
        rw [hbyte] at hunknown
        rw [trap_unknown _ _ hvector] at hexecute
        exact step_refused m console hrunning (hword ▸ Or.inr (Or.inr ⟨hop, hunknown⟩))
          (by simp) hexecute
    | some routine =>
        have hroutine := (TrapRoutine.ofVector?_eq_some_iff _ _).mp hvector
        rw [hroutine] at hexecute hbyte
        exact step_trap m console hrunning (hword ▸ ⟨hop, hbyte⟩) hexecute

/-- A step at a `TRAP` to a routine makes the calls of the routine alone. -/
theorem step_of_invokes (m : Machine) (console : σ) (hrunning : m.status = .running)
    {routine : TrapRoutine} (hword : (of m console).fetch.1.Invokes routine) :
    m.step.transcript console =
        (m.service console routine).run.transcript (of m console).fetch.2.console ∧
      ((∃ effect console', (m.service console routine).run.hold (of m console).fetch.2.console =
            (.ok effect, console') ∧
          (∃ status, (m.step.hold console).1.result = .ok status) ∧
          of (m.step.hold console).1.machine (m.step.hold console).2 =
            { (of m console).fetch.2.carryOut effect with console := console' }) ∨
        ∃ cause console', (m.service console routine).run.hold (of m console).fetch.2.console =
            (.error cause, console') ∧
          (m.step.hold console).1.result = .error (.console routine m.registers.pc cause) ∧
          of (m.step.hold console).1.machine (m.step.hold console).2 =
            { (of m console).fetch.2 with
              status := .halted
              console := console' }) := by
  have hreadings := ((of m console).stepReadings_of_invokes hword).2
  cases m.step_cases console hrunning with
  | row hrow => exact absurd hrow hword.not_hasRow
  | refused fault hrefused => exact absurd hrefused hword.not_refused
  | served other effect console' hother hcalls hserved hresult hafter =>
      obtain rfl := hword.unique hother
      rw [hreadings] at hcalls
      exact ⟨hcalls, Or.inl ⟨effect, console', hserved, hresult, hafter⟩⟩
  | failed other cause console' hother hcalls hserved hresult hafter =>
      obtain rfl := hword.unique hother
      rw [hreadings] at hcalls
      exact ⟨hcalls, Or.inr ⟨cause, console', hserved, hresult, hafter⟩⟩

/-- A step at a word of the table makes the calls of its readings alone. -/
theorem step_of_hasRow (m : Machine) (console : σ) (hrunning : m.status = .running)
    (hword : (of m console).fetch.1.HasRow) :
    m.step.transcript console = (of m console).stepReadings.flatMap Reading.calls ∧
      (m.step.hold console).1.result = .ok .running ∧
      of (m.step.hold console).1.machine (m.step.hold console).2 =
        (of m console).fetch.2.row (of m console).fetch.1 := by
  cases m.step_cases console hrunning with
  | row _ hcalls hresult hafter => exact ⟨hcalls, hresult, hafter⟩
  | refused _ hrefused => exact absurd hword hrefused.not_hasRow
  | served _ _ _ hinvokes | failed _ _ _ hinvokes => exact absurd hword hinvokes.not_hasRow

/-- A step at a word that is refused makes the calls of its fetch and fails. -/
theorem step_of_refused (m : Machine) (console : σ) (hrunning : m.status = .running)
    (hword : (of m console).fetch.1.Refused) :
    m.step.transcript console = (of m console).stepReadings.flatMap Reading.calls ∧
      (∃ fault, (m.step.hold console).1.result = .error fault) ∧
      of (m.step.hold console).1.machine (m.step.hold console).2 =
        { (of m console).fetch.2 with status := .halted } := by
  cases m.step_cases console hrunning with
  | row hrow => exact absurd hrow hword.not_hasRow
  | refused fault _ hcalls hresult _ hafter => exact ⟨hcalls, ⟨fault, hresult⟩, hafter⟩
  | served _ _ _ hinvokes | failed _ _ _ hinvokes => exact absurd hword hinvokes.not_refused

end Machine

end Lc3
