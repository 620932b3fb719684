import Lc3.Proofs.Machine.Faults

/-!
# Halting steps

A running machine stops in two ways: by a fault, or by a `HALT` whose notice
was written and flushed without a failure.  A machine that has stopped does
nothing in any further step.
-/

namespace Lc3

/-- The console calls of an announced halt. -/
def haltCalls : List ConsoleCall :=
  Dialogue.printed [0x0A, 0x48, 0x61, 0x6C, 0x74, 0x65, 0x64, 0x0A]

namespace TrapRoutine

open Dialogue

variable {σ : Type} [Console σ]

theorem haltNotice_bytes :
    haltNotice.toUTF8.toList = [0x0A, 0x48, 0x61, 0x6C, 0x74, 0x65, 0x64, 0x0A] := by
  decide +kernel

/-- `HALT` succeeds exactly if its calls are those of an announced halt. -/
theorem serve_halt_ok_iff (r0 : Word) (mem : Memory) (console : σ) :
    (∃ effect, ((halt.serve r0 mem).run.hold console).1 = .ok effect) ↔
      (halt.serve r0 mem).run.transcript console = haltCalls := by
  unfold haltCalls
  rw [← haltNotice_bytes]
  constructor
  · rintro ⟨effect, h⟩
    obtain ⟨_, console', hprint, -⟩ := ok_of_hold_bind h
    show (print _ >>= fun _ => pure ServiceEffect.halt).run.transcript console = _
    rw [transcript_run_bind, hprint, transcript_print_of_ok _ _ (congrArg Prod.fst hprint)]
    exact List.append_nil _
  · intro h
    -- none of these calls has failed, so neither has the routine
    have hfirst := reportsFirstFailure_serve halt r0 mem σ console
    rw [h, firstFailure_printed] at hfirst
    cases hserved : ((halt.serve r0 mem).run.hold console).1 with
    | ok effect => exact ⟨effect, rfl⟩
    | error cause =>
        rw [hserved] at hfirst
        cases hfirst

end TrapRoutine

namespace Machine

open ArchState

variable {σ : Type} [Console σ]

/-- The next step executes `TRAP x25` and its notice is written and flushed
without a failure. -/
def AnnouncesHalt (m : Machine) (console : σ) : Prop :=
  (of m console).fetch.1.bits 15 12 = 0xF ∧ (of m console).fetch.1.bits 7 0 = 0x25 ∧
    m.step.transcript console = m.fetch.transcript console ++ haltCalls

theorem settle_status (record : Record) (execution : Execution) :
    (settle record execution).machine.status =
      match (settle record execution).result with
      | .ok status => status
      | .error _ => .halted := by
  rcases execution with ⟨m, _ | fault⟩ <;> rfl

/-- A step's result and the status it leaves agree; a fault leaves the machine
halted. -/
theorem step_status (m : Machine) (console : σ) :
    (m.step.hold console).1.machine.status =
      match (m.step.hold console).1.result with
      | .ok status => status
      | .error _ => .halted := by
  cases hstatus : m.status with
  | halted =>
      rw [step_halted m hstatus]
      exact hstatus
  | running =>
      rw [hold_step m console hstatus]
      exact settle_status _ _

/-- A trap goes on without a fault and stops the machine exactly if it is an
announced halt. -/
theorem trap_stops_iff (m : Machine) (addr : Word) (vector : UInt8) (console : σ)
    (hrunning : m.status = .running) :
    (((m.trap addr vector).hold console).1.fault = none ∧
      ((m.trap addr vector).hold console).1.machine.status = .halted) ↔
      vector = 0x25 ∧ (m.trap addr vector).transcript console = haltCalls := by
  cases hvector : TrapRoutine.ofVector? vector with
  | none =>
      rw [trap_unknown m addr hvector]
      refine iff_of_false (fun h => by cases h.1) ?_
      rintro ⟨rfl, -⟩
      cases hvector
  | some routine =>
      have hservice := (TrapRoutine.ofVector?_eq_some_iff vector routine).mp hvector
      have hhalt : vector = 0x25 ↔ routine = .halt := by
        rw [hservice]
        cases routine <;> decide
      rw [hold_trap_known m addr hvector, transcript_trap_known m addr hvector, hhalt]
      constructor
      · rintro ⟨hfault, hstatus⟩
        cases houtcome : ((routine.serve (m.get 0) m.memory).run.hold console).1 with
        | error cause =>
            rw [houtcome] at hfault
            cases hfault
        | ok effect =>
            rw [houtcome] at hstatus
            -- the other effects leave the machine running
            have heffect : effect = .halt := by
              cases effect with
              | halt => rfl
              | none | key _ => cases hrunning.symm.trans hstatus
            have hroutine := (TrapRoutine.effect_eq_halt_iff routine _ _ console houtcome).mp heffect
            subst hroutine
            exact ⟨rfl, (TrapRoutine.serve_halt_ok_iff _ _ _).mp ⟨effect, houtcome⟩⟩
      · rintro ⟨rfl, hcalls⟩
        obtain ⟨effect, houtcome⟩ := (TrapRoutine.serve_halt_ok_iff _ _ _).mpr hcalls
        have heffect := (TrapRoutine.effect_eq_halt_iff _ _ _ console houtcome).mpr rfl
        rw [houtcome, heffect]
        exact ⟨rfl, rfl⟩

theorem settle_result_halted_iff (record : Record) (execution : Execution) :
    (settle record execution).result = .ok .halted ↔
      execution.fault = none ∧ execution.machine.status = .halted := by
  rcases execution with ⟨m, _ | fault⟩
  · show Except.ok m.status = .ok .halted ↔ _
    simp
  · exact iff_of_false (fun h => by cases h) fun h => by cases h.1

/-- A step of a running machine halts it without a fault exactly if it announces
the halt. -/
theorem step_ok_halted_iff (m : Machine) (console : σ) (hrunning : m.status = .running) :
    (m.step.hold console).1.result = .ok .halted ↔ m.AnnouncesHalt console := by
  have hfetched : (m.fetch.hold console).1.2.status = .running := by
    have hstate := congrArg (fun fetched => fetched.2.status) (fetch_of m console)
    exact hstate.symm.trans ((load_status _ _).trans hrunning)
  have hword : (of m console).fetch.1 = (m.fetch.hold console).1.1 :=
    congrArg Prod.fst (fetch_of m console)
  have hcalls := transcript_step m console hrunning
  unfold AnnouncesHalt
  rw [hcalls, List.append_cancel_left_eq, hword, hold_step m console hrunning,
    settle_result_halted_iff]
  generalize (m.fetch.hold console).1.1 = w
  rcases execute_cases (m.fetch.hold console).1.2 m.registers.pc w (m.fetch.hold console).2 with
    ⟨hrow, m', console', hexecute, hstate⟩ | ⟨hop, hexecute⟩ | ⟨hop, hexecute⟩ | ⟨hop, hexecute⟩
  · -- no row of the table stops the machine
    have hstatus : m'.status = .running := by
      have hrowStatus := congrArg ArchState.status hstate
      rw [row_status] at hrowStatus
      exact hrowStatus.trans hfetched
    rw [hexecute]
    refine iff_of_false (fun h => ?_) fun h => hrow.2.2 h.1
    cases hstatus.symm.trans h.2
  · rw [hexecute]
    exact iff_of_false (fun h => by cases h.1) fun h => by rw [hop] at h; omega
  · rw [hexecute]
    exact iff_of_false (fun h => by cases h.1) fun h => by rw [hop] at h; omega
  · have hvector : w.lowByte = 0x25 ↔ w.bits 7 0 = 0x25 := by
      rw [← Word.toNat_lowByte]
      exact UInt8.toNat_inj.symm
    rw [hexecute, trap_stops_iff _ _ _ _ hfetched, hvector]
    exact (and_iff_right hop).symm

/-- A step of a running machine halts it exactly if it announces the halt or
fails. -/
theorem step_halts_iff (m : Machine) (console : σ) (hrunning : m.status = .running) :
    (m.step.hold console).1.machine.status = .halted ↔
      m.AnnouncesHalt console ∨ ∃ fault, (m.step.hold console).1.result = .error fault := by
  rw [step_status, ← step_ok_halted_iff m console hrunning]
  cases (m.step.hold console).1.result with
  | ok status => simp
  | error fault => simp

end Machine

end Lc3
