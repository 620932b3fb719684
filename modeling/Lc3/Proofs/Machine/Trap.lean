import Lc3.Machine.Step
import Lc3.Proofs.Console.Attempt

/-!
# Executing traps

`TRAP` runs the routine at its vector.  The routine's console calls are all the
calls of the instruction; its effect is carried out if none of them failed, and
otherwise the first failure becomes the fault.
-/

namespace Lc3

namespace TrapRoutine

@[simp] theorem ofVector?_vector (routine : TrapRoutine) :
    ofVector? routine.vector = some routine := by
  cases routine <;> rfl

theorem ofVector?_eq_some_iff (vector : UInt8) (routine : TrapRoutine) :
    ofVector? vector = some routine ↔ vector = routine.vector := by
  constructor
  · intro h
    apply UInt8.toNat_inj.mp
    unfold ofVector? at h
    split at h
    case h_7 => cases h
    all_goals
      next hvector =>
        cases h
        exact hvector
  · rintro rfl
    exact ofVector?_vector routine

/-- The routines are those at x20 to x25. -/
theorem ofVector?_eq_none_iff (vector : UInt8) :
    ofVector? vector = none ↔ vector.toNat < 0x20 ∨ 0x25 < vector.toNat := by
  unfold ofVector?
  generalize vector.toNat = n
  by_cases h : 0x20 ≤ n ∧ n ≤ 0x25
  · obtain ⟨hlow, hhigh⟩ := h
    interval_cases n <;> decide
  · have hout : n < 0x20 ∨ 0x25 < n := by omega
    split
    case h_7 => exact iff_of_true rfl hout
    all_goals omega

variable {σ : Type} [Console σ]

open Dialogue

/-- The halt is the effect of one routine only. -/
theorem effect_eq_halt_iff (routine : TrapRoutine) (r0 : Word) (mem : Memory) (console : σ)
    {effect : ServiceEffect}
    (h : ((routine.serve r0 mem).run.hold console).1 = .ok effect) :
    effect = .halt ↔ routine = .halt := by
  cases routine with
  | getc =>
      obtain ⟨byte, _, _, hkey⟩ := ok_of_hold_bind h
      cases hkey
      simp
  | input =>
      obtain ⟨_, _, _, hread⟩ := ok_of_hold_bind h
      obtain ⟨byte, _, _, hecho⟩ := ok_of_hold_bind hread
      obtain ⟨_, _, _, hkey⟩ := ok_of_hold_bind hecho
      cases hkey
      simp
  | out | puts | putsp | halt =>
      obtain ⟨_, _, _, heffect⟩ := ok_of_hold_bind h
      cases heffect
      simp

end TrapRoutine

namespace Machine

open TrapRoutine

theorem trap_unknown (m : Machine) (addr : Word) {vector : UInt8}
    (h : ofVector? vector = none) :
    m.trap addr vector = .done (m.raise (.unknownTrap vector addr)) := by
  unfold trap
  rw [h]
  rfl

/-- What a routine's outcome makes of the machine. -/
def finish (m : Machine) (routine : TrapRoutine) (addr : Word) :
    Except ConsoleError ServiceEffect → Execution
  | .ok effect => (m.apply effect).proceed
  | .error cause => m.raise (.console routine addr cause)

theorem trap_known (m : Machine) (addr : Word) {vector : UInt8} {routine : TrapRoutine}
    (h : ofVector? vector = some routine) :
    m.trap addr vector =
      (routine.serve (m.get 0) m.memory).run.bind fun outcome =>
        .done (m.finish routine addr outcome) := by
  unfold trap
  rw [h]
  show Dialogue.bind _ _ = _
  congr 1
  funext outcome
  cases outcome <;> rfl

variable {σ : Type} [Console σ]

theorem hold_trap_known (m : Machine) (addr : Word) {vector : UInt8} {routine : TrapRoutine}
    (h : ofVector? vector = some routine) (console : σ) :
    (m.trap addr vector).hold console =
      (m.finish routine addr ((routine.serve (m.get 0) m.memory).run.hold console).1,
        ((routine.serve (m.get 0) m.memory).run.hold console).2) := by
  rw [trap_known m addr h, Dialogue.hold_bind]
  rfl

theorem transcript_trap_known (m : Machine) (addr : Word) {vector : UInt8}
    {routine : TrapRoutine} (h : ofVector? vector = some routine) (console : σ) :
    (m.trap addr vector).transcript console =
      (routine.serve (m.get 0) m.memory).run.transcript console := by
  rw [trap_known m addr h, Dialogue.transcript_bind]
  exact List.append_nil _

/-- A trap faults if there is no routine at its vector or a call of the routine
has failed. -/
theorem trap_fault_iff (m : Machine) (addr : Word) (vector : UInt8) (console : σ)
    (fault : Fault) :
    ((m.trap addr vector).hold console).1.fault = some fault ↔
      (ofVector? vector = none ∧ fault = .unknownTrap vector addr) ∨
      ∃ routine cause, ofVector? vector = some routine ∧
        firstFailure ((m.trap addr vector).transcript console) = some cause ∧
        fault = .console routine addr cause := by
  cases hvector : ofVector? vector with
  | none =>
      rw [trap_unknown m addr hvector]
      show some _ = some fault ↔ _
      simp [eq_comm]
  | some routine =>
      rw [transcript_trap_known m addr hvector,
        reportsFirstFailure_serve routine (m.get 0) m.memory σ console,
        hold_trap_known m addr hvector]
      cases ((routine.serve (m.get 0) m.memory).run.hold console).1 with
      | ok effect =>
          simp [finish, proceed, Dialogue.errorOf]
      | error cause =>
          simp [finish, raise, Dialogue.errorOf, eq_comm]

/-- A faulting trap leaves the machine as it was. -/
theorem trap_machine_of_fault (m : Machine) (addr : Word) (vector : UInt8) (console : σ)
    (h : ((m.trap addr vector).hold console).1.fault ≠ none) :
    ((m.trap addr vector).hold console).1.machine = m := by
  cases hvector : ofVector? vector with
  | none =>
      rw [trap_unknown m addr hvector]
      rfl
  | some routine =>
      rw [hold_trap_known m addr hvector] at h ⊢
      cases houtcome : ((routine.serve (m.get 0) m.memory).run.hold console).1 with
      | ok effect =>
          rw [houtcome] at h
          exact absurd rfl h
      | error cause => rfl

end Machine

end Lc3
