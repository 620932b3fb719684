import Lc3.Proofs.Machine.Halt
import Lc3.Session

/-!
# Runs of a session

A run makes steps until one does not leave the machine running.  Here the
session after any number of steps is described by itself, and a run is shown to
be as many steps as it has counted, all but the last one with the machine still
running.
-/

namespace Lc3

theorem Log.addAll_nil (log : Log) : log.addAll [] = log := by
  cases log <;> simp [addAll]

namespace Session

variable {σ : Type}

/-- Two sessions that differ in their logs only. -/
structure SameState (s t : Session σ) : Prop where
  machine : s.machine = t.machine
  console : s.console = t.console

theorem SameState.refl (s : Session σ) : s.SameState s := ⟨rfl, rfl⟩

theorem SameState.trans {s t u : Session σ} (hst : s.SameState t) (htu : t.SameState u) :
    s.SameState u :=
  ⟨hst.machine.trans htu.machine, hst.console.trans htu.console⟩

theorem sameState_note (s : Session σ) (record : Record) : (s.note record).SameState s :=
  ⟨rfl, rfl⟩

variable [Console σ]

/-- The session after `n` steps. -/
def after (s : Session σ) : Nat → Session σ
  | 0 => s
  | n + 1 => (s.after n).step.2

/-- The result of the step after `n` steps. -/
def resultAt (s : Session σ) (n : Nat) : Except Fault Status := (s.after n).step.1

/-- The result of the last of `n` steps. -/
def lastResult (s : Session σ) : Nat → Option (Except Fault Status)
  | 0 => none
  | n + 1 => some (s.resultAt n)

/-- The console calls of the next step. -/
def calls (s : Session σ) : List ConsoleCall := s.machine.step.transcript s.console

/-- The console calls of the first `n` steps. -/
def callsUpTo (s : Session σ) (n : Nat) : List ConsoleCall :=
  (List.range n).flatMap fun i => (s.after i).calls

@[simp] theorem after_zero (s : Session σ) : s.after 0 = s := rfl

theorem resultAt_zero (s : Session σ) : s.resultAt 0 = s.step.1 := rfl

theorem after_succ (s : Session σ) (n : Nat) : s.after (n + 1) = (s.after n).step.2 := rfl

theorem lastResult_succ (s : Session σ) (n : Nat) :
    s.lastResult (n + 1) = some (s.resultAt n) := rfl

theorem callsUpTo_succ (s : Session σ) (n : Nat) :
    s.callsUpTo (n + 1) = s.callsUpTo n ++ (s.after n).calls := by
  unfold callsUpTo
  rw [List.range_succ, List.flatMap_append]
  simp

/-- Steps that are made after others. -/
theorem after_add (s : Session σ) (m n : Nat) : s.after (m + n) = (s.after m).after n := by
  induction n with
  | zero => rfl
  | succ n ih => rw [← Nat.add_assoc, after_succ, after_succ, ih]

theorem resultAt_add (s : Session σ) (m n : Nat) : s.resultAt (m + n) = (s.after m).resultAt n := by
  unfold resultAt
  rw [after_add]

theorem callsUpTo_add (s : Session σ) (m n : Nat) :
    s.callsUpTo (m + n) = s.callsUpTo m ++ (s.after m).callsUpTo n := by
  induction n with
  | zero => exact (List.append_nil _).symm
  | succ n ih =>
      rw [← Nat.add_assoc, callsUpTo_succ, callsUpTo_succ, ih, after_add, List.append_assoc]

theorem mem_callsUpTo {s : Session σ} {n : Nat} {call : ConsoleCall} :
    call ∈ s.callsUpTo n ↔ ∃ i < n, call ∈ (s.after i).calls := by
  unfold callsUpTo
  rw [List.mem_flatMap]
  simp only [List.mem_range]

theorem step_result (s : Session σ) : s.step.1 = (s.machine.step.hold s.console).1.result := rfl

theorem step_machine (s : Session σ) :
    s.step.2.machine = (s.machine.step.hold s.console).1.machine := rfl

/-- The log has no influence on a step. -/
theorem SameState.step {s t : Session σ} (h : s.SameState t) :
    s.step.1 = t.step.1 ∧ s.step.2.SameState t.step.2 := by
  rcases s with ⟨machine, console, log⟩
  rcases t with ⟨machine', console', log'⟩
  obtain ⟨hmachine, hconsole⟩ := h
  cases hmachine
  cases hconsole
  exact ⟨rfl, rfl, rfl⟩

theorem SameState.after {s t : Session σ} (h : s.SameState t) (n : Nat) :
    (s.after n).SameState (t.after n) := by
  induction n with
  | zero => exact h
  | succ n ih => exact ih.step.2

theorem SameState.resultAt_eq {s t : Session σ} (h : s.SameState t) (n : Nat) :
    s.resultAt n = t.resultAt n :=
  (h.after n).step.1

theorem SameState.lastResult_eq {s t : Session σ} (h : s.SameState t) (n : Nat) :
    s.lastResult n = t.lastResult n := by
  cases n with
  | zero => rfl
  | succ n => exact congrArg some (h.resultAt_eq n)

/-- A step on a halted machine does nothing. -/
theorem step_of_halted (s : Session σ) (h : s.machine.status = .halted) :
    s.step = (.ok .halted, s) := by
  rcases s with ⟨machine, console, log⟩
  unfold step
  dsimp only at h ⊢
  rw [Machine.step_halted machine h]
  show (Except.ok Status.halted, Session.mk machine console (log.addAll [])) = _
  rw [log.addAll_nil]

theorem calls_of_halted (s : Session σ) (h : s.machine.status = .halted) : s.calls = [] := by
  unfold calls
  rw [Machine.step_halted s.machine h]
  rfl

theorem after_of_halted (s : Session σ) (h : s.machine.status = .halted) (n : Nat) :
    s.after n = s := by
  induction n with
  | zero => rfl
  | succ n ih => rw [after_succ, ih, step_of_halted s h]

/-- A step that leaves the machine running has found it running. -/
theorem running_of_step {s : Session σ} (h : s.step.1 = .ok .running) :
    s.machine.status = .running ∧ s.step.2.machine.status = .running := by
  constructor
  · cases hstatus : s.machine.status with
    | running => rfl
    | halted =>
        rw [step_of_halted s hstatus] at h
        cases h
  · have hstatus := Machine.step_status s.machine s.console
    rw [← step_result, h] at hstatus
    exact hstatus

end Session

namespace Progress

variable {σ : Type}

theorem isRunning_iff (p : Progress σ) : p.isRunning = true ↔ p.last = some (.ok .running) := by
  unfold isRunning
  rcases p.last with _ | fault | (_ | _) <;> simp

variable [Console σ]

/-- The progress is that of its number of steps from `s`, of which all but the
last have left the machine running. -/
structure Reached (s : Session σ) (p : Progress σ) : Prop where
  session : p.session = s.after p.steps
  last : p.last = s.lastResult p.steps
  running : ∀ i, i + 1 < p.steps → s.resultAt i = .ok .running

theorem Reached.start (s : Session σ) : (start s).Reached s :=
  ⟨rfl, rfl, fun _ h => absurd h (Nat.not_lt_zero _)⟩

/-- One more step, after none or after one that has left the machine running. -/
theorem Reached.step {s : Session σ} {p : Progress σ} (h : p.Reached s)
    (hgo : p.steps = 0 ∨ p.isRunning = true) : p.step.Reached s := by
  refine ⟨?_, ?_, ?_⟩
  · show p.session.step.2 = _
    rw [h.session]
    rfl
  · show some p.session.step.1 = _
    rw [h.session]
    rfl
  · intro i hi
    have hsteps : i + 1 ≤ p.steps := Nat.lt_succ_iff.mp hi
    by_cases hlast : i + 1 = p.steps
    · have hrunning : p.isRunning = true := hgo.resolve_left (by omega)
      rw [isRunning_iff, h.last, ← hlast] at hrunning
      exact Option.some.inj hrunning
    · exact h.running i (by omega)

/-- Advancing stops at the limit or at a step that does not leave the machine
running. -/
theorem Reached.advance {s : Session σ} {p : Progress σ} (h : p.Reached s)
    (hgo : p.steps = 0 ∨ p.isRunning = true) (limit : Nat) :
    (p.advance limit).Reached s ∧
      p.steps + min limit 1 ≤ (p.advance limit).steps ∧
      (p.advance limit).steps ≤ p.steps + limit ∧
      ((p.advance limit).steps < p.steps + limit → (p.advance limit).isRunning = false) := by
  induction limit generalizing p with
  | zero => exact ⟨h, Nat.le_refl _, Nat.le_refl _, fun hlt => absurd hlt (Nat.lt_irrefl _)⟩
  | succ limit ih =>
      have hstep := h.step hgo
      have hsteps : p.step.steps = p.steps + 1 := rfl
      unfold Progress.advance
      -- one step, then either the rest of the limit or the end of the run
      by_cases hrunning : p.step.isRunning = true
      · obtain ⟨hreached, hlow, hhigh, hstop⟩ := ih hstep (Or.inr hrunning)
        rw [if_pos hrunning]
        exact ⟨hreached, by omega, by omega, fun hlt => hstop (by omega)⟩
      · rw [if_neg hrunning]
        exact ⟨hstep, by omega, by omega, fun _ => Bool.not_eq_true _ ▸ hrunning⟩

end Progress

namespace Session

variable {σ : Type} [Console σ]

/-- The session once its run has been noted. -/
def noted (s : Session σ) : Session σ := s.note (.runningFrom s.machine.registers.pc)

/-- The progress of a run when it ends. -/
def progress (s : Session σ) (limit : Nat) : Progress σ :=
  (Progress.start s.noted).advance limit

/-- The number of steps that a run makes. -/
def stepsOfRun (s : Session σ) (limit : Nat) : Nat := (s.progress limit).steps

theorem run_eq (s : Session σ) (limit : Nat) :
    s.run limit =
      match (s.progress limit).last with
      | some (.ok .halted) =>
          (some (.ok ()), (s.progress limit).session.note
            (.haltedAt (s.progress limit).session.machine.registers.pc))
      | some (.error fault) => (some (.error fault), (s.progress limit).session)
      | _ => (none, (s.progress limit).session) := rfl

theorem progress_reached (s : Session σ) (limit : Nat) :
    (s.progress limit).Reached s.noted ∧
      min limit 1 ≤ s.stepsOfRun limit ∧
      s.stepsOfRun limit ≤ limit ∧
      (s.stepsOfRun limit < limit → (s.progress limit).isRunning = false) := by
  have hadvance := (Progress.Reached.start s.noted).advance (Or.inl rfl) limit
  have hnone : (Progress.start s.noted).steps = 0 := rfl
  rw [hnone, Nat.zero_add, Nat.zero_add] at hadvance
  exact hadvance

theorem progress_last (s : Session σ) (limit : Nat) :
    (s.progress limit).last = s.lastResult (s.stepsOfRun limit) :=
  (s.progress_reached limit).1.last.trans ((s.sameState_note _).lastResult_eq _)

/-- The session after a run is that after the run's number of steps. -/
theorem run_sameState (s : Session σ) (limit : Nat) :
    (s.run limit).2.SameState (s.after (s.stepsOfRun limit)) := by
  have hsession : (s.progress limit).session.SameState (s.after (s.stepsOfRun limit)) := by
    rw [(s.progress_reached limit).1.session]
    exact (s.sameState_note _).after _
  rw [run_eq]
  rcases (s.progress limit).last with _ | fault | (_ | _)
  · exact hsession
  · exact hsession
  · exact hsession
  · exact (sameState_note _ _).trans hsession

/-- A run gives the result of its last step. -/
theorem run_result (s : Session σ) (limit : Nat) :
    (s.run limit).1 =
      match s.lastResult (s.stepsOfRun limit) with
      | some (.ok .halted) => some (.ok ())
      | some (.error fault) => some (.error fault)
      | _ => none := by
  rw [run_eq, progress_last]
  rcases s.lastResult (s.stepsOfRun limit) with _ | fault | (_ | _) <;> rfl

/-- All steps of a run but the last one have left the machine running. -/
theorem resultAt_of_lt_stepsOfRun (s : Session σ) {limit i : Nat}
    (h : i + 1 < s.stepsOfRun limit) : s.resultAt i = .ok .running := by
  rw [← (s.sameState_note _).resultAt_eq]
  exact (s.progress_reached limit).1.running i h

/-- A run whose last step has left the machine running has come to its limit. -/
theorem stepsOfRun_eq_limit (s : Session σ) {limit : Nat}
    (h : s.lastResult (s.stepsOfRun limit) = some (.ok .running)) :
    s.stepsOfRun limit = limit := by
  obtain ⟨-, -, hhigh, hstop⟩ := s.progress_reached limit
  have hrunning : (s.progress limit).isRunning = true := by
    rw [Progress.isRunning_iff, progress_last]
    exact h
  refine Nat.le_antisymm hhigh (Nat.le_of_not_lt fun hlt => ?_)
  cases hrunning.symm.trans (hstop hlt)

/-- A run on a halted machine ends with its first step. -/
theorem run_of_halted (s : Session σ) (h : s.machine.status = .halted) {limit : Nat}
    (hlimit : 0 < limit) :
    (s.run limit).1 = some (.ok ()) ∧ s.stepsOfRun limit = 1 := by
  have hresult : ∀ i, s.resultAt i = .ok .halted := by
    intro i
    unfold resultAt
    rw [after_of_halted s h, step_of_halted s h]
  -- a second step would need a first one that has left the machine running
  have hsteps : s.stepsOfRun limit = 1 := by
    obtain ⟨-, hlow, -, -⟩ := s.progress_reached limit
    by_contra hne
    have hrunning := s.resultAt_of_lt_stepsOfRun (show 0 + 1 < s.stepsOfRun limit by omega)
    rw [hresult] at hrunning
    cases hrunning
  refine ⟨?_, hsteps⟩
  rw [run_result, hsteps, lastResult_succ, hresult]

/-- The next `n` steps all leave the machine running. -/
def RunsFor (s : Session σ) (n : Nat) : Prop := ∀ i < n, s.resultAt i = .ok .running

theorem RunsFor.zero (s : Session σ) : s.RunsFor 0 := fun _ h => absurd h (Nat.not_lt_zero _)

theorem RunsFor.succ {s : Session σ} {n : Nat} (h : s.RunsFor n)
    (hnext : s.resultAt n = .ok .running) : s.RunsFor (n + 1) := by
  intro i hi
  rcases Nat.lt_succ_iff_lt_or_eq.mp hi with hlt | rfl
  · exact h i hlt
  · exact hnext

theorem RunsFor.trans {s : Session σ} {m n : Nat} (hm : s.RunsFor m)
    (hn : (s.after m).RunsFor n) : s.RunsFor (m + n) := by
  intro i hi
  by_cases hlt : i < m
  · exact hm i hlt
  · obtain ⟨j, rfl⟩ := Nat.exists_eq_add_of_le (Nat.not_lt.mp hlt)
    rw [resultAt_add]
    exact hn j (Nat.lt_of_add_lt_add_left hi)

/-- A run ends with the first step that does not leave the machine running. -/
theorem RunsFor.stepsOfRun_eq {s : Session σ} {n limit : Nat} (h : s.RunsFor n)
    (hlast : s.resultAt n ≠ .ok .running) (hlimit : n < limit) : s.stepsOfRun limit = n + 1 := by
  obtain ⟨-, hlow, -, -⟩ := s.progress_reached limit
  have hhigh : s.stepsOfRun limit ≤ n + 1 :=
    Nat.le_of_not_lt fun hlt => hlast (s.resultAt_of_lt_stepsOfRun hlt)
  -- a run that has made fewer steps has come to its limit, which is behind them
  by_contra hne
  obtain ⟨i, hi⟩ := Nat.exists_eq_add_of_le' (show 1 ≤ s.stepsOfRun limit by omega)
  have hrunning : s.lastResult (s.stepsOfRun limit) = some (.ok .running) := by
    rw [hi, lastResult_succ, h i (by omega)]
  have hall := s.stepsOfRun_eq_limit hrunning
  omega

/-- Such a run succeeds if that step has halted the machine, and fails if it has failed. -/
theorem RunsFor.run_eq {s : Session σ} {n limit : Nat} (h : s.RunsFor n)
    (hlast : s.resultAt n ≠ .ok .running) (hlimit : n < limit) :
    (s.run limit).1 = some ((s.resultAt n).map fun _ => ()) ∧
      (s.run limit).2.SameState (s.after (n + 1)) := by
  have hsteps := h.stepsOfRun_eq hlast hlimit
  have hsame := s.run_sameState limit
  rw [hsteps] at hsame
  refine ⟨?_, hsame⟩
  rw [run_result, hsteps, lastResult_succ]
  rcases hresult : s.resultAt n with fault | (_ | _)
  · rfl
  · exact absurd hresult hlast
  · rfl

end Session

end Lc3
