import Lc3.Proofs.Machine.Polling
import Lc3.Proofs.Session.Conservation
import Lc3.Proofs.Session.Halting

/-!
# Output is flushed before input is awaited

A step that finds nothing unflushed waits for the keyboard with nothing unflushed,
and leaves nothing unflushed unless it fails.  A failed step is the last one that
makes any call, so a failed flush is never followed by a wait.
-/

namespace Lc3

namespace Session

open Dialogue

variable {σ : Type} [Console σ]

theorem prompt_calls (s : Session σ) :
    FlushedAtWaits s.calls ∧ ∀ status, s.step.1 = .ok status → unflushed s.calls = [] :=
  s.machine.prompt_step s.console

theorem halted_of_error (s : Session σ) {fault : Fault} (h : s.step.1 = .error fault) :
    s.step.2.machine.status = .halted := by
  have hstatus := Machine.step_status s.machine s.console
  rw [← step_result, h] at hstatus
  exact hstatus

/-- Nothing is done after a step that has failed. -/
theorem after_of_error (s : Session σ) {n : Nat} {fault : Fault}
    (h : s.resultAt n = .error fault) (more : Nat) :
    s.after (n + 1 + more) = s.after (n + 1) ∧
      s.callsUpTo (n + 1 + more) = s.callsUpTo (n + 1) := by
  have hhalted : (s.after (n + 1)).machine.status = .halted := (s.after n).halted_of_error h
  induction more with
  | zero => exact ⟨rfl, rfl⟩
  | succ more ih =>
      obtain ⟨hafter, hcalls⟩ := ih
      rw [← Nat.add_assoc, after_succ, callsUpTo_succ, hafter, hcalls, step_of_halted _ hhalted,
        calls_of_halted _ hhalted, List.append_nil]
      exact ⟨rfl, rfl⟩

/-- No step before a running machine has failed. -/
theorem ok_of_running (s : Session σ) {n : Nat} (h : (s.after n).machine.status = .running)
    {i : Nat} (hi : i < n) : ∃ status, s.resultAt i = .ok status := by
  cases hresult : s.resultAt i with
  | ok status => exact ⟨status, rfl⟩
  | error fault =>
      exfalso
      obtain ⟨more, rfl⟩ := Nat.exists_eq_add_of_le (Nat.succ_le_of_lt hi)
      have hhalted : (s.after (i + 1)).machine.status = .halted :=
        (s.after i).halted_of_error hresult
      rw [(s.after_of_error hresult more).1, hhalted] at h
      cases h

/-- The steps of a session wait with nothing unflushed, and leave nothing unflushed
if none of them fails. -/
theorem prompt_callsUpTo (s : Session σ) (n : Nat) :
    FlushedAtWaits (s.callsUpTo n) ∧
      ((∀ i < n, ∃ status, s.resultAt i = .ok status) → unflushed (s.callsUpTo n) = []) := by
  induction n with
  | zero => exact ⟨.of_waits (List.forall_mem_nil _), fun _ => rfl⟩
  | succ n ih =>
      obtain ⟨hwaits, hflushed⟩ := ih
      obtain ⟨hwaits', hflushed'⟩ := (s.after n).prompt_calls
      rw [callsUpTo_succ]
      constructor
      · cases hstatus : (s.after n).machine.status with
        | halted =>
            rw [calls_of_halted _ hstatus, List.append_nil]
            exact hwaits
        | running =>
            exact hwaits.append (hflushed fun i hi => s.ok_of_running hstatus hi) hwaits'
      · intro hok
        obtain ⟨status, hresult⟩ := hok n (Nat.lt_succ_self n)
        rw [unflushed_append (hflushed fun i hi => hok i (Nat.lt_succ_of_lt hi))]
        exact hflushed' status hresult

/-- All steps of a run that succeeds have succeeded. -/
theorem ok_of_run_ok (s : Session σ) {limit : Nat} (h : (s.run limit).1 = some (.ok ()))
    {i : Nat} (hi : i < s.stepsOfRun limit) : ∃ status, s.resultAt i = .ok status := by
  by_cases hlast : i + 1 < s.stepsOfRun limit
  · exact ⟨_, s.resultAt_of_lt_stepsOfRun hlast⟩
  · have hsteps : s.stepsOfRun limit = i + 1 := by omega
    rw [run_result, hsteps, lastResult_succ] at h
    cases hresult : s.resultAt i with
    | ok status => exact ⟨status, rfl⟩
    | error fault =>
        rw [hresult] at h
        cases h

/-- `IN` has printed its prompt and nothing else when it reads. -/
theorem before_read_of_input (s : Session σ) (hword : s.arch.fetch.1.Invokes .input)
    {before later : List ConsoleCall} {answer : Except ConsoleError UInt8}
    (h : s.calls = before ++ .readChar answer :: later) :
    before = printed [TrapRoutine.inputPrompt] := by
  cases hstatus : s.machine.status with
  | halted =>
      rw [s.calls_of_halted hstatus] at h
      simp at h
  | running =>
      rw [s.calls_of_invokes hstatus hword] at h
      exact TrapRoutine.before_read_serve_input (s.arch.fetch.2.register 0)
        (s.machine.fetch.hold s.console).1.2.memory _ h

/-- Whatever was flushed before, the machine never waits for the keyboard with
output unflushed.  All is flushed after every step up to the first one that fails,
and none makes a call after that one.  The prompt of `IN` is flushed before it
reads, and a run that succeeds has flushed all it has written. -/
theorem flushed_before_waiting (s : Session σ) (past : List ConsoleCall)
    (hpast : unflushed past = []) :
    (∀ n before call later, s.callsUpTo n = before ++ call :: later → call.waits = true →
        unflushed (past ++ before) = []) ∧
      (∀ n, (∀ i < n, ∃ status, s.resultAt i = .ok status) →
        unflushed (past ++ s.callsUpTo n) = []) ∧
      (∀ n fault, s.resultAt n = .error fault → ∀ m, n < m →
        s.callsUpTo m = s.callsUpTo (n + 1)) ∧
      (∀ n before answer later, (s.after n).arch.fetch.1.Invokes .input →
        (s.after n).calls = before ++ .readChar answer :: later →
          before = [.writeChar TrapRoutine.inputPrompt (.ok ()), .flush (.ok ())]) ∧
      ∀ limit, (s.run limit).1 = some (.ok ()) →
        unflushed (past ++ s.callsUpTo (s.stepsOfRun limit)) = [] := by
  refine ⟨?_, ?_, ?_, ?_, ?_⟩
  · intro n before call later hsplit hwaits
    rw [unflushed_append hpast]
    exact (s.prompt_callsUpTo n).1 before call later hsplit hwaits
  · intro n hok
    rw [unflushed_append hpast]
    exact (s.prompt_callsUpTo n).2 hok
  · intro n fault herror m hm
    obtain ⟨more, rfl⟩ := Nat.exists_eq_add_of_le (Nat.succ_le_of_lt hm)
    exact (s.after_of_error herror more).2
  · intro n before answer later hword hsplit
    exact (s.after n).before_read_of_input hword hsplit
  · intro limit hrun
    rw [unflushed_append hpast]
    exact (s.prompt_callsUpTo _).2 fun i hi => s.ok_of_run_ok hrun hi

/-- `IN` at a console whose second flush fails. -/
def unflushedEcho : Session Scripted where
  machine := .holding 0xF023
  console := silentEcho
  log := none

theorem serve_input_silentEcho (r0 : Word) (mem : Memory) :
    (TrapRoutine.input.serve r0 mem).run.transcript silentEcho =
      [.writeChar 0x20 (.ok ()), .flush (.ok ()), .readChar (.ok 0x42), .writeChar 0x42 (.ok ()),
        .flush (.error (Scripted.failure "flush" 1))] ∧
      ((TrapRoutine.input.serve r0 mem).run.hold silentEcho).1 =
        .error (Scripted.failure "flush" 1) := ⟨rfl, rfl⟩

theorem calls_unflushedEcho :
    unflushedEcho.calls =
      [.writeChar 0x20 (.ok ()), .flush (.ok ()), .readChar (.ok 0x42), .writeChar 0x42 (.ok ()),
        .flush (.error (Scripted.failure "flush" 1))] ∧
      ∃ fault, unflushedEcho.step.1 = .error fault := by
  have hfetch : unflushedEcho.arch.fetch = (0xF023, unflushedEcho.arch.goto 0x3001) :=
    unflushedEcho.fetch_at_start rfl (Memory.peek_write_self _ _ _)
  have hinvokes : unflushedEcho.arch.fetch.1.Invokes .input := by
    rw [hfetch]
    show Word.Invokes 0xF023 .input
    exact ⟨by decide, by decide⟩
  have hconsole : unflushedEcho.arch.fetch.2.console = silentEcho := by
    rw [hfetch]
    rfl
  obtain ⟨hcalls, hfailed⟩ := serve_input_silentEcho (unflushedEcho.arch.fetch.2.register 0)
    (unflushedEcho.machine.fetch.hold unflushedEcho.console).1.2.memory
  rw [← hconsole] at hcalls hfailed
  exact ⟨(unflushedEcho.calls_of_invokes rfl hinvokes).trans hcalls, _,
    (unflushedEcho.error_of_invokes rfl hinvokes hfailed).1⟩

/-- The prompt is flushed when `IN` waits.  The echo is left unflushed by the step
that fails, and nothing is awaited after it. -/
theorem flushed_before_waiting_unflushedEcho :
    let past := [ConsoleCall.writeChar 0x41 (.ok ()), .flush (.ok ())]
    unflushed past = [] ∧
      unflushed (past ++ [.writeChar 0x20 (.ok ()), .flush (.ok ())]) = [] ∧
      unflushed unflushedEcho.calls = [0x42] ∧
      ∀ m, 0 < m → unflushedEcho.callsUpTo m = unflushedEcho.calls := by
  intro past
  obtain ⟨hcalls, fault, herror⟩ := calls_unflushedEcho
  have hone : unflushedEcho.callsUpTo (0 + 1) = unflushedEcho.calls := by
    simp [callsUpTo]
  obtain ⟨hwaits, -, hstops, -⟩ := flushed_before_waiting unflushedEcho past rfl
  refine ⟨rfl, ?_, ?_, ?_⟩
  · exact hwaits 1 _ (.readChar (.ok 0x42)) _ (hone.trans hcalls) rfl
  · rw [hcalls]
    rfl
  · intro m hm
    have hresult := unflushedEcho.resultAt_zero.trans herror
    exact (hstops 0 fault hresult m hm).trans hone

end Session

end Lc3
