import Lc3.Console.Buffer
import Lc3.Proofs.Session.Operation

/-!
# Halting over all histories

Whatever the host does, the machine halts only inside a step that announces the
halt or fails, and it never runs again.  A run gives its result exactly by its
last step, and driving a halted machine has no effect at all.
-/

namespace Lc3

namespace Session

variable {σ : Type} [Console σ]

/-- The next step of the running machine announces the halt or fails. -/
def StopsNext (s : Session σ) : Prop :=
  s.machine.status = .running ∧
    (s.machine.AnnouncesHalt s.console ∨ ∃ fault, s.step.1 = .error fault)

/-- Steps that have left the machine running have found it running. -/
theorem running_of_lt (s : Session σ) (hrunning : s.machine.status = .running) {n i : Nat}
    (hsteps : ∀ i, i + 1 < n → s.resultAt i = .ok .running) (hi : i < n) :
    (s.after i).machine.status = .running := by
  cases i with
  | zero => exact hrunning
  | succ i => exact (running_of_step (hsteps i hi)).2

theorem after_halted_iff (s : Session σ) (hrunning : s.machine.status = .running) {n : Nat}
    (hsteps : ∀ i, i + 1 < n → s.resultAt i = .ok .running) :
    (s.after n).machine.status = .halted ↔ ∃ i, n = i + 1 ∧ (s.after i).StopsNext := by
  cases n with
  | zero =>
      refine iff_of_false ?_ fun ⟨i, hi, _⟩ => by omega
      rw [after_zero, hrunning]
      decide
  | succ i =>
      have hbefore := s.running_of_lt hrunning hsteps (Nat.lt_succ_self i)
      rw [after_succ, step_machine, Machine.step_halts_iff _ _ hbefore]
      constructor
      · intro h
        exact ⟨i, rfl, hbefore, h⟩
      · rintro ⟨j, hj, -, h⟩
        obtain rfl : i = j := by omega
        exact h

/-- An operation halts a running machine exactly if its last step stops it. -/
theorem perform_halted_iff (s : Session σ) (hrunning : s.machine.status = .running)
    (op : Operation σ) :
    (s.perform op).2.machine.status = .halted ↔
      ∃ i, s.stepsOf op = i + 1 ∧ (s.after i).StopsNext := by
  rw [perform_status]
  exact s.after_halted_iff hrunning fun _ => s.resultAt_of_lt_stepsOf

/-- No operation makes a halted machine run again. -/
theorem perform_of_halted (s : Session σ) (h : s.machine.status = .halted) (op : Operation σ) :
    (s.perform op).2.machine.status = .halted := by
  rw [perform_status, after_of_halted s h]
  exact h

theorem performAll_of_halted (s : Session σ) (h : s.machine.status = .halted)
    (ops : List (Operation σ)) : (s.performAll ops).2.machine.status = .halted := by
  induction ops generalizing s with
  | nil => exact h
  | cons op rest ih => exact ih _ (s.perform_of_halted h op)

/-- After any history the machine has halted exactly if an operation of the
history has stopped it by its last step. -/
theorem performAll_halted_iff (s : Session σ) (hrunning : s.machine.status = .running)
    (ops : List (Operation σ)) :
    (s.performAll ops).2.machine.status = .halted ↔
      ∃ before op rest i, ops = before ++ op :: rest ∧
        (s.performAll before).2.stepsOf op = i + 1 ∧
        ((s.performAll before).2.after i).StopsNext := by
  constructor
  · intro h
    -- the operation is the first one that leaves the machine halted
    induction ops generalizing s with
    | nil => cases hrunning.symm.trans h
    | cons op rest ih =>
        cases hstatus : (s.perform op).2.machine.status with
        | halted =>
            obtain ⟨i, hsteps, hstops⟩ := (s.perform_halted_iff hrunning op).mp hstatus
            exact ⟨[], op, rest, i, rfl, hsteps, hstops⟩
        | running =>
            obtain ⟨before, other, rest', i, hrest, hsteps, hstops⟩ := ih _ hstatus h
            exact ⟨op :: before, other, rest', i, by rw [hrest]; rfl, hsteps, hstops⟩
  · rintro ⟨before, op, rest, i, rfl, hsteps, hstops⟩
    rw [performAll_append, performAll_cons]
    -- what comes after the stopping operation does not matter
    apply performAll_of_halted
    rw [perform_status, hsteps, after_succ, step_machine]
    exact (Machine.step_halts_iff _ _ hstops.1).mpr hstops.2

theorem callsUpTo_of_halted (s : Session σ) (h : s.machine.status = .halted) (n : Nat) :
    s.callsUpTo n = [] := by
  induction n with
  | zero => rfl
  | succ n ih => rw [callsUpTo_succ, ih, after_of_halted s h, calls_of_halted s h, List.append_nil]

/-- A step or a run on a halted machine returns at once. -/
theorem perform_drives_of_halted (s : Session σ) (h : s.machine.status = .halted)
    {op : Operation σ} (hop : op.Drives) :
    (s.perform op).1 = op.haltedOutcome ∧ (s.perform op).2.SameState s := by
  cases op with
  | step =>
      unfold perform
      rw [step_of_halted s h]
      exact ⟨rfl, SameState.refl s⟩
  | run limit =>
      obtain ⟨hresult, -⟩ := s.run_of_halted h hop
      refine ⟨congrArg Outcome.ran hresult, ?_⟩
      have hafter := s.run_sameState limit
      rw [after_of_halted s h] at hafter
      exact hafter
  | load _ | loadImage _ | setRegisters _ | setMemory _ | setConsole _ => cases hop

/-- Driving a halted machine any number of times makes no console call and
changes nothing. -/
theorem performAll_drives_of_halted (s : Session σ) (h : s.machine.status = .halted)
    (ops : List (Operation σ)) (hops : ∀ op ∈ ops, op.Drives) :
    (s.performAll ops).1 = ops.map Operation.haltedOutcome ∧ s.callsOf ops = [] ∧
      (s.performAll ops).2.SameState s := by
  induction ops generalizing s with
  | nil => exact ⟨rfl, rfl, SameState.refl s⟩
  | cons op rest ih =>
      obtain ⟨houtcome, hsame⟩ := s.perform_drives_of_halted h (hops op List.mem_cons_self)
      obtain ⟨houtcomes, hcalls, hsames⟩ := ih (s.perform op).2 (s.perform_of_halted h op)
        fun other hother => hops other (List.mem_cons_of_mem op hother)
      rw [performAll_cons, List.map_cons, houtcome, houtcomes]
      refine ⟨rfl, ?_, hsames.trans hsame⟩
      unfold callsOf
      rw [callsUpTo_of_halted s h, hcalls]
      rfl

/-- A run succeeds exactly if its last step announces the halt. -/
theorem run_ok_iff (s : Session σ) (hrunning : s.machine.status = .running) (limit : Nat) :
    (s.run limit).1 = some (.ok ()) ↔
      ∃ i, s.stepsOfRun limit = i + 1 ∧
        (s.after i).machine.AnnouncesHalt (s.after i).console := by
  have hsteps : ∀ i, i + 1 < s.stepsOfRun limit → s.resultAt i = .ok .running :=
    fun _ => s.resultAt_of_lt_stepsOfRun
  rw [run_result]
  generalize s.stepsOfRun limit = n at hsteps ⊢
  cases n with
  | zero => exact iff_of_false (fun h => by cases h) fun ⟨i, hi, _⟩ => by omega
  | succ i =>
      have hbefore := s.running_of_lt hrunning hsteps (Nat.lt_succ_self i)
      have hhalted : s.resultAt i = .ok .halted ↔
          (s.after i).machine.AnnouncesHalt (s.after i).console :=
        Machine.step_ok_halted_iff _ _ hbefore
      rw [lastResult_succ]
      constructor
      · intro h
        refine ⟨i, rfl, hhalted.mp ?_⟩
        cases hresult : s.resultAt i with
        | error fault =>
            rw [hresult] at h
            cases h
        | ok status =>
            cases status with
            | halted => rfl
            | running =>
                rw [hresult] at h
                cases h
      · rintro ⟨j, hj, h⟩
        obtain rfl : i = j := by omega
        rw [hhalted.mpr h]

/-- A run fails exactly with the fault of its last step. -/
theorem run_error_iff (s : Session σ) (limit : Nat) (fault : Fault) :
    (s.run limit).1 = some (.error fault) ↔
      ∃ i, s.stepsOfRun limit = i + 1 ∧ (s.after i).step.1 = .error fault := by
  rw [run_result]
  cases s.stepsOfRun limit with
  | zero => exact iff_of_false (fun h => by cases h) fun ⟨i, hi, _⟩ => by omega
  | succ i =>
      rw [lastResult_succ]
      constructor
      · intro h
        refine ⟨i, rfl, ?_⟩
        show s.resultAt i = _
        rcases hresult : s.resultAt i with other | (_ | _) <;> rw [hresult] at h <;> cases h
        rfl
      · rintro ⟨j, hj, h⟩
        obtain rfl : i = j := by omega
        have hresult : s.resultAt i = .error fault := h
        rw [hresult]

/-- A run without a result has made all its steps and left the machine running. -/
theorem run_none (s : Session σ) (hrunning : s.machine.status = .running) {limit : Nat}
    (h : (s.run limit).1 = none) :
    s.stepsOfRun limit = limit ∧ (s.after limit).machine.status = .running := by
  have hend : limit = 0 ∨ s.lastResult (s.stepsOfRun limit) = some (.ok .running) := by
    obtain ⟨-, hlow, -, -⟩ := s.progress_reached limit
    rw [run_result] at h
    rcases hlast : s.lastResult (s.stepsOfRun limit) with _ | fault | (_ | _)
    · refine Or.inl ?_
      cases hsteps : s.stepsOfRun limit with
      | zero => omega
      | succ i =>
          rw [hsteps] at hlast
          cases hlast
    · rw [hlast] at h
      cases h
    · exact Or.inr rfl
    · rw [hlast] at h
      cases h
  rcases hend with rfl | hlast
  · exact ⟨Nat.le_zero.mp (s.progress_reached 0).2.2.1, hrunning⟩
  · have hsteps := s.stepsOfRun_eq_limit hlast
    refine ⟨hsteps, ?_⟩
    rw [hsteps] at hlast
    cases limit with
    | zero => exact hrunning
    | succ i => exact (running_of_step (Option.some.inj hlast)).2

/-- The calls of steps up to an announced halt end with the announcement. -/
theorem callsUpTo_of_announcesHalt (s : Session σ) {i : Nat}
    (h : (s.after i).machine.AnnouncesHalt (s.after i).console) :
    ∃ earlier, s.callsUpTo (i + 1) = earlier ++ haltCalls := by
  obtain ⟨-, -, hcalls⟩ := h
  refine ⟨s.callsUpTo i ++ (s.after i).machine.fetch.transcript (s.after i).console, ?_⟩
  rw [callsUpTo_succ, List.append_assoc]
  exact congrArg _ hcalls

/-- A machine halts exactly in a step that announces the halt or fails, and
remains halted in every history.  Steps and runs after that have no effect.  A
run succeeds exactly by an announced halt, which then makes its last calls, and
fails exactly by the fault of its last step. -/
theorem halting_exact (session : Session σ) (hrunning : session.machine.status = .running)
    (ops : List (Operation σ)) :
    let reached := (session.performAll ops).2
    (reached.machine.status = .halted ↔
      ∃ before op rest i, ops = before ++ op :: rest ∧
        (session.performAll before).2.stepsOf op = i + 1 ∧
        ((session.performAll before).2.after i).StopsNext) ∧
      (reached.machine.status = .halted → ∀ more : List (Operation σ),
        (reached.performAll more).2.machine.status = .halted ∧
          ((∀ op ∈ more, op.Drives) →
            (reached.performAll more).1 = more.map Operation.haltedOutcome ∧
              reached.callsOf more = [] ∧
              (reached.performAll more).2.SameState reached)) ∧
      (reached.machine.status = .running → ∀ limit : Nat,
        let n := reached.stepsOfRun limit
        (reached.run limit).2.SameState (reached.after n) ∧
          (∀ i, i < n → (reached.after i).machine.status = .running) ∧
          ((reached.run limit).1 = some (.ok ()) ↔
            ∃ i, n = i + 1 ∧
              (reached.after i).machine.AnnouncesHalt (reached.after i).console) ∧
          ((reached.run limit).1 = some (.ok ()) →
            ∃ earlier, reached.callsUpTo n = earlier ++ haltCalls) ∧
          (∀ fault, (reached.run limit).1 = some (.error fault) ↔
            ∃ i, n = i + 1 ∧ (reached.after i).step.1 = .error fault) ∧
          ((reached.run limit).1 = none →
            n = limit ∧ (reached.after n).machine.status = .running)) := by
  intro reached
  refine ⟨session.performAll_halted_iff hrunning ops, ?_, ?_⟩
  · intro hhalted more
    exact ⟨reached.performAll_of_halted hhalted more,
      reached.performAll_drives_of_halted hhalted more⟩
  · intro hreached limit n
    have hok := reached.run_ok_iff hreached limit
    refine ⟨reached.run_sameState limit, ?_, hok, ?_, reached.run_error_iff limit, ?_⟩
    · intro i hi
      exact reached.running_of_lt hreached (fun _ => reached.resultAt_of_lt_stepsOfRun) hi
    · intro h
      obtain ⟨i, hn, hannounces⟩ := hok.mp h
      have hsteps : n = i + 1 := hn
      rw [hsteps]
      exact reached.callsUpTo_of_announcesHalt hannounces
    · intro h
      obtain ⟨hsteps, hstatus⟩ := reached.run_none hreached h
      have hlimit : n = limit := hsteps
      rw [hlimit]
      exact ⟨rfl, hstatus⟩

/-- A session whose next instruction halts the machine. -/
def haltingSession : Session Buffer where
  machine := .holding 0xF025
  console := .ofInput []
  log := none

theorem announcesHalt_haltingSession :
    haltingSession.machine.AnnouncesHalt haltingSession.console := by
  have hserved : ((TrapRoutine.halt.serve 0 haltingSession.machine.memory).run.hold
      haltingSession.console).1 = .ok .halt := by
    unfold TrapRoutine.serve
    rw [TrapRoutine.haltNotice_bytes]
    rfl
  have hword : (ArchState.of haltingSession.machine haltingSession.console).fetch.1 = 0xF025 := by
    rw [ArchState.fetch_of]
    exact congrArg (fun d => (d.hold haltingSession.console).1.1) (Machine.fetch_holding 0xF025)
  unfold Machine.AnnouncesHalt
  rw [hword, Machine.transcript_step _ _ rfl, List.append_cancel_left_eq]
  have hfetch : haltingSession.machine.fetch = _ := Machine.fetch_holding 0xF025
  rw [hfetch]
  refine ⟨by decide, by decide, ?_⟩
  show (Machine.trap _ 0x3000 0x25).transcript haltingSession.console = _
  rw [Machine.transcript_trap_known _ _ (show TrapRoutine.ofVector? 0x25 = some .halt from rfl)]
  exact (TrapRoutine.serve_halt_ok_iff _ _ _).mp ⟨_, hserved⟩

/-- The halting session halts in its only step and stays as it is. -/
theorem halting_exact_haltingSession :
    (haltingSession.performAll [.step]).2.machine.status = .halted ∧
      ((haltingSession.performAll [.step]).2.performAll [.step, .run 3]).1 =
        [.stepped (.ok .halted), .ran (some (.ok ()))] ∧
      (haltingSession.run 1).1 = some (.ok ()) := by
  have hannounces := announcesHalt_haltingSession
  obtain ⟨hiff, hafter, -⟩ := halting_exact haltingSession rfl [.step]
  obtain ⟨-, -, hrun⟩ := halting_exact haltingSession rfl []
  have hhalted := hiff.mpr ⟨[], .step, [], 0, rfl, rfl, rfl, Or.inl hannounces⟩
  obtain ⟨-, hdriven⟩ := hafter hhalted [.step, .run 3]
  obtain ⟨-, -, hok, -⟩ := hrun rfl 1
  have hsteps : haltingSession.stepsOfRun 1 = 1 := by
    obtain ⟨-, hlow, hhigh, -⟩ := haltingSession.progress_reached 1
    exact Nat.le_antisymm hhigh hlow
  refine ⟨hhalted, (hdriven ?_).1, hok.mpr ⟨0, hsteps, hannounces⟩⟩
  intro op hop
  simp only [List.mem_cons, List.not_mem_nil, or_false] at hop
  rcases hop with rfl | rfl
  · exact trivial
  · exact Nat.succ_pos 2

end Session

end Lc3
