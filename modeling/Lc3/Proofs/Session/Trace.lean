import Lc3.Proofs.Session.Halting
import Lc3.Proofs.Session.History

/-!
# The log of a run

A step of a running machine logs the word that it executes, with the address it
was fetched from, and after it the fault that the word has raised.  A step of a
halted machine logs nothing.  The log of a run is made of these: it names the
start, every executed word in order and the end.
-/

namespace Lc3

namespace Log

theorem addAll_append (log : Log) (first rest : List Record) :
    log.addAll (first ++ rest) = (log.addAll first).addAll rest := by
  cases log with
  | none => rfl
  | some records => exact congrArg some (Array.ext' (by simp))

theorem add_eq_addAll (log : Log) (record : Record) : log.add record = log.addAll [record] := by
  cases log <;> simp [add, addAll]

end Log

namespace Record

/-- A record as it is printed: its level and its text. -/
def line (record : Record) : String × String := (record.level, record.text)

/-- What a failed result adds to the log. -/
def warnings {α : Type} : Except Fault α → List Record
  | .ok _ => []
  | .error fault => [.faulted fault]

/-- The last record of a run that has ended with this result at this program
counter. -/
def ending : Except Fault Unit → Word → Record
  | .ok _, pc => .haltedAt pc
  | .error fault, _ => .faulted fault

end Record

namespace Machine

open ArchState

variable {σ : Type} [Console σ]

theorem settle_log (record : Record) (execution : Execution) :
    (settle record execution).log =
      record :: Record.warnings (settle record execution).result := by
  rcases execution with ⟨m, _ | fault⟩ <;> rfl

/-- A step of a running machine logs the program counter before it, the word
that was fetched from there and the fault of its result. -/
theorem step_log_of_running (m : Machine) (console : σ) (hrunning : m.status = .running) :
    (m.step.hold console).1.log =
      .executing m.registers.pc (of m console).fetch.1 ::
        Record.warnings (m.step.hold console).1.result := by
  have hword : (of m console).fetch.1 = (m.fetch.hold console).1.1 :=
    congrArg Prod.fst (fetch_of m console)
  rw [hold_step m console hrunning, settle_log, hword]

end Machine

namespace Session

variable {σ : Type} [Console σ]

/-- The word that the next step fetches: what asking for a key leaves in the
keyboard's status cell, or what any other cell holds. -/
def nextWord (s : Session σ) : Word :=
  if s.machine.registers.pc = 0xFE00 then
    if (ArchState.askKey s.console).1.isSome then 0x8000 else 0
  else s.machine.memory.peek s.machine.registers.pc

theorem fetch_eq_nextWord (s : Session σ) : s.arch.fetch.1 = s.nextWord := by
  show (s.arch.load s.machine.registers.pc).1 = s.nextWord
  unfold nextWord
  by_cases hpc : s.machine.registers.pc = 0xFE00
  · rw [if_pos hpc, hpc, ArchState.load_keyboardStatus]
    rfl
  · rw [if_neg hpc, ArchState.load_of_ne _ hpc]
    rfl

/-- What the next step of the running machine logs before it executes. -/
def executing (s : Session σ) : Record := .executing s.machine.registers.pc s.nextWord

/-- The records of the next step. -/
def stepRecords (s : Session σ) : List Record := (s.machine.step.hold s.console).1.log

/-- The records of the first `n` steps. -/
def recordsUpTo (s : Session σ) (n : Nat) : List Record :=
  (List.range n).flatMap fun i => (s.after i).stepRecords

theorem stepRecords_of_running (s : Session σ) (hrunning : s.machine.status = .running) :
    s.stepRecords = s.executing :: Record.warnings s.step.1 := by
  have hlog := s.machine.step_log_of_running s.console hrunning
  rw [show (ArchState.of s.machine s.console).fetch.1 = s.nextWord from s.fetch_eq_nextWord] at hlog
  exact hlog

theorem stepRecords_of_halted (s : Session σ) (h : s.machine.status = .halted) :
    s.stepRecords = [] := by
  unfold stepRecords
  rw [Machine.step_halted s.machine h]
  rfl

theorem SameState.stepRecords_eq {s t : Session σ} (h : s.SameState t) :
    s.stepRecords = t.stepRecords := by
  unfold stepRecords
  rw [h.machine, h.console]

theorem SameState.recordsUpTo_eq {s t : Session σ} (h : s.SameState t) (n : Nat) :
    s.recordsUpTo n = t.recordsUpTo n := by
  unfold recordsUpTo
  simp only [(h.after _).stepRecords_eq]

theorem recordsUpTo_succ (s : Session σ) (n : Nat) :
    s.recordsUpTo (n + 1) = s.recordsUpTo n ++ (s.after n).stepRecords := by
  unfold recordsUpTo
  rw [List.range_succ, List.flatMap_append, List.flatMap_singleton]

theorem recordsUpTo_of_halted (s : Session σ) (h : s.machine.status = .halted) (n : Nat) :
    s.recordsUpTo n = [] := by
  induction n with
  | zero => rfl
  | succ n ih =>
      rw [recordsUpTo_succ, ih, after_of_halted s h, stepRecords_of_halted s h, List.append_nil]

/-- Steps that leave the machine running log just what they execute. -/
theorem RunsFor.recordsUpTo_eq {s : Session σ} {n : Nat} (h : s.RunsFor n) :
    s.recordsUpTo n = (List.range n).map fun i => (s.after i).executing := by
  induction n with
  | zero => rfl
  | succ n ih =>
      have hlast : (s.after n).step.1 = .ok .running := h n (Nat.lt_succ_self n)
      have hrecords := (s.after n).stepRecords_of_running (running_of_step hlast).1
      rw [hlast] at hrecords
      rw [recordsUpTo_succ, hrecords, ih fun i hi => h i (Nat.lt_succ_of_lt hi), List.range_succ,
        List.map_append]
      rfl

theorem step_log (s : Session σ) : s.step.2.log = s.log.addAll s.stepRecords := rfl

/-- The log after `n` steps. -/
theorem after_log (s : Session σ) (n : Nat) :
    (s.after n).log = s.log.addAll (s.recordsUpTo n) := by
  induction n with
  | zero => exact s.log.addAll_nil.symm
  | succ n ih => rw [after_succ, step_log, ih, recordsUpTo_succ, Log.addAll_append]

/-- The log after a run: its start, the records of its steps and, if it has
succeeded, its end. -/
theorem run_log (s : Session σ) (limit : Nat) :
    (s.run limit).2.log =
      s.log.addAll (.runningFrom s.machine.registers.pc :: s.recordsUpTo (s.stepsOfRun limit) ++
        match (s.run limit).1 with
        | some (.ok ()) => [.haltedAt (s.run limit).2.machine.registers.pc]
        | _ => []) := by
  have hsession : (s.progress limit).session.log =
      s.log.addAll (.runningFrom s.machine.registers.pc ::
        s.recordsUpTo (s.stepsOfRun limit)) := by
    have hnoted : s.noted.log = s.log.addAll [.runningFrom s.machine.registers.pc] :=
      s.log.add_eq_addAll _
    have hrecords := (s.sameState_note (.runningFrom s.machine.registers.pc)).recordsUpTo_eq
    rw [(s.progress_reached limit).1.session, after_log, hnoted, ← Log.addAll_append]
    exact congrArg _ (congrArg _ (hrecords _))
  rw [run_eq, Log.addAll_append, ← hsession]
  rcases (s.progress limit).last with _ | fault | (_ | _)
  · exact (Log.addAll_nil _).symm
  · exact (Log.addAll_nil _).symm
  · exact (Log.addAll_nil _).symm
  · exact Log.add_eq_addAll _ _

/-- A run that ends has made a last step, which has given its result; all steps
before it have left the machine running. -/
theorem run_ends (s : Session σ) {limit : Nat} {result : Except Fault Unit}
    (hends : (s.run limit).1 = some result) :
    ∃ k, s.stepsOfRun limit = k + 1 ∧ s.RunsFor k ∧
      (s.resultAt k = .ok .halted ∧ result = .ok () ∨
        ∃ fault, s.resultAt k = .error fault ∧ result = .error fault) := by
  rw [run_result] at hends
  cases hsteps : s.stepsOfRun limit with
  | zero =>
      rw [hsteps] at hends
      cases hends
  | succ k =>
      rw [hsteps, lastResult_succ] at hends
      refine ⟨k, rfl, fun i hi => s.resultAt_of_lt_stepsOfRun (by rw [hsteps]; omega), ?_⟩
      rcases hresult : s.resultAt k with fault | (_ | _) <;> rw [hresult] at hends <;> cases hends
      · exact Or.inr ⟨fault, rfl, rfl⟩
      · exact Or.inl ⟨rfl, rfl⟩

/-- A step that does not leave the machine running leaves it halted. -/
theorem after_succ_halted (s : Session σ) {n : Nat} (h : s.resultAt n ≠ .ok .running) :
    (s.after (n + 1)).machine.status = .halted := by
  unfold resultAt at h
  rw [after_succ, step_machine, Machine.step_status, ← step_result]
  rcases hresult : (s.after n).step.1 with fault | (_ | _)
  · rfl
  · exact absurd hresult h
  · rfl

/-- The machine runs until after the last of the steps that leave it running. -/
theorem RunsFor.running_of_le {s : Session σ} {n i : Nat} (h : s.RunsFor n)
    (hrunning : s.machine.status = .running) (hi : i ≤ n) :
    (s.after i).machine.status = .running :=
  s.running_of_lt hrunning (fun j hj => h j (Nat.lt_of_succ_lt_succ hj)) (Nat.lt_succ_of_le hi)

/-- The machine stops running after one number of steps only. -/
theorem RunsFor.eq_succ_of_halted {s : Session σ} {k n : Nat} (h : s.RunsFor k)
    (hlast : s.resultAt k ≠ .ok .running) (hrunning : s.machine.status = .running)
    (hbefore : ∀ i < n, (s.after i).machine.status = .running)
    (hafter : (s.after n).machine.status = .halted) : n = k + 1 := by
  rcases Nat.lt_trichotomy n (k + 1) with hlt | heq | hgt
  · cases (h.running_of_le hrunning (Nat.le_of_lt_succ hlt)).symm.trans hafter
  · exact heq
  · cases (s.after_succ_halted hlast).symm.trans (hbefore (k + 1) hgt)

/-- The records of a run that ends are its start, what each of its steps has
executed and its end.  The machine is running before each of these steps and
halted after them. -/
theorem run_records (s : Session σ) {limit : Nat} {result : Except Fault Unit}
    (hends : (s.run limit).1 = some result) :
    ∃ n, (s.run limit).2.SameState (s.after n) ∧
      (∀ i < n, (s.after i).machine.status = .running) ∧
      (s.after n).machine.status = .halted ∧
      (s.run limit).2.log = s.log.addAll (.runningFrom s.machine.registers.pc ::
        ((List.range n).map fun i => (s.after i).executing) ++
          [.ending result (s.run limit).2.machine.registers.pc]) := by
  obtain ⟨k, hsteps, hruns, hlast⟩ := s.run_ends hends
  have hsame := s.run_sameState limit
  have hlog := s.run_log limit
  rw [hsteps] at hsame hlog
  rw [hends] at hlog
  cases hstatus : s.machine.status with
  | halted =>
      -- the run has made a step, but one that has done nothing
      have hnothing := after_of_halted s hstatus
      have hresult : result = .ok () := by
        rcases hlast with ⟨-, h⟩ | ⟨fault, h, -⟩
        · exact h
        · unfold resultAt at h
          rw [hnothing, step_of_halted s hstatus] at h
          cases h
      rw [hnothing] at hsame
      rw [s.recordsUpTo_of_halted hstatus, hresult] at hlog
      refine ⟨0, hsame, fun i hi => absurd hi (Nat.not_lt_zero i), hstatus, ?_⟩
      rw [hlog, hresult]
      rfl
  | running =>
      have hbefore : ∀ i < k + 1, (s.after i).machine.status = .running := fun i hi =>
        hruns.running_of_le hstatus (Nat.le_of_lt_succ hi)
      have hrecords : (s.after k).stepRecords =
          (s.after k).executing :: Record.warnings (s.resultAt k) :=
        (s.after k).stepRecords_of_running (hbefore k (Nat.lt_succ_self k))
      refine ⟨k + 1, hsame, hbefore, s.after_succ_halted ?_, ?_⟩
      · rcases hlast with ⟨h, -⟩ | ⟨fault, h, -⟩ <;> rw [h] <;> simp
      · rw [hlog, recordsUpTo_succ, hruns.recordsUpTo_eq, hrecords, List.range_succ,
          List.map_append]
        rcases hlast with ⟨h, rfl⟩ | ⟨fault, h, rfl⟩ <;> rw [h] <;>
          simp [Record.warnings, Record.ending]

/-- The records of a run on a halted machine are of its start and its end. -/
theorem run_log_of_halted (s : Session σ) (h : s.machine.status = .halted) (limit : Nat) :
    ∃ records, (s.run limit).2.log = s.log.addAll records ∧
      ∀ record ∈ records, record.level = "DEBUG" := by
  refine ⟨_, s.run_log limit, ?_⟩
  rw [s.recordsUpTo_of_halted h]
  intro record hrecord
  rcases List.mem_append.mp hrecord with hstart | hend
  · obtain rfl := List.mem_singleton.mp hstart
    rfl
  · split at hend
    · obtain rfl := List.mem_singleton.mp hend
      rfl
    · cases hend

/-- The line of the next step in the trace: the program counter before it, the
word that it fetches and the instruction that the word is. -/
def traceLine (s : Session σ) : String × String :=
  ("TRACE", "0x" ++ Text.hexWord s.machine.registers.pc ++ ": " ++ Text.hexWord s.nextWord ++ "  "
    ++ (Instruction.decode s.nextWord).text)

/-- The log of a run that ends is a faithful record.  What the run adds to it is
a line for the start, a line for every executed instruction in order, and one
last line: the final program counter if the run has succeeded, else the fault.
The line of an instruction shows the program counter that the steps before have
left, the word that is fetched from there and its disassembly.  A halted machine
executes nothing and warns of nothing. -/
theorem run_leaves_trace (s : Session σ) {earlier : Array Record} (hlog : s.log = some earlier)
    {limit : Nat} {result : Except Fault Unit} (hends : (s.run limit).1 = some result) :
    let reached := (s.run limit).2
    let lastLine := match result with
      | .ok () => ("DEBUG", "halted at 0x" ++ Text.hexWord reached.machine.registers.pc)
      | .error fault => ("WARN", fault.message)
    (∃ (n : Nat) (records : List Record), reached.log = some (earlier ++ records) ∧
      records.map Record.line =
        ("DEBUG", "running from 0x" ++ Text.hexWord s.machine.registers.pc) ::
          ((List.range n).map fun i => (s.after i).traceLine) ++ [lastLine] ∧
      (∀ i < n, (s.after i).machine.status = .running ∧
        (s.after i).arch.fetch.1 = (s.after i).nextWord) ∧
      (s.after n).machine.status = .halted ∧ reached.SameState (s.after n)) ∧
    (s.machine.status = .halted → s.step.2.log = s.log ∧
      ∀ more, ∃ records : List Record, (s.run more).2.log = some (earlier ++ records) ∧
        ∀ record ∈ records, record.level ≠ "TRACE" ∧ record.level ≠ "WARN") := by
  intro reached lastLine
  constructor
  · obtain ⟨n, hsame, hbefore, hafter, hrecords⟩ := s.run_records hends
    rw [hlog] at hrecords
    refine ⟨n, _, hrecords, ?_, fun i hi => ⟨hbefore i hi, (s.after i).fetch_eq_nextWord⟩, hafter,
      hsame⟩
    have hlast : (Record.ending result reached.machine.registers.pc).line = lastLine := by
      cases result <;> rfl
    rw [List.map_append, List.map_cons, List.map_map, List.map_singleton, hlast]
    rfl
  · intro hhalted
    refine ⟨by rw [step_of_halted s hhalted], fun more => ?_⟩
    obtain ⟨records, hadded, hlevel⟩ := s.run_log_of_halted hhalted more
    rw [hlog] at hadded
    refine ⟨records, hadded, fun record hrecord => ?_⟩
    rw [hlevel record hrecord]
    decide

/-- `ST R0, #0` replaces the next instruction, which nothing has been stored in,
by the `RTI` that R0 holds. -/
def storeAhead : Session Buffer where
  machine := (Machine.holding 0x3000).set 0 0x8000
  console := .ofInput []
  log := some #[]

theorem steps_storeAhead (s : Session Buffer) (hrunning : s.machine.status = .running)
    (hpc : s.arch.pc = 0x3000) (hregister : s.arch.register 0 = 0x8000)
    (hword : s.arch.cell 0x3000 = 0x3000) :
    s.RunsFor 1 ∧ s.resultAt 1 = .error (.reservedOpcode .rti 0x8000 0x3001) ∧
      s.traceLine = ("TRACE", "0x3000: 3000  ST R0, #0") ∧
      s.step.2.traceLine = ("TRACE", "0x3001: 8000  RTI") := by
  have hne : s.arch.pc ≠ 0xFE00 := by
    rw [hpc]
    decide
  have hrow : (0x3000 : Word).HasRow := ⟨by decide, by decide, by decide⟩
  have hcell : s.arch.cell s.arch.pc = 0x3000 := by rw [hpc, hword]
  obtain ⟨hresult, hstore⟩ := s.step_of_cell hrunning hne hcell hrow
  have hnext : s.nextWord = 0x3000 := by
    rw [← fetch_eq_nextWord, s.fetch_of_cell hne hcell]
  rw [hpc] at hstore
  have hpc' : s.step.2.arch.pc = 0x3001 := congrArg ArchState.pc hstore
  have hcell' : s.step.2.arch.cell 0x3001 = 0x8000 := by
    calc s.step.2.arch.cell 0x3001
        = Function.update s.arch.cell 0x3001 (s.arch.register 0) 0x3001 :=
          congrFun (congrArg ArchState.cell hstore) _
      _ = 0x8000 := by rw [Function.update_self, hregister]
  have hfetch : s.step.2.arch.fetch.1 = 0x8000 := by
    rw [s.step.2.fetch_of_cell (by rw [hpc']; decide) (by rw [hpc', hcell'])]
  have hnext' : s.step.2.nextWord = 0x8000 := s.step.2.fetch_eq_nextWord.symm.trans hfetch
  refine ⟨(RunsFor.zero s).succ hresult, ?_, ?_, ?_⟩
  · refine (s.step.2.machine.step_result_error_iff s.step.2.console (running_of_step hresult).2
      (.reservedOpcode .rti 0x8000 0x3001)).mpr ?_
    rw [show s.step.2.machine.registers.pc = 0x3001 from hpc',
      show (ArchState.of s.step.2.machine s.step.2.console).fetch.1 = 0x8000 from hfetch]
    exact .rti (by decide)
  · unfold traceLine
    rw [hnext, show s.machine.registers.pc = 0x3000 from hpc]
    rfl
  · unfold traceLine
    rw [hnext', show s.step.2.machine.registers.pc = 0x3001 from hpc']
    rfl

/-- The trace shows the word that was stored, and the fault of its execution ends the log. -/
theorem run_leaves_trace_storeAhead :
    ∃ records : List Record, (storeAhead.run 2).2.log = some ((#[] : Array Record) ++ records) ∧
      records.map Record.line =
        [("DEBUG", "running from 0x3000"),
          ("TRACE", "0x3000: 3000  ST R0, #0"),
          ("TRACE", "0x3001: 8000  RTI"),
          ("WARN", "Reserved opcode RTI (0x8000) at address 0x3001")] := by
  have hlog : storeAhead.log = some #[] := rfl
  have hrunning : storeAhead.machine.status = .running := rfl
  have hpc : storeAhead.arch.pc = 0x3000 := rfl
  have hword : storeAhead.arch.cell 0x3000 = 0x3000 := Memory.peek_write_self _ _ _
  obtain ⟨hruns, hfault, hfirst, hsecond⟩ := steps_storeAhead storeAhead hrunning hpc rfl hword
  have hstop : storeAhead.resultAt 1 ≠ .ok .running := by
    rw [hfault]
    simp
  have hends := (hruns.run_eq hstop (show 1 < 2 by decide)).1
  rw [hfault] at hends
  obtain ⟨⟨n, records, hrecords, hlines, hbefore, hafter, -⟩, -⟩ :=
    run_leaves_trace storeAhead hlog hends
  have hn : n = 2 := hruns.eq_succ_of_halted hstop hrunning (fun i hi => (hbefore i hi).1) hafter
  refine ⟨records, hrecords, ?_⟩
  have hsteps : List.range 2 = [0, 1] := rfl
  rw [hlines, hn, hsteps, List.map_cons, List.map_singleton, after_zero, hfirst, after_succ,
    after_zero, hsecond, show storeAhead.machine.registers.pc = 0x3000 from hpc]
  rfl

end Session

end Lc3
