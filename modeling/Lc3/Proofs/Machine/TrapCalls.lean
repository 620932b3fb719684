import Lc3.Proofs.Console.Plan
import Lc3.Proofs.Console.Waiting
import Lc3.Proofs.Machine.Halt
import Lc3.Proofs.Machine.StepCases

/-!
# The console calls of traps

A step at a `TRAP` to a routine makes the calls of the routine's plan, all of them if
none fails and otherwise those up to the first one that does.  The plan depends on R0,
the string at R0 and the byte that is read.  A string has no more cells than there are
addresses, so the plan ends whatever the memory holds.
-/

namespace Lc3

namespace TrapRoutine

open Dialogue

variable {σ : Type} [Console σ]

/-- The byte that the calls have read, if there is one. -/
def keyOf (calls : List ConsoleCall) : UInt8 := (received calls).headD 0

theorem keyOf_of_received {calls : List ConsoleCall} {byte : UInt8} (h : received calls = [byte]) :
    keyOf calls = byte := by
  simp [keyOf, h]

/-- A routine that reads and succeeds has read one byte, which is its effect. -/
theorem received_of_reads {routine : TrapRoutine} (hreads : routine.Reads) (r0 : Word)
    (mem : Memory) (console : σ) {effect : ServiceEffect}
    (h : ((routine.serve r0 mem).run.hold console).1 = .ok effect) :
    ∃ byte, received ((routine.serve r0 mem).run.transcript console) = [byte] ∧
      effect = .key byte := by
  rcases hreads with rfl | rfl
  · rcases serve_getc_cases r0 mem console with ⟨byte, hbyte, hend⟩ | ⟨cause, -, hend⟩
    · exact ⟨byte, hbyte, Except.ok.inj (h.symm.trans hend)⟩
    · cases h.symm.trans hend
  · rcases serve_input_cases r0 mem console with
      ⟨byte, hbyte, hend⟩ | ⟨cause, -, hend⟩ | ⟨byte, cause, -, hend, -⟩
    · exact ⟨byte, hbyte, Except.ok.inj (h.symm.trans hend)⟩
    · cases h.symm.trans hend
    · cases h.symm.trans hend

/-- The effect of a routine that succeeds. -/
theorem effect_of_serve (routine : TrapRoutine) (r0 : Word) (mem : Memory) (console : σ)
    {effect : ServiceEffect} (h : ((routine.serve r0 mem).run.hold console).1 = .ok effect) :
    effect = routine.effect (keyOf ((routine.serve r0 mem).run.transcript console)) := by
  by_cases hreads : routine.Reads
  · obtain ⟨byte, hbyte, heffect⟩ := received_of_reads hreads r0 mem console h
    rw [keyOf_of_received hbyte, heffect]
    rcases hreads with rfl | rfl <;> rfl
  · cases routine with
    | getc | input => simp [Reads] at hreads
    | out | puts | putsp | halt =>
        obtain ⟨_, _, _, heffect⟩ := ok_of_hold_bind h
        cases heffect
        rfl

/-- The byte that `IN` reads after its prompt is the only one that it reads. -/
theorem keyOf_input (r0 : Word) (mem : Memory) {console waiting reading : σ} {byte : UInt8}
    (hprompt : (print [inputPrompt]).run.hold console = (.ok (), waiting))
    (hread : Dialogue.read.run.hold waiting = (.ok byte, reading)) :
    keyOf ((input.serve r0 mem).run.transcript console) = byte := by
  have hcall : Dialogue.read.run.transcript waiting =
    [.readChar (Dialogue.read.run.hold waiting).1] := rfl
  have htaken : ∀ calls, received (.readChar (.ok byte) :: calls) = byte :: received calls :=
    fun calls => received_readChar (.ok byte) calls
  unfold serve keyOf
  dsimp only
  rw [transcript_run_bind, received_append, received_print, hprompt]
  dsimp only
  rw [transcript_run_bind, hcall, hread]
  simp [htaken]

/-- A routine carries out its plan. -/
theorem carries_plan (routine : TrapRoutine) (r0 : Word) (mem : Memory) (console : σ) :
    Carries
      (routine.plan r0 (mem.stringAt r0) (keyOf ((routine.serve r0 mem).run.transcript console)))
      (routine.serve r0 mem) console := by
  cases routine with
  | getc =>
      exact carries_bind (carries_read console) fun byte console' _ =>
        carries_pure (ServiceEffect.key byte) console'
  | out =>
      refine carries_print_pure _ ?_ console
      simp [plan, outputOf, Word.ofNat_bits_low]
  | puts =>
      refine carries_print_pure _ ?_ console
      simp [plan, outputOf, Word.ofNat_bits_low]
  | input =>
      refine carries_bind (carries_print [inputPrompt] console) fun _ waiting hprompt => ?_
      refine carries_bind (carries_read waiting) fun byte reading hread => ?_
      rw [keyOf_input r0 mem hprompt hread]
      refine carries_print_pure _ ?_ reading
      rfl
  | putsp =>
      refine carries_print_pure _ ?_ console
      rw [← funext charsOfCell_eq]
      rfl
  | halt =>
      refine carries_print_pure _ ?_ console
      rw [haltNotice_bytes]
      rfl

theorem stringCells_length_le (cell : Word → Word) (start : Word) :
    (stringCells cell start).length ≤ 65536 := by
  have hle := (List.takeWhile_prefix (· != 0) (l := (circuit start).map cell)).length_le
  simpa [stringCells, circuit] using hle

/-- The two characters of a cell make at most two requests. -/
theorem length_flatMap_charsOfCell_le (cells : List Word) :
    (cells.flatMap charsOfCell).length ≤ 2 * cells.length := by
  induction cells with
  | nil => simp
  | cons cell rest ih =>
      have hcell : (charsOfCell cell).length ≤ 2 := by
        unfold charsOfCell
        split_ifs <;> simp
      rw [List.flatMap_cons, List.length_append, List.length_cons]
      omega

theorem plan_length_le (routine : TrapRoutine) (r0 : Word) {string : List Word} (key : UInt8)
    (h : string.length ≤ 65536) : (routine.plan r0 string key).length ≤ 131073 := by
  have hpacked := length_flatMap_charsOfCell_le string
  cases routine with
  | getc | out | input | halt => simp [plan]
  | puts =>
      simp [plan]
      omega
  | putsp =>
      unfold plan
      rw [List.length_append, List.length_map, List.length_singleton]
      omega

end TrapRoutine

namespace ArchState

open TrapRoutine

variable {σ : Type}

/-- The state after a routine that has succeeded. -/
theorem carryOut_effect (s : ArchState σ) (hrunning : s.status = .running)
    (routine : TrapRoutine) (key : UInt8) :
    s.carryOut (routine.effect key) =
      { s with
        register :=
          if routine.Reads then Function.update s.register 0 key.toUInt16 else s.register
        status := if routine = .halt then .halted else .running } := by
  cases routine <;> simp [carryOut, effect, Reads, ← hrunning]

theorem fetch_eq_goto [Console σ] (s : ArchState σ) (hpc : s.pc ≠ 0xFE00) :
    s.fetch.2 = s.goto (UInt16.ofInt (s.pc.toNat + 1)) := by
  unfold fetch
  rw [load_of_ne s hpc]

end ArchState

namespace Machine

open ArchState TrapRoutine Dialogue

variable {σ : Type} [Console σ]

/-- A `TRAP` is fetched without a call, and the routine finds memory as it is. -/
theorem service_of_ne (m : Machine) (console : σ) {routine : TrapRoutine}
    (hpc : m.registers.pc ≠ 0xFE00) :
    m.service console routine = routine.serve ((of m console).register 0) m.memory := by
  unfold service
  rw [fetch_of, fetch_of_ne m hpc]
  rfl

/-- The outcome of the routine that a step at a `TRAP` runs. -/
def trapOutcome (m : Machine) (console : σ) (routine : TrapRoutine) :
    Except ConsoleError ServiceEffect :=
  ((routine.serve ((of m console).register r0) m.memory).run.hold console).1

/-- The plan of the routine that a step at a `TRAP` runs. -/
def trapPlan (m : Machine) (console : σ) (routine : TrapRoutine) : List ConsoleRequest :=
  let before := of m console
  routine.plan (before.register r0) (stringCells before.cell (before.register r0))
    (keyOf (m.step.transcript console))

section Step

variable (m : Machine) (console : σ) {routine : TrapRoutine} (hrunning : m.status = .running)
  (hword : (of m console).fetch.1.Invokes routine)

include hrunning hword

theorem transcript_of_invokes :
    m.step.transcript console =
      (routine.serve ((of m console).register 0) m.memory).run.transcript console := by
  have hpc := (of m console).pc_ne_of_invokes hword
  have hcalls := (m.step_of_invokes console hrunning hword).1
  rw [service_of_ne m console hpc, fetch_eq_goto _ hpc] at hcalls
  exact hcalls

theorem step_carried :
    Carried (m.trapPlan console routine) (m.step.transcript console)
      (errorOf (m.trapOutcome console routine)) := by
  have hcarries := carries_plan routine ((of m console).register 0) m.memory console
  rw [stringAt_eq_stringCells, ← m.transcript_of_invokes console hrunning hword] at hcarries
  unfold Carries at hcarries
  rw [← m.transcript_of_invokes console hrunning hword] at hcarries
  exact hcarries

/-- A step whose routine succeeds has the routine's effect and moves on. -/
theorem step_of_outcome_ok {effect : ServiceEffect}
    (houtcome : m.trapOutcome console routine = .ok effect) :
    (∃ status, (m.step.hold console).1.result = .ok status) ∧
      of (m.step.hold console).1.machine (m.step.hold console).2 =
        { ((of m console).goto (UInt16.ofInt ((of m console).pc.toNat + 1))).carryOut effect with
          console := (m.step.hold console).2 } := by
  have hpc := (of m console).pc_ne_of_invokes hword
  have hends := (m.step_of_invokes console hrunning hword).2
  rw [service_of_ne m console hpc, fetch_eq_goto _ hpc] at hends
  rcases hends with ⟨found, console', hserved, hresult, hafter⟩ | ⟨cause, console', hserved, -⟩
  · obtain rfl : found = effect := Except.ok.inj ((congrArg Prod.fst hserved).symm.trans houtcome)
    obtain rfl : (m.step.hold console).2 = console' := congrArg ArchState.console hafter
    exact ⟨hresult, hafter⟩
  · cases (congrArg Prod.fst hserved).symm.trans houtcome

theorem step_of_outcome_error {cause : ConsoleError}
    (houtcome : m.trapOutcome console routine = .error cause) :
    (m.step.hold console).1.result = .error (.console routine m.registers.pc cause) := by
  have hpc := (of m console).pc_ne_of_invokes hword
  have hends := (m.step_of_invokes console hrunning hword).2
  rw [service_of_ne m console hpc, fetch_eq_goto _ hpc] at hends
  rcases hends with ⟨effect, console', hserved, -⟩ | ⟨found, console', hserved, hresult, -⟩
  · cases (congrArg Prod.fst hserved).symm.trans houtcome
  · obtain rfl : found = cause := Except.error.inj ((congrArg Prod.fst hserved).symm.trans houtcome)
    exact hresult

end Step

/-- A step at a `TRAP` makes all calls of the routine's plan if they succeed and then has
the routine's effect alone.  Otherwise it makes those up to the first one that fails. -/
theorem step_carries_out_plan (m : Machine) (console : σ) (routine : TrapRoutine)
    (hrunning : m.status = .running) (hword : (of m console).fetch.1.Invokes routine) :
    let before := of m console
    let calls := m.step.transcript console
    let key := keyOf calls
    let plan := routine.plan (before.register 0)
      (stringCells before.cell (before.register 0)) key
    let result := (m.step.hold console).1.result
    let after := of (m.step.hold console).1.machine (m.step.hold console).2
    calls.length ≤ 131073 ∧
      (((∀ call ∈ calls, call.failure? = none) ∧
          calls.map ConsoleCall.request = plan ∧
          (routine.Reads → received calls = [key]) ∧
          result = .ok after.status ∧
          after.pc = UInt16.ofInt (before.pc.toNat + 1) ∧
          after.register =
            (if routine.Reads then Function.update before.register 0 key.toUInt16
              else before.register) ∧
          after.condition = before.condition ∧
          after.cell = before.cell ∧
          after.status = (if routine = .halt then .halted else .running)) ∨
        ∃ earlier last cause, calls = earlier ++ [last] ∧
          (∀ call ∈ earlier, call.failure? = none) ∧
          last.failure? = some cause ∧
          calls.map ConsoleCall.request <+: plan ∧
          result = .error (.console routine before.pc cause)) := by
  intro before calls key plan result after
  have hcarried : Carried plan calls (errorOf (m.trapOutcome console routine)) :=
    m.step_carried console hrunning hword
  refine ⟨hcarried.length_le.trans (plan_length_le _ _ _ (stringCells_length_le _ _)), ?_⟩
  cases houtcome : m.trapOutcome console routine with
  | ok effect =>
      rw [houtcome] at hcarried
      obtain ⟨hrequests, hsucceed⟩ := hcarried.of_none
      obtain ⟨⟨status, hok⟩, hafter⟩ := m.step_of_outcome_ok console hrunning hword houtcome
      have hstatus := m.step_status console
      rw [hok] at hstatus
      have hcalls := m.transcript_of_invokes console hrunning hword
      have heffect := effect_of_serve routine _ _ console houtcome
      rw [← hcalls] at heffect
      rw [heffect, carryOut_effect _ hrunning] at hafter
      refine Or.inl ⟨hsucceed, hrequests, fun hreads => ?_, ?_, ?_⟩
      · obtain ⟨byte, hbyte, -⟩ := received_of_reads hreads _ _ console houtcome
        rw [← hcalls] at hbyte
        exact hbyte.trans (congrArg (fun byte => [byte]) (keyOf_of_received hbyte).symm)
      · exact hok.trans (congrArg _ hstatus.symm)
      · rw [show after = _ from hafter]
        exact ⟨rfl, rfl, rfl, rfl, rfl⟩
  | error cause =>
      rw [houtcome] at hcarried
      obtain ⟨hmade, earlier, last, hsplit, hlast, hearlier⟩ := hcarried.of_some
      exact Or.inr ⟨earlier, last, cause, hsplit, hearlier, hlast, hmade,
        m.step_of_outcome_error console hrunning hword houtcome⟩

/-- When its echo fails, `IN` has made four of its five calls and does not flush again. -/
theorem step_requests_failingEcho :
    ((holding 0xF023).step.transcript failingEcho).map ConsoleCall.request =
        [.writeChar 0x20, .flush, .readChar, .writeChar 0x79] ∧
      ∃ rest, TrapRoutine.input.plan 0 [] 0x79 =
        ((holding 0xF023).step.transcript failingEcho).map ConsoleCall.request ++ rest := by
  have hword : (of (holding 0xF023) failingEcho).fetch.1 = 0xF023 := by
    rw [fetch_of, fetch_holding]
    rfl
  have hcalls : (holding 0xF023).step.transcript failingEcho =
      [.writeChar 0x20 (.ok ()), .flush (.ok ()), .readChar (.ok 0x79),
        .writeChar 0x79 (.error (Scripted.failure "write" 1))] := by
    rw [transcript_step (holding 0xF023) failingEcho rfl, fetch_holding]
    exact transcript_trap_known _ _ (show TrapRoutine.ofVector? 0x23 = some .input from rfl)
      failingEcho
  obtain ⟨-, ⟨hsucceed, -⟩ | ⟨earlier, last, cause, -, -, -, ⟨rest, hrest⟩, -⟩⟩ :=
    step_carries_out_plan (holding 0xF023) failingEcho .input rfl
      (by rw [hword]; exact ⟨by decide, by decide⟩)
  · cases hsucceed (.writeChar 0x79 (.error (Scripted.failure "write" 1))) (by rw [hcalls]; simp)
  · refine ⟨by rw [hcalls]; rfl, rest, ?_⟩
    have hkey : keyOf ((holding 0xF023).step.transcript failingEcho) = 0x79 := by
      rw [hcalls]
      rfl
    rw [hrest, hkey]
    simp [TrapRoutine.plan]

end Machine

end Lc3
