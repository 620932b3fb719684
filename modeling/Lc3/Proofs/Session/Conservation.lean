import Lc3.Proofs.Session.Intake

/-!
# Conservation of input

No byte of input is lost, given twice or given out of order: the bytes that the
steps of a history have taken, followed by those that are still in the queue, are
the first input followed by all that was appended.  At most one byte that was
taken does not reach the program, and then it is the last one.
-/

namespace Lc3

open QueueConsole (remaining)

/-- What a host does that loads images, appends input and makes steps. -/
inductive Turn
  | load (stream : ByteStream)
  | loadImage (image : Image)
  | append (bytes : List UInt8)
  | step

namespace Turn

/-- The input that the turn adds. -/
def appended : Turn → List UInt8
  | append bytes => bytes
  | _ => []

def action {σ : Type} [Console σ] [InputConsole σ] : Turn → Action σ
  | load stream => .load stream
  | loadImage image => .loadImage image
  | append bytes => .adjust fun console => InputConsole.append console bytes
  | step => .step

end Turn

namespace Moment

variable {σ : Type} [Console σ]

/-- The bytes that the action takes. -/
def taken (moment : Moment σ) : List UInt8 :=
  match moment.action with
  | .step => moment.session.taken
  | _ => []

/-- Only a step of a running machine takes input. -/
theorem running_of_taken {moment : Moment σ} {byte : UInt8} (h : byte ∈ moment.taken) :
    moment.action = .step ∧ moment.session.machine.status = .running ∧
      byte ∈ moment.session.taken := by
  rcases moment with ⟨s, action⟩
  cases action with
  | step =>
      cases hstatus : s.machine.status with
      | halted =>
          have hnone := s.taken_of_halted hstatus
          rw [show taken ⟨s, .step⟩ = s.taken from rfl, hnone] at h
          cases h
      | running => exact ⟨rfl, rfl, h⟩
  | load _ | loadImage _ | write _ _ | adjust _ => cases h

end Moment

namespace Session

variable {σ : Type} [Console σ]

theorem act_of_halted (s : Session σ) (h : s.machine.status = .halted) (action : Action σ) :
    (s.act action).machine.status = .halted := by
  cases action with
  | load stream =>
      show (s.load stream).2.machine.status = .halted
      rw [load_eq]
      cases stream.verdict <;> exact h
  | loadImage _ | write _ _ | adjust _ => exact h
  | step =>
      rw [act_step, s.step_of_halted h]
      exact h

/-- Nothing is taken after the halt. -/
theorem taken_history_of_halted (s : Session σ) (h : s.machine.status = .halted)
    (actions : List (Action σ)) :
    (s.history actions).flatMap Moment.taken = [] ∧
      (s.actAll actions).machine.status = .halted := by
  induction actions generalizing s with
  | nil => exact ⟨rfl, h⟩
  | cons action rest ih =>
      obtain ⟨hrest, hstatus⟩ := ih _ (s.act_of_halted h action)
      have hnone : Moment.taken ⟨s, action⟩ = [] := by
        cases action with
        | step => exact s.taken_of_halted h
        | load _ | loadImage _ | write _ _ | adjust _ => rfl
      rw [history_cons, List.flatMap_cons, hnone, hrest]
      exact ⟨rfl, hstatus⟩

variable [InputConsole σ]

/-- A turn adds its input at the end of the queue and takes from its front. -/
theorem remaining_act (s : Session σ) (turn : Turn) :
    remaining s.console ++ turn.appended =
      Moment.taken ⟨s, turn.action⟩ ++ remaining (s.act turn.action).console := by
  cases turn with
  | load stream =>
      show remaining s.console ++ [] = remaining (s.load stream).2.console
      rw [load_eq, List.append_nil]
      cases stream.verdict <;> rfl
  | loadImage image => exact List.append_nil _
  | append bytes => exact (InputConsole.remaining_append s.console bytes).symm
  | step =>
      have hstep := s.machine.step.remaining_hold s.console
      exact (List.append_nil _).trans hstep

theorem remaining_actAll (s : Session σ) (turns : List Turn) :
    remaining s.console ++ turns.flatMap Turn.appended =
      (s.history (turns.map Turn.action)).flatMap Moment.taken ++
        remaining (s.actAll (turns.map Turn.action)).console := by
  induction turns generalizing s with
  | nil => exact List.append_nil _
  | cons turn rest ih =>
      rw [List.map_cons, history_cons, actAll_cons, List.flatMap_cons, List.flatMap_cons,
        ← List.append_assoc, remaining_act, List.append_assoc, ih, List.append_assoc]

theorem history_turn_step (s : Session σ) :
    s.history ([Turn.step].map Turn.action) = [⟨s, .step⟩] := rfl

theorem actAll_turn_step (s : Session σ) :
    s.actAll ([Turn.step].map Turn.action) = s.step.2 := rfl

/-- The first input and all that was appended is what the steps have taken, in
order, and what remains.  Each step takes what its `GETC`, `IN` or poll gives the
program.  A byte that does not reach the program is the last one that was taken,
and the machine has halted with the failure of an `IN` to echo it. -/
theorem input_conserved (console : σ) (turns : List Turn) :
    let history := (start console).history (turns.map Turn.action)
    let reached := (start console).actAll (turns.map Turn.action)
    remaining console ++ turns.flatMap Turn.appended =
        history.flatMap Moment.taken ++ remaining reached.console ∧
      (∀ s, ⟨s, .step⟩ ∈ history → s.machine.status = .running → s.Intake) ∧
      ∀ before moment later, history = before ++ moment :: later → ∀ byte ∈ moment.taken,
        moment.action = .step ∧ moment.session.machine.status = .running ∧
          (moment.session.Delivers byte ∨
            (moment.session.LosesEcho byte ∧ later.flatMap Moment.taken = [] ∧
              reached.machine.status = .halted)) := by
  intro history reached
  refine ⟨(start console).remaining_actAll turns, fun s _ => s.intake, ?_⟩
  intro before moment later hhistory byte hbyte
  obtain ⟨hstep, hrunning, htaken⟩ := Moment.running_of_taken hbyte
  refine ⟨hstep, hrunning, ?_⟩
  refine (moment.session.delivers_or_losesEcho hrunning htaken).imp_right fun hlost => ?_
  obtain ⟨rest, rfl, hreached⟩ := exists_rest_of_history_eq hhistory
  have hhalted : moment.after.machine.status = .halted := by
    obtain ⟨-, cause, -, -, hhalted⟩ := hlost
    unfold Moment.after
    rw [hstep]
    exact hhalted
  obtain ⟨hnone, hstatus⟩ := moment.after.taken_history_of_halted hhalted rest
  refine ⟨hlost, hnone, ?_⟩
  rw [show reached = _ from hreached]
  exact hstatus

/-- A console whose second flush fails, which is that of an echo by `IN`. -/
def silentEcho : Scripted := .ofInput ⟨[], [], [1], #[]⟩ [0x42]

/-- `IN` at the start address takes the byte and cannot echo it. -/
theorem input_silentEcho (s : Session Scripted) (hrunning : s.machine.status = .running)
    (hpc : s.arch.pc = 0x3000) (hcell : s.arch.cell 0x3000 = 0xF023)
    (hregister : s.arch.register 0 = 0) (hconsole : s.console = silentEcho.pushInput [0x43]) :
    s.arch.fetch.1.Invokes .input ∧ ConsoleCall.readChar (.ok 0x42) ∈ s.calls ∧
      ¬ s.Delivers 0x42 := by
  have hfetch := s.fetch_at_start hpc hcell
  have hword : s.arch.fetch.1.Invokes .input := by
    rw [hfetch]
    show Word.Invokes 0xF023 .input
    exact ⟨by decide, by decide⟩
  have hfetched : s.arch.fetch.2.console = silentEcho.pushInput [0x43] := by
    rw [hfetch, ← hconsole]
    rfl
  have hserved : ∀ (r0 : Word) (mem : Memory), ∃ cause,
      ((TrapRoutine.input.serve r0 mem).run.hold (silentEcho.pushInput [0x43])).1 =
        .error cause := fun _ _ => ⟨_, rfl⟩
  have hread : ∀ (r0 : Word) (mem : Memory), ConsoleCall.readChar (.ok 0x42) ∈
      (TrapRoutine.input.serve r0 mem).run.transcript (silentEcho.pushInput [0x43]) :=
    fun _ _ => List.mem_of_getElem? (i := 2) rfl
  obtain ⟨cause, hfailed⟩ := hserved (s.arch.fetch.2.register 0)
    (s.machine.fetch.hold s.console).1.2.memory
  rw [← hfetched] at hfailed
  obtain ⟨-, -, hkept⟩ := s.error_of_invokes hrunning hword hfailed
  refine ⟨hword, ?_, ?_⟩
  · rw [s.calls_of_invokes hrunning hword, hfetched]
    exact hread (s.arch.fetch.2.register 0) (s.machine.fetch.hold s.console).1.2.memory
  · rintro (⟨-, hgiven⟩ | ⟨⟨reading, hmem, hpolls⟩, -⟩)
    · rw [hkept, hregister] at hgiven
      revert hgiven
      decide
    · have hnone := (s.arch.stepReadings_of_invokes hword).1
      rw [ArchState.polls_eq_of_mem hmem hpolls] at hnone
      cases hnone

/-- `IN` at the start address, and one more byte of input before it is executed. -/
def inputThenAppend : List Turn := [.loadImage ⟨0x3000, [0xF023], by decide⟩, .append [0x43]]

/-- The byte that cannot be echoed is taken and lost, and the one after it remains. -/
theorem input_conserved_silentEcho :
    let waiting := (start silentEcho).actAll (inputThenAppend.map Turn.action)
    waiting.taken = [0x42] ∧ remaining waiting.step.2.console = [0x43] ∧
      waiting.LosesEcho 0x42 ∧ waiting.step.2.machine.status = .halted := by
  have hrunning : ((start silentEcho).actAll
      (inputThenAppend.map Turn.action)).machine.status = .running := rfl
  have hpc : ((start silentEcho).actAll (inputThenAppend.map Turn.action)).arch.pc = 0x3000 := rfl
  have hcell : ((start silentEcho).actAll
      (inputThenAppend.map Turn.action)).arch.cell 0x3000 = 0xF023 := Memory.peek_write_self _ _ _
  have hregister : ((start silentEcho).actAll
      (inputThenAppend.map Turn.action)).arch.register 0 = 0 := rfl
  have hconsole : ((start silentEcho).actAll (inputThenAppend.map Turn.action)).console =
      silentEcho.pushInput [0x43] := rfl
  have hnothing : ((start silentEcho).history (inputThenAppend.map Turn.action)).flatMap
      Moment.taken = [] := rfl
  have hinput : remaining silentEcho ++ (inputThenAppend.flatMap Turn.appended ++
      [Turn.step].flatMap Turn.appended) = [0x42, 0x43] := rfl
  obtain ⟨hconserved, hintake, hdelivered⟩ :=
    input_conserved silentEcho (inputThenAppend ++ [.step])
  rw [List.map_append, history_append, actAll_append, history_turn_step, actAll_turn_step,
    List.flatMap_append, List.flatMap_append] at hconserved
  rw [List.map_append, history_append, history_turn_step] at hintake hdelivered
  rw [actAll_append, actAll_turn_step] at hdelivered
  generalize (start silentEcho).actAll (inputThenAppend.map Turn.action) = s at *
  obtain ⟨hword, hread, hundelivered⟩ := s.input_silentEcho hrunning hpc hcell hregister hconsole
  have hmem : (⟨s, .step⟩ : Moment Scripted) ∈
      (start silentEcho).history (inputThenAppend.map Turn.action) ++ [⟨s, .step⟩] :=
    List.mem_append_right _ (List.mem_cons_self ..)
  have htaken : s.taken = [0x42] := (hintake s hmem hrunning).input hword 0x42 hread
  have hbyte : (0x42 : UInt8) ∈ Moment.taken ⟨s, .step⟩ := by
    show (0x42 : UInt8) ∈ s.taken
    rw [htaken]
    exact List.mem_singleton_self _
  obtain ⟨-, -, hend⟩ := hdelivered _ ⟨s, .step⟩ [] rfl 0x42 hbyte
  obtain ⟨hlost, -, hhalted⟩ := hend.resolve_left hundelivered
  have hstep : [(⟨s, .step⟩ : Moment Scripted)].flatMap Moment.taken = s.taken :=
    List.append_nil _
  rw [hinput, hnothing, hstep, htaken, List.nil_append, List.singleton_append] at hconserved
  exact ⟨htaken, (List.cons_eq_cons.mp hconserved).2.symm, hlost, hhalted⟩

end Session

end Lc3
