import Lc3.Proofs.Session.Run

/-!
# Operations on a session

What a host does with a session: it loads images, makes steps and runs, and
changes registers, memory and console as it likes.  Every operation has its
outcome, and the number of machine steps that it makes.
-/

namespace Lc3

/-- One operation of the host. -/
inductive Operation (σ : Type)
  | load (stream : ByteStream)
  | loadImage (image : Image)
  | step
  /-- Run until the program halts or faults, within `limit` steps. -/
  | run (limit : Nat)
  | setRegisters (registers : Registers)
  | setMemory (memory : Memory)
  | setConsole (console : σ)

/-- What an operation returns. -/
inductive Outcome
  | none
  | loaded (result : Except LoadError Unit)
  | stepped (result : Except Fault Status)
  | ran (result : Option (Except Fault Unit))

namespace Operation

variable {σ : Type}

/-- The operation drives the machine: it is a step or a run. -/
def Drives : Operation σ → Prop
  | step => True
  | run limit => 0 < limit
  | _ => False

/-- The outcome of driving a machine that has halted before. -/
def haltedOutcome : Operation σ → Outcome
  | step => .stepped (.ok .halted)
  | run _ => .ran (some (.ok ()))
  | _ => .none

end Operation

namespace Session

variable {σ : Type} [Console σ]

/-- Carry out one operation. -/
def perform (s : Session σ) : Operation σ → Outcome × Session σ
  | .load stream => (.loaded (s.load stream).1, (s.load stream).2)
  | .loadImage image => (.none, s.loadImage image)
  | .step => (.stepped s.step.1, s.step.2)
  | .run limit => (.ran (s.run limit).1, (s.run limit).2)
  | .setRegisters registers =>
      (.none, { s with machine := { s.machine with registers := registers } })
  | .setMemory memory => (.none, { s with machine := { s.machine with memory := memory } })
  | .setConsole console => (.none, { s with console := console })

/-- Carry out operations in order. -/
def performAll (s : Session σ) : List (Operation σ) → List Outcome × Session σ
  | [] => ([], s)
  | op :: rest =>
      let (outcome, s) := s.perform op
      let (outcomes, s) := s.performAll rest
      (outcome :: outcomes, s)

/-- The number of machine steps that an operation makes. -/
def stepsOf (s : Session σ) : Operation σ → Nat
  | .step => 1
  | .run limit => s.stepsOfRun limit
  | _ => 0

/-- The console calls of operations carried out in order. -/
def callsOf (s : Session σ) : List (Operation σ) → List ConsoleCall
  | [] => []
  | op :: rest => s.callsUpTo (s.stepsOf op) ++ (s.perform op).2.callsOf rest

theorem performAll_cons (s : Session σ) (op : Operation σ) (rest : List (Operation σ)) :
    s.performAll (op :: rest) =
      ((s.perform op).1 :: ((s.perform op).2.performAll rest).1,
        ((s.perform op).2.performAll rest).2) := rfl

theorem performAll_append (s : Session σ) (first second : List (Operation σ)) :
    (s.performAll (first ++ second)).2 = ((s.performAll first).2.performAll second).2 := by
  induction first generalizing s with
  | nil => rfl
  | cons op rest ih => exact ih _

/-- Only the steps of an operation have an influence on the status. -/
theorem perform_status (s : Session σ) (op : Operation σ) :
    (s.perform op).2.machine.status = (s.after (s.stepsOf op)).machine.status := by
  cases op with
  | load stream =>
      show (s.load stream).2.machine.status = _
      unfold load
      cases Image.ofStream stream <;> rfl
  | run limit => exact congrArg Machine.status (s.run_sameState limit).machine
  | step | loadImage _ | setRegisters _ | setMemory _ | setConsole _ => rfl

/-- All steps of an operation but the last one have left the machine running. -/
theorem resultAt_of_lt_stepsOf (s : Session σ) {op : Operation σ} {i : Nat}
    (h : i + 1 < s.stepsOf op) : s.resultAt i = .ok .running := by
  cases op with
  | step => exact absurd h (by show ¬ i + 1 < 1; omega)
  | run limit => exact s.resultAt_of_lt_stepsOfRun h
  | load _ | loadImage _ | setRegisters _ | setMemory _ | setConsole _ =>
      exact absurd h (Nat.not_lt_zero _)

end Session

end Lc3
