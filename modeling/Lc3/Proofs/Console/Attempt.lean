import Lc3.Console.Device
import Lc3.Machine.Service
import Mathlib

/-!
# Attempts and their transcripts

An attempt ends with the error of its first failing console call and succeeds if
no call fails.  This holds of reading, writing and flushing and is kept when
attempts are put one after the other, hence it holds of all trap routines.
-/

namespace Lc3

/-- The error of a failed call. -/
def ConsoleCall.failure? : ConsoleCall → Option ConsoleError
  | readChar (.error cause) => some cause
  | writeChar _ (.error cause) => some cause
  | flush (.error cause) => some cause
  | _ => none

/-- The error of the first failed call. -/
def firstFailure (calls : List ConsoleCall) : Option ConsoleError :=
  calls.findSome? ConsoleCall.failure?

@[simp] theorem firstFailure_append (first second : List ConsoleCall) :
    firstFailure (first ++ second) = (firstFailure first).or (firstFailure second) :=
  List.findSome?_append

namespace Dialogue

variable {α β σ : Type} [Console σ]

/-- The error of a failed attempt. -/
def errorOf : Except ConsoleError α → Option ConsoleError
  | .ok _ => none
  | .error cause => some cause

/-- How an attempt goes on after another one. -/
theorem run_bind (a : Attempt α) (f : α → Attempt β) :
    (a >>= f).run = a.run.bind fun
      | .ok x => (f x).run
      | .error cause => .done (.error cause) := by
  show a.run.bind (ExceptT.bindCont f) = _
  congr 1
  funext result
  cases result <;> rfl

theorem hold_run_bind (a : Attempt α) (f : α → Attempt β) (console : σ) :
    (a >>= f).run.hold console =
      match a.run.hold console with
      | (.ok x, console') => (f x).run.hold console'
      | (.error cause, console') => (.error cause, console') := by
  rw [run_bind, hold_bind]
  rcases a.run.hold console with ⟨_ | x, console'⟩ <;> rfl

/-- An attempt that succeeds has succeeded in each of its parts. -/
theorem ok_of_hold_bind {a : Attempt α} {f : α → Attempt β} {console : σ} {y : β}
    (h : ((a >>= f).run.hold console).1 = .ok y) :
    ∃ x console', a.run.hold console = (.ok x, console') ∧
      ((f x).run.hold console').1 = .ok y := by
  rw [hold_run_bind] at h
  generalize a.run.hold console = held at h
  rcases held with ⟨cause | x, console'⟩
  · cases h
  · exact ⟨x, console', rfl, h⟩

theorem transcript_run_bind (a : Attempt α) (f : α → Attempt β) (console : σ) :
    (a >>= f).run.transcript console =
      a.run.transcript console ++
        match a.run.hold console with
        | (.ok x, console') => (f x).run.transcript console'
        | (.error _, _) => [] := by
  rw [run_bind, transcript_bind]
  rcases a.run.hold console with ⟨_ | x, console'⟩ <;> rfl

/-- An attempt ends with the error of its first failing call, at every console. -/
def ReportsFirstFailure (a : Attempt α) : Prop :=
  ∀ (σ : Type) [Console σ] (console : σ),
    firstFailure (a.run.transcript console) = errorOf (a.run.hold console).1

theorem reportsFirstFailure_pure (x : α) : ReportsFirstFailure (pure x : Attempt α) := by
  intro σ _ console
  rfl

theorem reportsFirstFailure_bind {a : Attempt α} {f : α → Attempt β}
    (ha : ReportsFirstFailure a) (hf : ∀ x, ReportsFirstFailure (f x)) :
    ReportsFirstFailure (a >>= f) := by
  intro σ _ console
  have hfirst := ha σ console
  rw [transcript_run_bind, hold_run_bind, firstFailure_append, hfirst]
  -- the second part makes calls only if none of the first has failed
  rcases a.run.hold console with ⟨cause | x, console'⟩
  · rfl
  · exact hf x σ console'

theorem reportsFirstFailure_read : ReportsFirstFailure read := by
  intro σ _ console
  show firstFailure [.readChar (Console.readChar console).1] = errorOf (Console.readChar console).1
  cases (Console.readChar console).1 <;> rfl

theorem reportsFirstFailure_write (byte : UInt8) : ReportsFirstFailure (write byte) := by
  intro σ _ console
  show firstFailure [.writeChar byte (Console.writeChar byte console).1] =
    errorOf (Console.writeChar byte console).1
  cases (Console.writeChar byte console).1 <;> rfl

theorem reportsFirstFailure_send : ReportsFirstFailure send := by
  intro σ _ console
  show firstFailure [.flush (Console.flush console).1] = errorOf (Console.flush console).1
  cases (Console.flush console).1 <;> rfl

theorem reportsFirstFailure_writeAll (bytes : List UInt8) :
    ReportsFirstFailure (writeAll bytes) := by
  induction bytes with
  | nil => exact reportsFirstFailure_pure ()
  | cons byte rest ih =>
      exact reportsFirstFailure_bind (reportsFirstFailure_write byte) fun _ => ih

theorem reportsFirstFailure_print (bytes : List UInt8) :
    ReportsFirstFailure (TrapRoutine.print bytes) :=
  reportsFirstFailure_bind (reportsFirstFailure_writeAll bytes) fun _ => reportsFirstFailure_send

/-- The calls of an output that succeeds: all bytes in order, then a flush. -/
def printed (bytes : List UInt8) : List ConsoleCall :=
  bytes.map (fun byte => .writeChar byte (.ok ())) ++ [.flush (.ok ())]

theorem firstFailure_printed (bytes : List UInt8) : firstFailure (printed bytes) = none := by
  unfold printed firstFailure
  rw [List.findSome?_eq_none_iff]
  intro call hcall
  simp only [List.mem_append, List.mem_map, List.mem_singleton] at hcall
  rcases hcall with ⟨byte, _, rfl⟩ | rfl <;> rfl

/-- Writing without a failure makes one call for each byte. -/
theorem transcript_writeAll_of_ok (bytes : List UInt8) (console : σ)
    (h : ((writeAll bytes).run.hold console).1 = .ok ()) :
    (writeAll bytes).run.transcript console =
      bytes.map fun byte => .writeChar byte (.ok ()) := by
  induction bytes generalizing console with
  | nil => rfl
  | cons byte rest ih =>
      obtain ⟨_, console', hwrite, hrest⟩ :=
        ok_of_hold_bind (a := write byte) (f := fun _ => writeAll rest) h
      have hcall : (write byte).run.transcript console =
        [.writeChar byte ((write byte).run.hold console).1] := rfl
      show (write byte >>= fun _ => writeAll rest).run.transcript console = _
      rw [transcript_run_bind, hcall, hwrite]
      show _ :: (writeAll rest).run.transcript console' = _
      rw [ih console' hrest]
      rfl

/-- Output without a failure writes all bytes and flushes them. -/
theorem transcript_print_of_ok (bytes : List UInt8) (console : σ)
    (h : ((TrapRoutine.print bytes).run.hold console).1 = .ok ()) :
    (TrapRoutine.print bytes).run.transcript console = printed bytes := by
  obtain ⟨_, console', hwrites, hflush⟩ := ok_of_hold_bind h
  have hcall : send.run.transcript console' = [.flush (send.run.hold console').1] := rfl
  unfold TrapRoutine.print printed
  rw [transcript_run_bind, transcript_writeAll_of_ok bytes console (congrArg Prod.fst hwrites),
    hwrites]
  show _ ++ send.run.transcript console' = _
  rw [hcall, hflush]

end Dialogue

namespace TrapRoutine

open Dialogue

/-- Every trap routine ends with the error of its first failing call. -/
theorem reportsFirstFailure_serve (routine : TrapRoutine) (r0 : Word) (mem : Memory) :
    ReportsFirstFailure (routine.serve r0 mem) := by
  cases routine with
  | getc =>
      exact reportsFirstFailure_bind reportsFirstFailure_read fun _ => reportsFirstFailure_pure _
  | input =>
      refine reportsFirstFailure_bind (reportsFirstFailure_print _) fun _ => ?_
      refine reportsFirstFailure_bind reportsFirstFailure_read fun byte => ?_
      exact reportsFirstFailure_bind (reportsFirstFailure_print _) fun _ =>
        reportsFirstFailure_pure _
  | out | puts | putsp | halt =>
      exact reportsFirstFailure_bind (reportsFirstFailure_print _) fun _ =>
        reportsFirstFailure_pure _

end TrapRoutine

end Lc3
