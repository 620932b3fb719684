import Lc3.Console.Scripted
import Lc3.Proofs.Console.Attempt

/-!
# Consoles over a queue of input

All input of such a console waits in a queue.  A successful read takes its first
byte and nothing else takes any, whichever calls fail and whatever is answered
about waiting keys.  So the bytes that a dialogue receives, followed by those
that it leaves, are the bytes that it has found.
-/

namespace Lc3

/-- The byte that a call has read. -/
def ConsoleCall.byte? : ConsoleCall → Option UInt8
  | readChar (.ok byte) => some byte
  | _ => none

/-- The bytes that were read, in order. -/
def received (calls : List ConsoleCall) : List UInt8 := calls.filterMap ConsoleCall.byte?

@[simp] theorem received_append (first second : List ConsoleCall) :
    received (first ++ second) = received first ++ received second := List.filterMap_append

theorem received_readChar (answer : Except ConsoleError UInt8) (calls : List ConsoleCall) :
    received (.readChar answer :: calls) = answer.toOption.toList ++ received calls := by
  cases answer <;> rfl

theorem mem_received {calls : List ConsoleCall} {byte : UInt8} :
    byte ∈ received calls ↔ ConsoleCall.readChar (.ok byte) ∈ calls := by
  unfold received
  rw [List.mem_filterMap]
  constructor
  · rintro ⟨call, hcall, hbyte⟩
    cases call with
    | readChar answer =>
        cases answer with
        | ok read =>
            obtain rfl := Option.some.inj hbyte
            exact hcall
        | error cause => cases hbyte
    | keyAvailable _ | writeChar _ _ | flush _ => cases hbyte
  · exact fun hcall => ⟨_, hcall, rfl⟩

/-- A console that reads from a queue. -/
class QueueConsole (σ : Type) [Console σ] where
  /-- The bytes that were not read yet. -/
  remaining : σ → List UInt8
  remaining_keyAvailable : ∀ console, remaining (Console.keyAvailable console).2 = remaining console
  /-- A read gives the first byte or fails and takes nothing. -/
  remaining_readChar : ∀ console,
    remaining console =
      (Console.readChar console).1.toOption.toList ++ remaining (Console.readChar console).2
  remaining_writeChar : ∀ console byte,
    remaining (Console.writeChar byte console).2 = remaining console
  remaining_flush : ∀ console, remaining (Console.flush console).2 = remaining console

/-- A console that reads from a queue to which a host may append. -/
class InputConsole (σ : Type) [Console σ] extends QueueConsole σ where
  append : σ → List UInt8 → σ
  remaining_append : ∀ console bytes, remaining (append console bytes) = remaining console ++ bytes

open QueueConsole (remaining)

instance : InputConsole Buffer where
  remaining := Buffer.input
  append := Buffer.pushInput
  remaining_append _ _ := rfl
  remaining_keyAvailable _ := rfl
  remaining_readChar := by
    rintro ⟨_ | ⟨byte, rest⟩, output, flushes⟩ <;> rfl
  remaining_writeChar _ _ := rfl
  remaining_flush _ := rfl

instance : InputConsole Scripted where
  remaining console := console.buffer.input
  append := Scripted.pushInput
  remaining_append _ _ := rfl
  remaining_keyAvailable _ := rfl
  remaining_readChar := by
    rintro ⟨script, buffer, counts, flushedAt⟩
    have hbuffer := QueueConsole.remaining_readChar buffer
    unfold Console.readChar Scripted.instConsole
    dsimp only
    split
    · rfl
    · exact hbuffer
  remaining_writeChar := by
    rintro ⟨script, buffer, counts, flushedAt⟩ byte
    unfold Console.writeChar Scripted.instConsole
    dsimp only
    split <;> rfl
  remaining_flush := by
    rintro ⟨script, buffer, counts, flushedAt⟩
    unfold Console.flush Scripted.instConsole
    dsimp only
    split <;> rfl

namespace Dialogue

variable {σ : Type} [Console σ]

/-- A dialogue takes the bytes that it receives from the front of the queue. -/
theorem remaining_hold {α : Type} [QueueConsole σ] (d : Dialogue α) (console : σ) :
    remaining console = received (d.transcript console) ++ remaining (d.hold console).2 := by
  induction d generalizing console with
  | done => rfl
  | keyAvailable next ih =>
      rw [← QueueConsole.remaining_keyAvailable console]
      exact ih _ _
  | readChar next ih =>
      have hread := QueueConsole.remaining_readChar console
      rw [hread, ih (Console.readChar console).1, ← List.append_assoc, ← received_readChar]
      rfl
  | writeChar byte next ih =>
      rw [← QueueConsole.remaining_writeChar console byte]
      exact ih _ _
  | flush next ih =>
      rw [← QueueConsole.remaining_flush console]
      exact ih _ _

/-- Writing reads nothing, however it ends. -/
theorem received_writeAll (bytes : List UInt8) (console : σ) :
    received ((writeAll bytes).run.transcript console) = [] := by
  induction bytes generalizing console with
  | nil => rfl
  | cons byte rest ih =>
      show received ((write byte >>= fun _ => writeAll rest).run.transcript console) = []
      rw [transcript_run_bind, received_append]
      rcases (write byte).run.hold console with ⟨cause | _, console'⟩
      · rfl
      · exact ih console'

theorem received_print (bytes : List UInt8) (console : σ) :
    received ((TrapRoutine.print bytes).run.transcript console) = [] := by
  unfold TrapRoutine.print
  rw [transcript_run_bind, received_append, received_writeAll]
  rcases (writeAll bytes).run.hold console with ⟨cause | _, console'⟩ <;> rfl

/-- How an output of one byte may fail. -/
theorem transcript_print_of_error {byte : UInt8} {console : σ} {cause : ConsoleError}
    (h : ((TrapRoutine.print [byte]).run.hold console).1 = .error cause) :
    (TrapRoutine.print [byte]).run.transcript console = [.writeChar byte (.error cause)] ∨
      (TrapRoutine.print [byte]).run.transcript console =
        [.writeChar byte (.ok ()), .flush (.error cause)] := by
  have hwrite : (write byte).run.transcript console =
    [.writeChar byte ((write byte).run.hold console).1] := rfl
  have hall : writeAll [byte] = write byte >>= fun _ => pure () := rfl
  unfold TrapRoutine.print at h ⊢
  rw [hall] at h ⊢
  rw [hold_run_bind, hold_run_bind] at h
  rw [transcript_run_bind, transcript_run_bind, hold_run_bind, hwrite]
  rcases hheld : (write byte).run.hold console with ⟨written | _, console'⟩
  · rw [hheld] at h
    obtain rfl := Except.error.inj h
    exact Or.inl rfl
  · rw [hheld] at h
    have hflush : send.run.transcript console' = [.flush (send.run.hold console').1] := rfl
    refine Or.inr ?_
    show _ ++ send.run.transcript console' = _
    rw [hflush, show (send.run.hold console').1 = .error cause from h]
    rfl

end Dialogue

namespace TrapRoutine

open Dialogue

variable {σ : Type} [Console σ]

/-- The calls of `IN` after whose read the echo of the byte fails. -/
inductive EchoFails (byte : UInt8) (cause : ConsoleError) : List ConsoleCall → Prop
  | write : EchoFails byte cause
      (printed [inputPrompt] ++ [.readChar (.ok byte), .writeChar byte (.error cause)])
  | flush : EchoFails byte cause
      (printed [inputPrompt] ++
        [.readChar (.ok byte), .writeChar byte (.ok ()), .flush (.error cause)])

/-- Only `GETC` and `IN` read. -/
theorem received_serve {routine : TrapRoutine} (hgetc : routine ≠ .getc)
    (hinput : routine ≠ .input) (r0 : Word) (mem : Memory) (console : σ) :
    received ((routine.serve r0 mem).run.transcript console) = [] := by
  have hprint : ∀ (bytes : List UInt8) (effect : ServiceEffect),
      received ((print bytes >>= fun _ => pure effect : Attempt _).run.transcript console) = [] := by
    intro bytes effect
    rw [transcript_run_bind, received_append, received_print]
    rcases (print bytes).run.hold console with ⟨cause | _, console'⟩ <;> rfl
  cases routine with
  | getc => exact absurd rfl hgetc
  | input => exact absurd rfl hinput
  | out | puts | putsp | halt => exact hprint _ _

/-- `GETC` gives the byte that it takes, or fails and takes none. -/
theorem serve_getc_cases (r0 : Word) (mem : Memory) (console : σ) :
    let calls := (getc.serve r0 mem).run.transcript console
    let outcome := ((getc.serve r0 mem).run.hold console).1
    (∃ byte, received calls = [byte] ∧ outcome = .ok (.key byte)) ∨
      (∃ cause, received calls = [] ∧ outcome = .error cause) := by
  have hcall : Dialogue.read.run.transcript console = [.readChar (Dialogue.read.run.hold console).1] := rfl
  unfold serve
  rw [transcript_run_bind, hold_run_bind, hcall]
  rcases Dialogue.read.run.hold console with ⟨cause | byte, console'⟩
  · exact Or.inr ⟨cause, rfl, rfl⟩
  · exact Or.inl ⟨byte, rfl, rfl⟩

/-- `IN` gives the byte that it takes, or fails before it takes one, or fails to
echo the byte. -/
theorem serve_input_cases (r0 : Word) (mem : Memory) (console : σ) :
    let calls := (input.serve r0 mem).run.transcript console
    let outcome := ((input.serve r0 mem).run.hold console).1
    (∃ byte, received calls = [byte] ∧ outcome = .ok (.key byte)) ∨
      (∃ cause, received calls = [] ∧ outcome = .error cause) ∨
      (∃ byte cause, received calls = [byte] ∧ outcome = .error cause ∧
        EchoFails byte cause calls) := by
  have hcall : ∀ console : σ, Dialogue.read.run.transcript console =
    [.readChar (Dialogue.read.run.hold console).1] := fun _ => rfl
  have hprompt := received_print [inputPrompt] console
  unfold serve
  dsimp only
  rw [transcript_run_bind, hold_run_bind, received_append, hprompt]
  rcases hprompted : (print [inputPrompt]).run.hold console with ⟨cause | _, waiting⟩
  · exact Or.inr (Or.inl ⟨cause, rfl, rfl⟩)
  have hprinted := transcript_print_of_ok [inputPrompt] console (congrArg Prod.fst hprompted)
  dsimp only
  rw [transcript_run_bind, hold_run_bind, hcall, hprinted]
  rcases Dialogue.read.run.hold waiting with ⟨cause | byte, reading⟩
  · exact Or.inr (Or.inl ⟨cause, rfl, rfl⟩)
  have htaken : ∀ calls, received calls = [] →
      [] ++ received ([.readChar (.ok byte)] ++ calls) = [byte] := by
    intro calls hcalls
    rw [received_append, hcalls]
    rfl
  have hecho := received_print [byte] reading
  dsimp only
  rw [transcript_run_bind, hold_run_bind]
  rcases hechoed : (print [byte]).run.hold reading with ⟨cause | _, echoed⟩
  · refine Or.inr (Or.inr ⟨byte, cause, htaken _ ?_, rfl, ?_⟩)
    · rw [received_append, hecho]
      rfl
    · rcases transcript_print_of_error (congrArg Prod.fst hechoed) with hfailed | hfailed <;>
        rw [hfailed]
      · exact .write
      · exact .flush
  · refine Or.inl ⟨byte, htaken _ ?_, rfl⟩
    rw [received_append, hecho]
    rfl

end TrapRoutine

end Lc3
