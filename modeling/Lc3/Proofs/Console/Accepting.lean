import Lc3.Console.Scripted
import Lc3.Proofs.Console.Faithful
import Lc3.Proofs.Console.Waiting

/-!
# Accepted output

A console refuses output by letting a write or a flush fail.  An output of which
nothing is refused succeeds and makes all of its calls.  A console that accepts output
in every state that it can come to never refuses any; buffered consoles do, and so do
scripted consoles whose script has failing reads only.
-/

namespace Lc3

/-- The call is a write or a flush that has failed. -/
def ConsoleCall.refuses : ConsoleCall → Bool
  | writeChar _ (.error _) => true
  | flush (.error _) => true
  | _ => false

theorem ConsoleCall.refuses_of_failure {call : ConsoleCall} {cause : ConsoleError}
    (hfailure : call.failure? = some cause) (hwaits : call.waits = false) :
    call.refuses = true := by
  cases call with
  | keyAvailable _ | readChar _ => cases hwaits
  | writeChar _ answer | flush answer =>
      cases answer with
      | ok _ => cases hfailure
      | error _ => rfl

theorem sent_append (first second : List ConsoleCall) :
    sent (first ++ second) = sent first ++ sent second := List.filterMap_append

/-- Calls that wait for the keyboard write nothing. -/
theorem sent_of_waits {calls : List ConsoleCall} (h : ∀ call ∈ calls, call.waits = true) :
    sent calls = [] := by
  unfold sent
  rw [List.filterMap_eq_nil_iff]
  intro call hcall
  have hwaits := h call hcall
  cases call with
  | keyAvailable _ | readChar _ => rfl
  | writeChar _ _ | flush _ => cases hwaits

namespace Dialogue

variable {α σ : Type} [Console σ]

theorem sent_printed (bytes : List UInt8) : sent (printed bytes) = bytes := by
  have hwrites : sent (bytes.map fun byte => .writeChar byte (.ok ())) = bytes := by
    unfold sent
    rw [List.filterMap_map]
    exact List.filterMap_some
  unfold printed
  rw [sent_append, hwrites]
  exact List.append_nil _

/-- An output of which nothing is refused succeeds. -/
theorem print_of_accepted (bytes : List UInt8) (console : σ)
    (h : ∀ call ∈ (TrapRoutine.print bytes).run.transcript console, call.refuses = false) :
    ∃ console', (TrapRoutine.print bytes).run.hold console = (.ok (), console') ∧
      (TrapRoutine.print bytes).run.transcript console = printed bytes := by
  have hreports := reportsFirstFailure_print bytes σ console
  rcases hheld : (TrapRoutine.print bytes).run.hold console with ⟨cause | _, console'⟩
  · -- the failed call is no wait, so it is a refusal
    rw [hheld] at hreports
    obtain ⟨call, hcall, hfailure⟩ := List.exists_of_findSome?_eq_some hreports
    have hrefuses := ConsoleCall.refuses_of_failure hfailure
      ((readsAtMost_print bytes).no_waits console call hcall)
    cases hrefuses.symm.trans (h call hcall)
  · exact ⟨console', rfl, transcript_print_of_ok bytes console (congrArg Prod.fst hheld)⟩

/-- What an output is followed by makes no further call. -/
theorem run_print_pure (bytes : List UInt8) (effect : α) (console : σ) :
    (TrapRoutine.print bytes >>= fun _ => pure effect).run.transcript console =
        (TrapRoutine.print bytes).run.transcript console ∧
      ∀ console', (TrapRoutine.print bytes).run.hold console = (.ok (), console') →
        (TrapRoutine.print bytes >>= fun _ => pure effect).run.hold console =
          (.ok effect, console') := by
  rw [transcript_run_bind, hold_run_bind]
  constructor
  · rcases (TrapRoutine.print bytes).run.hold console with ⟨cause | _, console'⟩ <;>
      exact List.append_nil _
  · intro console' hheld
    rw [hheld]
    rfl

end Dialogue

/-- The console accepts output in the states that satisfy `keeps`, and does not leave
them. -/
structure AcceptsOutput {σ : Type} [Console σ] (keeps : σ → Prop) : Prop where
  keyAvailable {console : σ} (h : keeps console) : keeps (Console.keyAvailable console).2
  readChar {console : σ} (h : keeps console) : keeps (Console.readChar console).2
  writeChar (byte : UInt8) {console : σ} (h : keeps console) :
    (Console.writeChar byte console).1 = .ok () ∧ keeps (Console.writeChar byte console).2
  flush {console : σ} (h : keeps console) :
    (Console.flush console).1 = .ok () ∧ keeps (Console.flush console).2

/-- Nothing is refused in a dialogue with a console that accepts output. -/
theorem AcceptsOutput.hold {α σ : Type} [Console σ] {keeps : σ → Prop}
    (haccepts : AcceptsOutput keeps) (d : Dialogue α) {console : σ} (h : keeps console) :
    keeps (d.hold console).2 ∧ ∀ call ∈ d.transcript console, call.refuses = false := by
  induction d generalizing console with
  | done => exact ⟨h, List.forall_mem_nil _⟩
  | keyAvailable next ih =>
      obtain ⟨hkeeps, hrest⟩ := ih (Console.keyAvailable console).1 (haccepts.keyAvailable h)
      exact ⟨hkeeps, List.forall_mem_cons.mpr ⟨rfl, hrest⟩⟩
  | readChar next ih =>
      obtain ⟨hkeeps, hrest⟩ := ih (Console.readChar console).1 (haccepts.readChar h)
      exact ⟨hkeeps, List.forall_mem_cons.mpr ⟨rfl, hrest⟩⟩
  | writeChar byte next ih =>
      obtain ⟨hwritten, hafter⟩ := haccepts.writeChar byte h
      obtain ⟨hkeeps, hrest⟩ := ih (Console.writeChar byte console).1 hafter
      have hcall : (ConsoleCall.writeChar byte (Console.writeChar byte console).1).refuses =
          false := by
        rw [hwritten]
        rfl
      exact ⟨hkeeps, List.forall_mem_cons.mpr ⟨hcall, hrest⟩⟩
  | flush next ih =>
      obtain ⟨hflushed, hafter⟩ := haccepts.flush h
      obtain ⟨hkeeps, hrest⟩ := ih (Console.flush console).1 hafter
      have hcall : (ConsoleCall.flush (Console.flush console).1).refuses = false := by
        rw [hflushed]
        rfl
      exact ⟨hkeeps, List.forall_mem_cons.mpr ⟨hcall, hrest⟩⟩

theorem Buffer.acceptsOutput : AcceptsOutput fun _ : Buffer => True where
  keyAvailable _ := trivial
  readChar _ := trivial
  writeChar _ _ _ := ⟨rfl, trivial⟩
  flush _ := ⟨rfl, trivial⟩

theorem Piped.acceptsOutput : AcceptsOutput fun _ : Piped => True where
  keyAvailable _ := trivial
  readChar _ := trivial
  writeChar _ _ _ := ⟨rfl, trivial⟩
  flush _ := ⟨rfl, trivial⟩

/-- The buffer after an output. -/
theorem Buffer.hold_print (buffer : Buffer) (bytes : List UInt8) :
    (TrapRoutine.print bytes).run.hold buffer =
      (.ok (), { buffer with
        output := buffer.output ++ bytes
        flushes := buffer.flushes + 1 }) := by
  have hwrites : ∀ (bytes : List UInt8) (buffer : Buffer),
      (Dialogue.writeAll bytes).run.hold buffer =
        (.ok (), { buffer with output := buffer.output ++ bytes }) := by
    intro bytes
    induction bytes with
    | nil => exact fun buffer => rfl
    | cons byte rest ih =>
        intro buffer
        show (Dialogue.writeAll rest).run.hold (Console.writeChar byte buffer).2 = _
        rw [ih]
        have houtput : buffer.output.push byte ++ rest = buffer.output ++ (byte :: rest) := by
          apply Array.ext'
          simp
        rw [← houtput]
        rfl
  unfold TrapRoutine.print
  rw [Dialogue.hold_run_bind, hwrites]
  rfl

/-- The script has failing reads only. -/
def ConsoleScript.FailsReadsOnly (script : ConsoleScript) : Prop :=
  script.failingWrites = [] ∧ script.failingFlushes = []

theorem Scripted.acceptsOutput :
    AcceptsOutput fun console : Scripted => console.script.FailsReadsOnly where
  keyAvailable h := h
  readChar {console} h := by
    obtain ⟨script, buffer, counts, flushedAt⟩ := console
    unfold Console.readChar Scripted.instConsole
    dsimp only
    split <;> exact h
  writeChar byte {console} h := by
    obtain ⟨script, buffer, counts, flushedAt⟩ := console
    have hnone : script.failingWrites.contains counts.writes = false := by
      rw [h.1]
      rfl
    unfold Console.writeChar Scripted.instConsole
    simp only [hnone, Bool.false_eq_true, if_false]
    exact ⟨rfl, h⟩
  flush {console} h := by
    obtain ⟨script, buffer, counts, flushedAt⟩ := console
    have hnone : script.failingFlushes.contains counts.flushes = false := by
      rw [h.2]
      rfl
    unfold Console.flush Scripted.instConsole
    simp only [hnone, Bool.false_eq_true, if_false]
    exact ⟨rfl, h⟩

end Lc3
