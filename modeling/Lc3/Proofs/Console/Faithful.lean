import Lc3.Console.Piped
import Lc3.Proofs.Console.Alike
import Lc3.Proofs.Console.InputQueue

/-!
# Faithful consoles

A faithful console gives its input byte by byte, fails to read only after the
last byte, tells truly whether there is another one, and never fails to write.
Both the buffered console and the console on a stream are faithful, although the
latter keeps a byte back when it is asked for a key; hence no dialogue tells one
from the other but by the error at the end of the input.
-/

namespace Lc3

open QueueConsole (remaining)

/-- A call that is made of a console, without its answer. -/
inductive ConsoleRequest
  | keyAvailable
  | readChar
  | writeChar (byte : UInt8)
  | flush

namespace ConsoleCall

def request : ConsoleCall → ConsoleRequest
  | keyAvailable _ => .keyAvailable
  | readChar _ => .readChar
  | writeChar byte _ => .writeChar byte
  | flush _ => .flush

/-- The byte that a call has written. -/
def sent? : ConsoleCall → Option UInt8
  | writeChar byte (.ok _) => some byte
  | _ => none

end ConsoleCall

/-- The bytes that were written, in order. -/
def sent (calls : List ConsoleCall) : List UInt8 := calls.filterMap ConsoleCall.sent?

/-- The answers of a console that has these bytes to give and whose reads fail with
this error after the last one. -/
inductive AnsweredFrom (atEnd : ConsoleError) : List UInt8 → List ConsoleCall → Prop
  | nil (bytes : List UInt8) : AnsweredFrom atEnd bytes []
  | keyAvailable {bytes : List UInt8} {calls : List ConsoleCall}
      (h : AnsweredFrom atEnd bytes calls) :
      AnsweredFrom atEnd bytes (.keyAvailable (!bytes.isEmpty) :: calls)
  | readByte {byte : UInt8} {bytes : List UInt8} {calls : List ConsoleCall}
      (h : AnsweredFrom atEnd bytes calls) :
      AnsweredFrom atEnd (byte :: bytes) (.readChar (.ok byte) :: calls)
  | readEnd {calls : List ConsoleCall} (h : AnsweredFrom atEnd [] calls) :
      AnsweredFrom atEnd [] (.readChar (.error atEnd) :: calls)
  | writeChar (byte : UInt8) {bytes : List UInt8} {calls : List ConsoleCall}
      (h : AnsweredFrom atEnd bytes calls) :
      AnsweredFrom atEnd bytes (.writeChar byte (.ok ()) :: calls)
  | flush {bytes : List UInt8} {calls : List ConsoleCall} (h : AnsweredFrom atEnd bytes calls) :
      AnsweredFrom atEnd bytes (.flush (.ok ()) :: calls)

/-- A console that tells the truth about its queue and fails only at its end. -/
structure FaithfulConsole (σ : Type) [Console σ] [QueueConsole σ] (atEnd : ConsoleError) :
    Prop where
  keyAvailable (console : σ) : (Console.keyAvailable console).1 = !(remaining console).isEmpty
  readChar (console : σ) :
    (Console.readChar console).1 =
      match remaining console with
      | byte :: _ => .ok byte
      | [] => .error atEnd
  writeChar (byte : UInt8) (console : σ) : (Console.writeChar byte console).1 = .ok ()
  flush (console : σ) : (Console.flush console).1 = .ok ()

/-- A console that keeps what was written to it. -/
class OutputConsole (σ : Type) [Console σ] where
  output : σ → List UInt8
  output_keyAvailable : ∀ console, output (Console.keyAvailable console).2 = output console
  output_readChar : ∀ console, output (Console.readChar console).2 = output console
  output_writeChar : ∀ byte console,
    output (Console.writeChar byte console).2 =
      output console ++ sent [.writeChar byte (Console.writeChar byte console).1]
  output_flush : ∀ console, output (Console.flush console).2 = output console

open OutputConsole (output)

section

variable {σ : Type} [Console σ] [QueueConsole σ] {atEnd : ConsoleError}

theorem FaithfulConsole.readChar_cases (h : FaithfulConsole σ atEnd) (console : σ) :
    (∃ byte, remaining console = byte :: remaining (Console.readChar console).2 ∧
        (Console.readChar console).1 = .ok byte) ∨
      (remaining console = [] ∧ remaining (Console.readChar console).2 = [] ∧
        (Console.readChar console).1 = .error atEnd) := by
  have hanswer := h.readChar console
  have hread := QueueConsole.remaining_readChar console
  cases hremaining : remaining console with
  | nil =>
      rw [hremaining] at hanswer hread
      rw [hanswer] at hread
      exact Or.inr ⟨rfl, hread.symm, hanswer⟩
  | cons byte rest =>
      rw [hremaining] at hanswer hread
      rw [hanswer] at hread
      exact Or.inl ⟨byte, hread, hanswer⟩

end

namespace Dialogue

variable {σ : Type} [Console σ] {α : Type}

/-- A faithful console gives every dialogue its bytes in order. -/
theorem answeredFrom_transcript [QueueConsole σ] {atEnd : ConsoleError}
    (hfaithful : FaithfulConsole σ atEnd) (d : Dialogue α) (console : σ) :
    AnsweredFrom atEnd (remaining console) (d.transcript console) := by
  induction d generalizing console with
  | done => exact .nil _
  | keyAvailable next ih =>
      have hnext := ih (Console.keyAvailable console).1 (Console.keyAvailable console).2
      rw [QueueConsole.remaining_keyAvailable] at hnext
      have hcall := hnext.keyAvailable
      rw [← hfaithful.keyAvailable] at hcall
      exact hcall
  | readChar next ih =>
      have hnext := ih (Console.readChar console).1 (Console.readChar console).2
      show AnsweredFrom atEnd _ (.readChar (Console.readChar console).1 ::
        (next (Console.readChar console).1).transcript (Console.readChar console).2)
      rcases hfaithful.readChar_cases console with ⟨byte, hfront, hanswer⟩ | ⟨hnone, hafter, hanswer⟩
      · rw [hfront, hanswer]
        rw [hanswer] at hnext
        exact hnext.readByte
      · rw [hnone, hanswer]
        rw [hafter, hanswer] at hnext
        exact hnext.readEnd
  | writeChar byte next ih =>
      have hnext := ih (Console.writeChar byte console).1 (Console.writeChar byte console).2
      rw [QueueConsole.remaining_writeChar] at hnext
      have hcall := hnext.writeChar byte
      rw [← hfaithful.writeChar byte console] at hcall
      exact hcall
  | flush next ih =>
      have hnext := ih (Console.flush console).1 (Console.flush console).2
      rw [QueueConsole.remaining_flush] at hnext
      have hcall := hnext.flush
      rw [← hfaithful.flush console] at hcall
      exact hcall

/-- The output of a console grows by what a dialogue sends. -/
theorem output_hold [OutputConsole σ] (d : Dialogue α) (console : σ) :
    output (d.hold console).2 = output console ++ sent (d.transcript console) := by
  induction d generalizing console with
  | done => exact (List.append_nil _).symm
  | keyAvailable next ih =>
      rw [← OutputConsole.output_keyAvailable console]
      exact ih _ _
  | readChar next ih =>
      rw [← OutputConsole.output_readChar console]
      exact ih _ _
  | writeChar byte next ih =>
      have hwrite := OutputConsole.output_writeChar byte console
      have hnext := ih (Console.writeChar byte console).1 (Console.writeChar byte console).2
      rw [hwrite, List.append_assoc] at hnext
      refine hnext.trans (congrArg _ ?_)
      unfold sent
      rw [← List.filterMap_append]
      rfl
  | flush next ih =>
      rw [← OutputConsole.output_flush console]
      exact ih _ _

/-- Make the calls in order, whatever the answers. -/
def requesting : List ConsoleRequest → Dialogue Unit
  | [] => done ()
  | .keyAvailable :: rest => keyAvailable fun _ => requesting rest
  | .readChar :: rest => readChar fun _ => requesting rest
  | .writeChar byte :: rest => writeChar byte fun _ => requesting rest
  | .flush :: rest => flush fun _ => requesting rest

theorem request_transcript (requests : List ConsoleRequest) (console : σ) :
    ((requesting requests).transcript console).map ConsoleCall.request = requests := by
  induction requests generalizing console with
  | nil => rfl
  | cons request rest ih => cases request <;> exact congrArg (_ :: ·) (ih _)

theorem requesting_alike (E : ConsoleError → ConsoleError → Prop)
    (requests : List ConsoleRequest) : Alike E Eq (requesting requests) (requesting requests) := by
  induction requests with
  | nil => exact .done rfl
  | cons request rest ih =>
      cases request with
      | keyAvailable => exact .keyAvailable fun _ => ih
      | readChar => exact .readChar fun _ _ _ => ih
      | writeChar byte => exact .writeChar byte fun _ _ _ => ih
      | flush => exact .flush fun _ _ _ => ih

end Dialogue

section Comparison

variable {σ τ : Type} [Console σ] [QueueConsole σ] [OutputConsole σ] [Console τ] [QueueConsole τ]
  [OutputConsole τ]

/-- Both consoles have the same bytes to give and have received the same output. -/
structure SameStreams (s : σ) (t : τ) : Prop where
  remaining : remaining s = remaining t
  output : output s = output t

/-- Faithful consoles answer alike but for the errors at the end of the input. -/
theorem devicesAlike_of_faithful {E : ConsoleError → ConsoleError → Prop} {a b : ConsoleError}
    (hσ : FaithfulConsole σ a) (hτ : FaithfulConsole τ b) (hE : E a b) :
    DevicesAlike E (SameStreams (σ := σ) (τ := τ)) where
  keyAvailable {s t} h := by
    refine ⟨?_, ?_, ?_⟩
    · rw [hσ.keyAvailable, hτ.keyAvailable, h.remaining]
    · rw [QueueConsole.remaining_keyAvailable, QueueConsole.remaining_keyAvailable, h.remaining]
    · rw [OutputConsole.output_keyAvailable, OutputConsole.output_keyAvailable, h.output]
  readChar {s t} h := by
    have houtput : output (Console.readChar s).2 = output (Console.readChar t).2 := by
      rw [OutputConsole.output_readChar, OutputConsole.output_readChar, h.output]
    have hremaining := h.remaining
    rcases hσ.readChar_cases s with ⟨byte, hs, hanswer⟩ | ⟨hs, hafter, hanswer⟩ <;>
      rcases hτ.readChar_cases t with ⟨byte', ht, hanswer'⟩ | ⟨ht, hafter', hanswer'⟩ <;>
      rw [hs, ht] at hremaining
    · obtain ⟨rfl, hrest⟩ := List.cons_eq_cons.mp hremaining
      rw [hanswer, hanswer']
      exact ⟨.ok rfl, hrest, houtput⟩
    · cases hremaining
    · cases hremaining
    · rw [hanswer, hanswer']
      exact ⟨.error hE, hafter.trans hafter'.symm, houtput⟩
  writeChar {s t} h byte := by
    refine ⟨?_, ?_, ?_⟩
    · rw [hσ.writeChar, hτ.writeChar]
      exact .ok rfl
    · rw [QueueConsole.remaining_writeChar, QueueConsole.remaining_writeChar, h.remaining]
    · rw [OutputConsole.output_writeChar, OutputConsole.output_writeChar, hσ.writeChar,
        hτ.writeChar, h.output]
  flush {s t} h := by
    refine ⟨?_, ?_, ?_⟩
    · rw [hσ.flush, hτ.flush]
      exact .ok rfl
    · rw [QueueConsole.remaining_flush, QueueConsole.remaining_flush, h.remaining]
    · rw [OutputConsole.output_flush, OutputConsole.output_flush, h.output]

end Comparison

instance : OutputConsole Buffer where
  output buffer := buffer.output.toList
  output_keyAvailable _ := rfl
  output_readChar := by
    rintro ⟨_ | ⟨byte, rest⟩, output, flushes⟩ <;> rfl
  output_writeChar byte buffer := Array.toList_push
  output_flush _ := rfl

theorem Buffer.faithful : FaithfulConsole Buffer .inputExhausted where
  keyAvailable _ := rfl
  readChar := by
    rintro ⟨_ | ⟨byte, rest⟩, output, flushes⟩ <;> rfl
  writeChar _ _ := rfl
  flush _ := rfl

namespace Piped

/-- The bytes that were not delivered yet: the one that is kept, and what may still
come from the stream. -/
def undelivered (console : Piped) : List UInt8 :=
  console.ahead.pending.toList ++ if console.ahead.ended then [] else console.stream

-- the cases are what the stream has next, and what the console keeps of it
instance : QueueConsole Piped where
  remaining := undelivered
  remaining_keyAvailable := by
    rintro ⟨_ | ⟨byte, rest⟩, ⟨_ | pending, _ | _⟩, output⟩ <;> rfl
  remaining_readChar := by
    rintro ⟨_ | ⟨byte, rest⟩, ⟨_ | pending, _ | _⟩, output⟩ <;> rfl
  remaining_writeChar _ _ := rfl
  remaining_flush _ := rfl

instance : OutputConsole Piped where
  output console := console.output.toList
  output_keyAvailable := by
    rintro ⟨_ | ⟨byte, rest⟩, ⟨_ | pending, _ | _⟩, output⟩ <;> rfl
  output_readChar := by
    rintro ⟨_ | ⟨byte, rest⟩, ⟨_ | pending, _ | _⟩, output⟩ <;> rfl
  output_writeChar byte console := Array.toList_push
  output_flush _ := rfl

theorem faithful : FaithfulConsole Piped .endOfInput where
  keyAvailable := by
    rintro ⟨_ | ⟨byte, rest⟩, ⟨_ | pending, _ | _⟩, output⟩ <;> rfl
  readChar := by
    rintro ⟨_ | ⟨byte, rest⟩, ⟨_ | pending, _ | _⟩, output⟩ <;> rfl
  writeChar _ _ := rfl
  flush _ := rfl

end Piped

/-- The kinds of console errors, of which the texts are variants. -/
inductive ConsoleError.Kind
  | unexpectedEnd
  | other

def ConsoleError.kind : ConsoleError → ConsoleError.Kind
  | inputExhausted => .unexpectedEnd
  | endOfInput => .unexpectedEnd
  | failure _ => .other

/-- Errors that differ in their texts only. -/
def ConsoleError.SameKind (a b : ConsoleError) : Prop := a.kind = b.kind

/-- A stream and a buffer with the same content cannot be told apart but by the text
of the error at their end. -/
theorem piped_buffer_alike :
    DevicesAlike ConsoleError.SameKind (SameStreams (σ := Piped) (τ := Buffer)) :=
  devicesAlike_of_faithful Piped.faithful Buffer.faithful rfl

theorem sameStreams_start (bytes : List UInt8) :
    SameStreams (Piped.ofStream bytes) (Buffer.ofInput bytes) := ⟨rfl, rfl⟩

end Lc3
