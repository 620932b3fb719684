/-!
# Dialogues with a console

A computation that needs the console is a tree of its calls: each node makes
one call, and the answer to it selects how the computation goes on.  A dialogue
is finite along every sequence of answers, so it can be held with any device
and every fact about all devices follows by one induction on the tree.
-/

namespace Lc3

/-- Why a console call failed. -/
inductive ConsoleError
  /-- A buffered console has no input left. -/
  | inputExhausted
  /-- The input stream has ended. -/
  | endOfInput
  /-- The device failed with this text. -/
  | failure (text : String)
  deriving DecidableEq

/-- The text of a console error. -/
def ConsoleError.message : ConsoleError → String
  | inputExhausted => "console input exhausted"
  | endOfInput => "end of input"
  | failure text => text

/-- A computation that makes console calls before it gives its result. -/
inductive Dialogue (α : Type)
  | done (result : α)
  /-- Ask whether a key can be read without waiting. -/
  | keyAvailable (next : Bool → Dialogue α)
  /-- Take one byte of input, waiting for it if need be. -/
  | readChar (next : Except ConsoleError UInt8 → Dialogue α)
  | writeChar (byte : UInt8) (next : Except ConsoleError Unit → Dialogue α)
  /-- Send all written bytes on their way. -/
  | flush (next : Except ConsoleError Unit → Dialogue α)

namespace Dialogue

variable {α β : Type}

/-- Go on with `f` once the result is known. -/
def bind (d : Dialogue α) (f : α → Dialogue β) : Dialogue β :=
  match d with
  | done result => f result
  | keyAvailable next => keyAvailable fun answer => (next answer).bind f
  | readChar next => readChar fun answer => (next answer).bind f
  | writeChar byte next => writeChar byte fun answer => (next answer).bind f
  | flush next => flush fun answer => (next answer).bind f

instance : Monad Dialogue where
  pure := done
  bind := bind

@[simp] theorem pure_eq_done (result : α) : (pure result : Dialogue α) = done result := rfl

theorem bind_eq (d : Dialogue α) (f : α → Dialogue β) : d >>= f = d.bind f := rfl

theorem bind_done (d : Dialogue α) : d.bind done = d := by
  induction d with
  | done => rfl
  | keyAvailable next ih => exact congrArg keyAvailable (funext ih)
  | readChar next ih => exact congrArg readChar (funext ih)
  | writeChar byte next ih => exact congrArg (writeChar byte) (funext ih)
  | flush next ih => exact congrArg flush (funext ih)

theorem bind_assoc (d : Dialogue α) (f : α → Dialogue β) {γ : Type} (g : β → Dialogue γ) :
    (d.bind f).bind g = d.bind fun a => (f a).bind g := by
  induction d with
  | done => rfl
  | keyAvailable next ih => exact congrArg keyAvailable (funext ih)
  | readChar next ih => exact congrArg readChar (funext ih)
  | writeChar byte next ih => exact congrArg (writeChar byte) (funext ih)
  | flush next ih => exact congrArg flush (funext ih)

instance : LawfulMonad Dialogue := LawfulMonad.mk' Dialogue
  bind_done
  (fun _ _ => rfl)
  (fun d f g => bind_assoc d f g)

/-- A dialogue in which the first failed call decides the result. -/
abbrev Attempt (α : Type) : Type := ExceptT ConsoleError Dialogue α

/-- Read one byte. -/
def read : Attempt UInt8 := ExceptT.mk (readChar done)

/-- Write one byte. -/
def write (byte : UInt8) : Attempt Unit := ExceptT.mk (writeChar byte done)

/-- Write bytes in order, up to the first failure. -/
def writeAll : List UInt8 → Attempt Unit
  | [] => pure ()
  | byte :: rest => do
      write byte
      writeAll rest

/-- Flush the output. -/
def send : Attempt Unit := ExceptT.mk (flush done)

end Dialogue

end Lc3
