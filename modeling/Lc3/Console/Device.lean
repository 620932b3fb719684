import Lc3.Console.Dialogue

/-!
# Console devices

A device answers console calls and changes its state in doing so.  Holding a
dialogue with a device gives the result, the final state of the device and,
for those who want to look at it, the transcript of all calls.
-/

namespace Lc3

/-- The states of a character device and its answers to console calls. -/
class Console (σ : Type) where
  keyAvailable : σ → Bool × σ
  readChar : σ → Except ConsoleError UInt8 × σ
  writeChar : UInt8 → σ → Except ConsoleError Unit × σ
  flush : σ → Except ConsoleError Unit × σ

/-- A console call with the answer that was given to it. -/
inductive ConsoleCall
  | keyAvailable (answer : Bool)
  | readChar (answer : Except ConsoleError UInt8)
  | writeChar (byte : UInt8) (answer : Except ConsoleError Unit)
  | flush (answer : Except ConsoleError Unit)

namespace Dialogue

variable {α σ : Type} [Console σ]

/-- The result of a dialogue with a device, and the device's state after it. -/
def hold (d : Dialogue α) (device : σ) : α × σ :=
  match d with
  | done result => (result, device)
  | keyAvailable next =>
      let (answer, device) := Console.keyAvailable device
      (next answer).hold device
  | readChar next =>
      let (answer, device) := Console.readChar device
      (next answer).hold device
  | writeChar byte next =>
      let (answer, device) := Console.writeChar byte device
      (next answer).hold device
  | flush next =>
      let (answer, device) := Console.flush device
      (next answer).hold device

/-- The calls of a dialogue with a device, in order. -/
def transcript (d : Dialogue α) (device : σ) : List ConsoleCall :=
  match d with
  | done _ => []
  | keyAvailable next =>
      let (answer, device) := Console.keyAvailable device
      .keyAvailable answer :: (next answer).transcript device
  | readChar next =>
      let (answer, device) := Console.readChar device
      .readChar answer :: (next answer).transcript device
  | writeChar byte next =>
      let (answer, device) := Console.writeChar byte device
      .writeChar byte answer :: (next answer).transcript device
  | flush next =>
      let (answer, device) := Console.flush device
      .flush answer :: (next answer).transcript device

variable {β : Type}

@[simp] theorem hold_done (result : α) (device : σ) :
    (done result).hold device = (result, device) := rfl

@[simp] theorem transcript_done (result : α) (device : σ) :
    (done result).transcript device = [] := rfl

/-- The second dialogue is held with the device as the first one leaves it. -/
theorem hold_bind (d : Dialogue α) (f : α → Dialogue β) (device : σ) :
    (d.bind f).hold device = (f (d.hold device).1).hold (d.hold device).2 := by
  induction d generalizing device with
  | done => rfl
  | keyAvailable next ih => exact ih _ _
  | readChar next ih => exact ih _ _
  | writeChar byte next ih => exact ih _ _
  | flush next ih => exact ih _ _

/-- The calls of the second dialogue follow those of the first one. -/
theorem transcript_bind (d : Dialogue α) (f : α → Dialogue β) (device : σ) :
    (d.bind f).transcript device =
      d.transcript device ++ (f (d.hold device).1).transcript (d.hold device).2 := by
  induction d generalizing device with
  | done => rfl
  | keyAvailable next ih => exact congrArg _ (ih _ _)
  | readChar next ih => exact congrArg _ (ih _ _)
  | writeChar byte next ih => exact congrArg _ (ih _ _)
  | flush next ih => exact congrArg _ (ih _ _)

end Dialogue

end Lc3
