import Lc3.Console.Device
import Mathlib

/-!
# Dialogues that go alike

Two dialogues go alike if they make the same calls and come to related results
whenever they are given like answers; answers are alike if they agree but for
related errors.  Two devices that give like answers, whatever is asked, cannot
be told apart by dialogues that go alike.
-/

namespace Lc3

/-- Both computations fail with related errors or succeed with related results. -/
inductive OutcomeAlike {ε ε' α β : Type} (E : ε → ε' → Prop) (R : α → β → Prop) :
    Except ε α → Except ε' β → Prop
  | ok {x : α} {y : β} (h : R x y) : OutcomeAlike E R (.ok x) (.ok y)
  | error {a : ε} {b : ε'} (h : E a b) : OutcomeAlike E R (.error a) (.error b)

section

variable (E : ConsoleError → ConsoleError → Prop)

/-- The same call with like answers. -/
inductive ConsoleCall.Alike : ConsoleCall → ConsoleCall → Prop
  | keyAvailable (answer : Bool) : Alike (.keyAvailable answer) (.keyAvailable answer)
  | readChar {a b : Except ConsoleError UInt8} (h : OutcomeAlike E Eq a b) :
      Alike (.readChar a) (.readChar b)
  | writeChar (byte : UInt8) {a b : Except ConsoleError Unit} (h : OutcomeAlike E Eq a b) :
      Alike (.writeChar byte a) (.writeChar byte b)
  | flush {a b : Except ConsoleError Unit} (h : OutcomeAlike E Eq a b) : Alike (.flush a) (.flush b)

/-- States of two devices that are related give like answers and stay related. -/
structure DevicesAlike {σ τ : Type} [Console σ] [Console τ] (sim : σ → τ → Prop) : Prop where
  keyAvailable {s : σ} {t : τ} (h : sim s t) :
    (Console.keyAvailable s).1 = (Console.keyAvailable t).1 ∧
      sim (Console.keyAvailable s).2 (Console.keyAvailable t).2
  readChar {s : σ} {t : τ} (h : sim s t) :
    OutcomeAlike E Eq (Console.readChar s).1 (Console.readChar t).1 ∧
      sim (Console.readChar s).2 (Console.readChar t).2
  writeChar {s : σ} {t : τ} (h : sim s t) (byte : UInt8) :
    OutcomeAlike E Eq (Console.writeChar byte s).1 (Console.writeChar byte t).1 ∧
      sim (Console.writeChar byte s).2 (Console.writeChar byte t).2
  flush {s : σ} {t : τ} (h : sim s t) :
    OutcomeAlike E Eq (Console.flush s).1 (Console.flush t).1 ∧
      sim (Console.flush s).2 (Console.flush t).2

end

namespace Dialogue

/-- Both dialogues make the same calls and come to related results if they are
given like answers. -/
inductive Alike {α β : Type} (E : ConsoleError → ConsoleError → Prop) (R : α → β → Prop) :
    Dialogue α → Dialogue β → Prop
  | done {x : α} {y : β} (h : R x y) : Alike E R (.done x) (.done y)
  | keyAvailable {f : Bool → Dialogue α} {g : Bool → Dialogue β}
      (h : ∀ answer, Alike E R (f answer) (g answer)) : Alike E R (.keyAvailable f) (.keyAvailable g)
  | readChar {f : Except ConsoleError UInt8 → Dialogue α}
      {g : Except ConsoleError UInt8 → Dialogue β}
      (h : ∀ a b, OutcomeAlike E Eq a b → Alike E R (f a) (g b)) :
      Alike E R (.readChar f) (.readChar g)
  | writeChar (byte : UInt8) {f : Except ConsoleError Unit → Dialogue α}
      {g : Except ConsoleError Unit → Dialogue β}
      (h : ∀ a b, OutcomeAlike E Eq a b → Alike E R (f a) (g b)) :
      Alike E R (.writeChar byte f) (.writeChar byte g)
  | flush {f : Except ConsoleError Unit → Dialogue α} {g : Except ConsoleError Unit → Dialogue β}
      (h : ∀ a b, OutcomeAlike E Eq a b → Alike E R (f a) (g b)) : Alike E R (.flush f) (.flush g)

namespace Alike

variable {E : ConsoleError → ConsoleError → Prop} {α β γ δ : Type} {R : α → β → Prop}
  {S : γ → δ → Prop} {d : Dialogue α} {e : Dialogue β}

theorem bind {f : α → Dialogue γ} {g : β → Dialogue δ} (h : Alike E R d e)
    (hnext : ∀ x y, R x y → Alike E S (f x) (g y)) : Alike E S (d.bind f) (e.bind g) := by
  induction h with
  | done hresult => exact hnext _ _ hresult
  | keyAvailable _ ih => exact .keyAvailable fun answer => ih answer
  | readChar _ ih => exact .readChar fun a b hanswer => ih a b hanswer
  | writeChar byte _ ih => exact .writeChar byte fun a b hanswer => ih a b hanswer
  | flush _ ih => exact .flush fun a b hanswer => ih a b hanswer

variable {σ τ : Type} [Console σ] [Console τ] {sim : σ → τ → Prop}

/-- Held with devices that answer alike, the dialogues come to related results,
leave the devices alike and have made like calls. -/
theorem hold (h : Alike E R d e) (hdevices : DevicesAlike E sim) {s : σ} {t : τ} (hsim : sim s t) :
    R (d.hold s).1 (e.hold t).1 ∧ sim (d.hold s).2 (e.hold t).2 ∧
      List.Forall₂ (ConsoleCall.Alike E) (d.transcript s) (e.transcript t) := by
  induction h generalizing s t with
  | done hresult => exact ⟨hresult, hsim, .nil⟩
  | @keyAvailable f g _ ih =>
      obtain ⟨hanswer, hnext⟩ := hdevices.keyAvailable hsim
      obtain ⟨hresult, hafter, hcalls⟩ := ih (Console.keyAvailable s).1 hnext
      have hcall := ConsoleCall.Alike.keyAvailable (E := E) (Console.keyAvailable s).1
      unfold Dialogue.hold Dialogue.transcript
      dsimp only
      rw [← hanswer]
      exact ⟨hresult, hafter, .cons hcall hcalls⟩
  | readChar _ ih =>
      obtain ⟨hanswer, hnext⟩ := hdevices.readChar hsim
      obtain ⟨hresult, hafter, hcalls⟩ := ih _ _ hanswer hnext
      exact ⟨hresult, hafter, .cons (.readChar hanswer) hcalls⟩
  | writeChar byte _ ih =>
      obtain ⟨hanswer, hnext⟩ := hdevices.writeChar hsim byte
      obtain ⟨hresult, hafter, hcalls⟩ := ih _ _ hanswer hnext
      exact ⟨hresult, hafter, .cons (.writeChar byte hanswer) hcalls⟩
  | flush _ ih =>
      obtain ⟨hanswer, hnext⟩ := hdevices.flush hsim
      obtain ⟨hresult, hafter, hcalls⟩ := ih _ _ hanswer hnext
      exact ⟨hresult, hafter, .cons (.flush hanswer) hcalls⟩

end Alike

end Dialogue

end Lc3
