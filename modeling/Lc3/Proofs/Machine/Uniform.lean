import Lc3.Machine.Step
import Lc3.Proofs.Console.Alike

/-!
# The machine does not look at console errors

A step does the same whichever error a console call fails with; the error itself
is only passed on in the fault.  So every step goes alike with itself, and at
consoles with like answers it leaves equal machines and like results.
-/

namespace Lc3

variable (E : ConsoleError → ConsoleError → Prop)

/-- Faults that differ at most in their console errors. -/
inductive Fault.Alike : Fault → Fault → Prop
  | reservedOpcode (opcode : Opcode) (word addr : Word) :
      Alike (.reservedOpcode opcode word addr) (.reservedOpcode opcode word addr)
  | unknownTrap (vector : UInt8) (addr : Word) :
      Alike (.unknownTrap vector addr) (.unknownTrap vector addr)
  | console (routine : TrapRoutine) (addr : Word) {a b : ConsoleError} (h : E a b) :
      Alike (.console routine addr a) (.console routine addr b)

/-- Executions that differ at most in the console error of their fault. -/
inductive Execution.Alike : Execution → Execution → Prop
  | proceed (m : Machine) : Alike m.proceed m.proceed
  | raise (m : Machine) {f g : Fault} (h : f.Alike E g) : Alike (m.raise f) (m.raise g)

/-- Transitions to the same machine with like results. -/
structure Transition.Alike (t u : Transition) : Prop where
  machine : t.machine = u.machine
  result : OutcomeAlike (Fault.Alike E) Eq t.result u.result

namespace Dialogue

/-- An attempt that goes alike with itself. -/
def Uniform {α : Type} (a : Attempt α) : Prop := Alike E (OutcomeAlike E Eq) a.run a.run

variable {α β : Type}

theorem uniform_pure (x : α) : Uniform E (pure x : Attempt α) := .done (.ok rfl)

theorem uniform_bind {a : Attempt α} {f : α → Attempt β} (ha : Uniform E a)
    (hf : ∀ x, Uniform E (f x)) : Uniform E (a >>= f) := by
  show Alike E _ (a.run.bind (ExceptT.bindCont f)) (a.run.bind (ExceptT.bindCont f))
  refine Alike.bind ha fun outcome outcome' h => ?_
  cases h with
  | @ok x y h =>
      subst h
      exact hf x
  | error h => exact .done (.error h)

theorem uniform_read : Uniform E read := .readChar fun _ _ h => .done h

theorem uniform_write (byte : UInt8) : Uniform E (write byte) :=
  .writeChar byte fun _ _ h => .done h

theorem uniform_send : Uniform E send := .flush fun _ _ h => .done h

theorem uniform_writeAll (bytes : List UInt8) : Uniform E (writeAll bytes) := by
  induction bytes with
  | nil => exact uniform_pure E ()
  | cons byte rest ih => exact uniform_bind E (uniform_write E byte) fun _ => ih

theorem uniform_print (bytes : List UInt8) : Uniform E (TrapRoutine.print bytes) :=
  uniform_bind E (uniform_writeAll E bytes) fun _ => uniform_send E

end Dialogue

open Dialogue

theorem TrapRoutine.uniform_serve (routine : TrapRoutine) (r0 : Word) (mem : Memory) :
    Uniform E (routine.serve r0 mem) := by
  cases routine with
  | getc => exact uniform_bind E (uniform_read E) fun _ => uniform_pure E _
  | input =>
      refine uniform_bind E (uniform_print E _) fun _ => ?_
      refine uniform_bind E (uniform_read E) fun byte => ?_
      exact uniform_bind E (uniform_print E _) fun _ => uniform_pure E _
  | out | puts | putsp | halt =>
      exact uniform_bind E (uniform_print E _) fun _ => uniform_pure E _

/-- A failed read is no key, whatever the error. -/
theorem KeyPoll.ask_alike : Dialogue.Alike E Eq ask ask := by
  refine .keyAvailable fun answer => ?_
  cases answer with
  | false => exact .done rfl
  | true =>
      refine .readChar fun a b h => ?_
      cases h with
      | ok h =>
          subst h
          exact .done rfl
      | error _ => exact .done rfl

namespace Machine

theorem read_alike (m : Machine) (addr : Word) :
    Dialogue.Alike E Eq (m.read addr) (m.read addr) := by
  have hbefore : Dialogue.Alike E Eq (KeyPoll.before addr) (KeyPoll.before addr) := by
    unfold KeyPoll.before
    split
    · exact KeyPoll.ask_alike E
    · exact .done rfl
  refine Alike.bind hbefore fun poll poll' h => ?_
  subst h
  exact .done rfl

theorem fetch_alike (m : Machine) : Dialogue.Alike E Eq m.fetch m.fetch := by
  refine Alike.bind (read_alike E m m.registers.pc) fun fetched fetched' h => ?_
  subst h
  exact .done rfl

theorem trap_alike (m : Machine) (addr : Word) (vector : UInt8) :
    Dialogue.Alike E (Execution.Alike E) (m.trap addr vector) (m.trap addr vector) := by
  unfold trap
  split
  · exact .done (.raise m (.unknownTrap vector addr))
  · rename_i routine _
    refine Alike.bind (routine.uniform_serve E _ _) fun outcome outcome' h => ?_
    cases h with
    | ok h =>
        subst h
        exact .done (.proceed _)
    | error h => exact .done (.raise m (.console routine addr h))

/-- A computation that goes on with what a cell holds. -/
theorem read_bind_alike {m : Machine} {addr : Word} {next : Word × Machine → Dialogue Execution}
    (h : ∀ read, Dialogue.Alike E (Execution.Alike E) (next read) (next read)) :
    Dialogue.Alike E (Execution.Alike E) (m.read addr >>= next) (m.read addr >>= next) := by
  refine Alike.bind (read_alike E m addr) fun read read' heq => ?_
  subst heq
  exact h read

theorem execute_alike (m : Machine) (addr word : Word) (instruction : Instruction) :
    Dialogue.Alike E (Execution.Alike E) (m.execute addr word instruction)
      (m.execute addr word instruction) := by
  cases instruction with
  | ld | ldr | sti => exact read_bind_alike E fun read => .done (.proceed _)
  | ldi =>
      exact read_bind_alike E fun pointer => read_bind_alike E fun read => .done (.proceed _)
  | trap vector => exact trap_alike E m addr vector
  | rti => exact .done (.raise m (.reservedOpcode .rti word addr))
  | res => exact .done (.raise m (.reservedOpcode .res word addr))
  | jsr target => cases target <;> exact .done (.proceed _)
  | br | add | and | not | lea | st | str | jmp => exact .done (.proceed _)

theorem settle_alike (executing : Record) {x y : Execution} (h : x.Alike E y) :
    (settle executing x).Alike E (settle executing y) := by
  cases h with
  | proceed m => exact ⟨rfl, .ok rfl⟩
  | raise m h => exact ⟨rfl, .error h⟩

theorem step_alike (m : Machine) : Dialogue.Alike E (Transition.Alike E) m.step m.step := by
  cases hstatus : m.status with
  | halted =>
      rw [m.step_halted hstatus]
      exact .done ⟨rfl, .ok rfl⟩
  | running =>
      rw [m.step_running hstatus]
      refine Alike.bind (fetch_alike E m) fun fetched fetched' h => ?_
      subst h
      refine Alike.bind (execute_alike E _ _ _ _) fun execution execution' h => ?_
      exact .done (settle_alike E _ h)

end Machine

end Lc3
