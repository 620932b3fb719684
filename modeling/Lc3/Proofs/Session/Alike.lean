import Lc3.Proofs.Console.Faithful
import Lc3.Proofs.Machine.Uniform
import Lc3.Proofs.Session.Run

/-!
# Sessions at consoles that answer alike

Two sessions of one machine at consoles with like answers go through the same
machine states and come to like results, for any number of steps and for whole
runs.  A stream and a buffer with the same content are such consoles.
-/

namespace Lc3

open OutputConsole (output)

variable {E : ConsoleError → ConsoleError → Prop} {σ τ : Type} {sim : σ → τ → Prop}

namespace Session

/-- The same machine at related consoles. -/
structure Alike (sim : σ → τ → Prop) (s : Session σ) (t : Session τ) : Prop where
  machine : s.machine = t.machine
  console : sim s.console t.console

theorem Alike.note {s : Session σ} {t : Session τ} (h : s.Alike sim t) (first second : Record) :
    (s.note first).Alike sim (t.note second) := ⟨h.machine, h.console⟩

end Session

variable [Console σ] [Console τ]

/-- Results of steps or runs that differ at most in their console errors. -/
abbrev ResultAlike (E : ConsoleError → ConsoleError → Prop) {α : Type} :
    Except Fault α → Except Fault α → Prop :=
  OutcomeAlike (Fault.Alike E) Eq

namespace Session

variable {s : Session σ} {t : Session τ}

theorem Alike.step (h : s.Alike sim t) (hdevices : DevicesAlike E sim) :
    ResultAlike E s.step.1 t.step.1 ∧ s.step.2.Alike sim t.step.2 := by
  obtain ⟨htransition, hconsole, -⟩ := (s.machine.step_alike E).hold hdevices h.console
  have hmachine : t.machine.step = s.machine.step := by rw [h.machine]
  have ht : t.step.1 = (s.machine.step.hold t.console).1.result ∧
      t.step.2.machine = (s.machine.step.hold t.console).1.machine ∧
      t.step.2.console = (s.machine.step.hold t.console).2 := by
    rw [← hmachine]
    exact ⟨rfl, rfl, rfl⟩
  rw [ht.1]
  refine ⟨htransition.result, ?_, ?_⟩
  · rw [ht.2.1]
    exact htransition.machine
  · rw [ht.2.2]
    exact hconsole

theorem Alike.after (h : s.Alike sim t) (hdevices : DevicesAlike E sim) (n : Nat) :
    (s.after n).Alike sim (t.after n) := by
  induction n with
  | zero => exact h
  | succ n ih => exact (ih.step hdevices).2

theorem Alike.resultAt (h : s.Alike sim t) (hdevices : DevicesAlike E sim) (n : Nat) :
    ResultAlike E (s.resultAt n) (t.resultAt n) := ((h.after hdevices n).step hdevices).1

end Session

namespace Progress

/-- As many steps with like results and sessions. -/
structure Alike (E : ConsoleError → ConsoleError → Prop) (sim : σ → τ → Prop) (p : Progress σ)
    (q : Progress τ) : Prop where
  session : p.session.Alike sim q.session
  steps : p.steps = q.steps
  last : Option.Rel (ResultAlike E) p.last q.last

variable {p : Progress σ} {q : Progress τ}

theorem Alike.step (h : p.Alike E sim q) (hdevices : DevicesAlike E sim) :
    p.step.Alike E sim q.step := by
  obtain ⟨hresult, hsession⟩ := h.session.step hdevices
  exact ⟨hsession, congrArg (· + 1) h.steps, .some hresult⟩

omit [Console σ] [Console τ] in
theorem Alike.isRunning (h : p.Alike E sim q) : p.isRunning = q.isRunning := by
  have hlast := h.last
  unfold Progress.isRunning
  generalize p.last = first at hlast ⊢
  generalize q.last = second at hlast ⊢
  cases hlast with
  | none => rfl
  | some hresult =>
      cases hresult with
      | ok heq => rw [heq]
      | error _ => rfl

theorem Alike.advance (h : p.Alike E sim q) (hdevices : DevicesAlike E sim) (limit : Nat) :
    (p.advance limit).Alike E sim (q.advance limit) := by
  induction limit generalizing p q with
  | zero => exact h
  | succ limit ih =>
      have hstep := h.step hdevices
      unfold Progress.advance
      by_cases hrunning : p.step.isRunning = true
      · rw [if_pos hrunning, if_pos (hstep.isRunning ▸ hrunning)]
        exact ih hstep
      · rw [if_neg hrunning, if_neg (hstep.isRunning ▸ hrunning)]
        exact hstep

end Progress

namespace Session

variable {s : Session σ} {t : Session τ}

/-- Runs come to like ends, or both come to their limit. -/
theorem Alike.run (h : s.Alike sim t) (hdevices : DevicesAlike E sim) (limit : Nat) :
    Option.Rel (ResultAlike E) (s.run limit).1 (t.run limit).1 ∧
      (s.run limit).2.Alike sim (t.run limit).2 := by
  have hstart : (Progress.start s.noted).Alike E sim (Progress.start t.noted) :=
    ⟨h.note _ _, rfl, .none⟩
  have hprogress := hstart.advance hdevices limit
  have hsession := hprogress.session
  have hlast := hprogress.last
  rw [run_eq, run_eq]
  unfold progress
  generalize (Progress.start s.noted).advance limit = p at hsession hlast ⊢
  generalize (Progress.start t.noted).advance limit = q at hsession hlast ⊢
  generalize p.last = first at hlast ⊢
  generalize q.last = second at hlast ⊢
  cases hlast with
  | none => exact ⟨.none, hsession⟩
  | some hresult =>
      cases hresult with
      | @ok status _ heq =>
          subst heq
          cases status with
          | running => exact ⟨.none, hsession⟩
          | halted => exact ⟨.some (.ok rfl), hsession.note _ _⟩
      | error hfault => exact ⟨.some (.error hfault), hsession⟩

/-- A console on a stream answers like a buffer with the same content, call by call:
each tells whether a byte is undelivered, gives the next one or fails at the end, and
takes what is written; only the text of the error differs.  So a machine, whatever
is loaded, goes through the same states with the same output at either of them, and
a run comes to the same end but for that text. -/
theorem piped_refines_buffer (bytes : List UInt8) :
    (∀ requests : List ConsoleRequest,
      let dialogue := Dialogue.requesting requests
      let piped := dialogue.transcript (Piped.ofStream bytes)
      let buffered := dialogue.transcript (Buffer.ofInput bytes)
      piped.map ConsoleCall.request = requests ∧ buffered.map ConsoleCall.request = requests ∧
        AnsweredFrom .endOfInput bytes piped ∧ AnsweredFrom .inputExhausted bytes buffered ∧
        List.Forall₂ (ConsoleCall.Alike ConsoleError.SameKind) piped buffered ∧
        (dialogue.hold (Piped.ofStream bytes)).2.output =
          (dialogue.hold (Buffer.ofInput bytes)).2.output ∧
        (dialogue.hold (Piped.ofStream bytes)).2.output.toList = sent piped) ∧
      ∀ (machine : Machine) (first second : Log) (n limit : Nat),
        let piped : Session Piped := ⟨machine, .ofStream bytes, first⟩
        let buffered : Session Buffer := ⟨machine, .ofInput bytes, second⟩
        (piped.after n).machine = (buffered.after n).machine ∧
          (piped.after n).console.output = (buffered.after n).console.output ∧
          ResultAlike ConsoleError.SameKind (piped.resultAt n) (buffered.resultAt n) ∧
          Option.Rel (ResultAlike ConsoleError.SameKind) (piped.run limit).1
            (buffered.run limit).1 ∧
          (piped.run limit).2.machine = (buffered.run limit).2.machine ∧
          (piped.run limit).2.console.output = (buffered.run limit).2.console.output := by
  have hstreams := sameStreams_start bytes
  constructor
  · intro requests dialogue piped buffered
    obtain ⟨-, hafter, hcalls⟩ :=
      (Dialogue.requesting_alike _ requests).hold piped_buffer_alike hstreams
    exact ⟨Dialogue.request_transcript requests _, Dialogue.request_transcript requests _,
      Dialogue.answeredFrom_transcript Piped.faithful dialogue (Piped.ofStream bytes),
      Dialogue.answeredFrom_transcript Buffer.faithful dialogue (Buffer.ofInput bytes), hcalls,
      Array.toList_inj.mp hafter.output, Dialogue.output_hold dialogue (Piped.ofStream bytes)⟩
  · intro machine first second n limit piped buffered
    have halike : piped.Alike SameStreams buffered := ⟨rfl, hstreams⟩
    have hafter := halike.after piped_buffer_alike n
    obtain ⟨hresult, hend⟩ := halike.run piped_buffer_alike limit
    exact ⟨hafter.machine, Array.toList_inj.mp hafter.console.output,
      halike.resultAt piped_buffer_alike n, hresult, hend.machine,
      Array.toList_inj.mp hend.console.output⟩

end Session

end Lc3
