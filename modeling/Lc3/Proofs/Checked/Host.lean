import Lc3.Proofs.Checked.Execution
import Lc3.Proofs.Checked.Image
import Lc3.Proofs.Session.Run

/-!
# Panics

A host makes a machine at a console and calls its operations in any order.  Here each
call is made on a bare machine, where every index, range, shift and sum is checked, and
on a session.  Both do the same, so that a call panics in one case only: if it copies
words past the end of memory.  Then nothing is copied.
-/

namespace Lc3

/-- A bare machine at a console. -/
structure Bench (σ : Type) where
  bare : Bare
  console : σ

/-- The operations that a host may call.  Streams and words are no larger than an
allocation can be. -/
inductive HostCall (σ : Type)
  | load (stream : ByteStream) (bounded : stream.content.length < 2 ^ 63)
  | loadImage (source : ImageSource)
  | step
  | run (limit : Nat)
  | getRegister (r : Word)
  | setRegister (r value : Word)
  | updateFlags (r : Word)
  | selectedBy (mask : Word)
  | setPc (addr : Word)
  | peek (addr : Word)
  | write (addr value : Word)
  /-- Read a cell as a program does, with any console to be polled. -/
  | read (addr : Word) (polled : σ)
  | copyFrom (origin : Word) (words : Allocation Word)
  | useConsole (f : σ → σ)

/-- What a call gives. -/
inductive Reply
  | done
  | word (w : Word)
  | truth (b : Bool)
  | loaded (result : Except LoadError Unit)
  | stepped (result : Except Fault Status)
  | ran (result : Option (Except Fault Unit))

namespace Procedure

/-- Load an image if there is one. -/
def load (image : Checked (Except LoadError BareImage)) : Procedure (Except LoadError Unit) := do
  match ← image with
  | .ok image => do
      copyFrom image.origin image.words
      pure (.ok ())
  | .error error => pure (.error error)

/-- An image that was made is loaded without a panic, for it fits. -/
theorem performs_load (source : ImageSource) (m : Machine) :
    Performs (load source.build) m
      (.done (match source.image with
        | .ok image => (.ok (), { m with memory := image.placeInto m.memory })
        | .error error => (.error error, m))) := by
  refine (performs_check source.build_eq m).next ?_
  cases source.image with
  | ok image => exact (performs_copyFrom m image.fits).next (performs_pure _ _)
  | error error => exact performs_pure _ m

end Procedure

namespace Bench

open Procedure

variable {α β σ : Type}

def of (s : Session σ) : Bench σ where
  bare := .of s.machine
  console := s.console

/-- A new machine at a console. -/
def initial (console : σ) : Bench σ where
  bare := .initial
  console := console

theorem of_start (console : σ) : of (Session.start console) = initial console :=
  congrArg (Bench.mk · console) Bare.of_initial

variable [Console σ]

def hold (bench : Bench σ) (a : Procedure α) : Except Panic α × Bench σ :=
  let ((result, bare), console) := (a.start bench.bare).hold bench.console
  (result, ⟨bare, console⟩)

theorem hold_bind (bench : Bench σ) (a : Procedure α) (f : α → Procedure β) :
    bench.hold (a >>= f) =
      match bench.hold a with
      | (.ok x, bench') => bench'.hold (f x)
      | (.error panic, bench') => (.error panic, bench') := by
  unfold hold
  rw [start_bind, Dialogue.hold_bind]
  rcases (a.start bench.bare).hold bench.console with ⟨⟨panic | x, bare⟩, console⟩ <;> rfl

/-- A procedure that performs an operation does not panic. -/
theorem hold_of_performs {a : Procedure α} {s : Session σ} {d : Dialogue (α × Machine)}
    (h : Performs a s.machine d) :
    (of s).hold a =
      (.ok (d.hold s.console).1.1,
        ⟨.of (d.hold s.console).1.2, (d.hold s.console).2⟩) := by
  unfold hold of
  rw [show a.start (Bare.of s.machine) = _ from h, Dialogue.hold_bind]
  rfl

theorem hold_step (s : Session σ) : (of s).hold step = (.ok s.step.1, of s.step.2) := by
  rw [hold_of_performs (performs_step s.machine), Dialogue.hold_bind]
  rfl

/-- The result of a run that ends with this result of its last step. -/
def ended : Option (Except Fault Status) → Option (Except Fault Unit)
  | some (.ok .halted) => some (.ok ())
  | some (.error fault) => some (.error fault)
  | _ => none

theorem hold_advance (limit : Nat) (p : Progress σ) (hgo : p.last = none ∨ p.isRunning = true) :
    (of p.session).hold (run limit) =
      (.ok (ended (p.advance limit).last), of (p.advance limit).session) := by
  -- a run goes on only from a start or from a step that has left the machine running
  induction limit generalizing p with
  | zero =>
      have hnone : ended p.last = none := by
        rcases hgo with hlast | hrunning
        · rw [hlast]
          rfl
        · rw [(Progress.isRunning_iff p).mp hrunning]
          rfl
      show _ = (Except.ok (ended p.last), of p.session)
      rw [hnone]
      rfl
  | succ limit ih =>
      have hlast : p.step.last = some p.session.step.1 := rfl
      have hsession : p.step.session = p.session.step.2 := rfl
      unfold run Progress.advance
      rw [hold_bind, hold_step, ← hsession]
      dsimp only
      by_cases hrunning : p.step.isRunning = true
      · have hresult := (Progress.isRunning_iff p.step).mp hrunning
        rw [hlast, Option.some.injEq] at hresult
        rw [if_pos hrunning, ← ih p.step (Or.inr hrunning), hresult]
      · rw [if_neg hrunning, hlast]
        rw [Progress.isRunning_iff, hlast, Option.some.injEq] at hrunning
        rcases hresult : p.session.step.1 with fault | (_ | _)
        · rfl
        · exact absurd hresult hrunning
        · rfl

theorem hold_run (s : Session σ) (limit : Nat) :
    (of s).hold (run limit) = (.ok (s.run limit).1, of (s.run limit).2) := by
  have hadvance := hold_advance limit (Progress.start s.noted) (Or.inl rfl)
  rw [s.run_eq limit]
  refine Eq.trans hadvance ?_
  show (Except.ok (ended (s.progress limit).last), of (s.progress limit).session) = _
  rcases (s.progress limit).last with _ | fault | (_ | _) <;> rfl

/-- Hold a procedure for its reply. -/
def ask (bench : Bench σ) (a : Procedure α) (reply : α → Reply) : Except Panic Reply × Bench σ :=
  let (result, bench) := bench.hold a
  (result.map reply, bench)

theorem ask_of_hold {bench bench' : Bench σ} {a : Procedure α} {x : α}
    (h : bench.hold a = (.ok x, bench')) (reply : α → Reply) :
    bench.ask a reply = (.ok (reply x), bench') := by
  unfold ask
  rw [h]
  rfl

/-- Read a cell with another console to be polled. -/
def pollAt (bench : Bench σ) (addr : Word) (polled : σ) : Except Panic Reply × Bench σ :=
  let (result, after) := { bench with console := polled }.ask (read addr) .word
  (result, { after with console := bench.console })

/-- Make a call. -/
def perform (bench : Bench σ) : HostCall σ → Except Panic Reply × Bench σ
  | .load stream _ => bench.ask (load (Checked.imageOfStream stream)) .loaded
  | .loadImage source => bench.ask (load source.build) .loaded
  | .step => bench.ask step .stepped
  | .run limit => bench.ask (run limit) .ran
  | .getRegister r => bench.ask (getRegister r) .word
  | .setRegister r value => bench.ask (setRegister r value) fun _ => .done
  | .updateFlags r => bench.ask (updateFlags r) fun _ => .done
  | .selectedBy mask => bench.ask (selectedBy mask) .truth
  | .setPc addr => bench.ask (setPc addr) fun _ => .done
  | .peek addr => bench.ask (peek addr) .word
  | .write addr value => bench.ask (write addr value) fun _ => .done
  | .read addr polled => bench.pollAt addr polled
  | .copyFrom origin words => bench.ask (copyFrom origin words.items) fun _ => .done
  | .useConsole f => (.ok .done, { bench with console := f bench.console })

/-- The bench after some calls, whether or not they have panicked. -/
def performAll (bench : Bench σ) : List (HostCall σ) → Bench σ
  | [] => bench
  | call :: rest => (bench.perform call).2.performAll rest

end Bench

namespace Session

variable {σ : Type}

/-- The session with another machine. -/
def withMachine (s : Session σ) (machine : Machine) : Session σ := { s with machine := machine }

/-- Load an image if there is one. -/
def loadFrom (s : Session σ) : Except LoadError Image → Except LoadError Unit × Session σ
  | .ok image => (.ok (), s.loadImage image)
  | .error error => (.error error, s)

theorem load_eq_loadFrom (s : Session σ) (stream : ByteStream) :
    s.load stream = s.loadFrom (Image.ofStream stream) := by
  unfold load
  cases Image.ofStream stream <;> rfl

/-- Copy words to memory if they fit. -/
def copyFrom (s : Session σ) (origin : Word) (words : List Word) : Option Reply × Session σ :=
  match s.machine.memory.place? origin words with
  | some memory => (some .done, s.withMachine { s.machine with memory := memory })
  | none => (none, s)

theorem copyFrom_of_fits (s : Session σ) {origin : Word} {words : List Word}
    (h : origin.toNat + words.length ≤ 65536) :
    s.copyFrom origin words =
      (some .done,
        s.withMachine { s.machine with memory := s.machine.memory.writeAll origin words }) := by
  unfold copyFrom Memory.place?
  rw [if_pos h]

theorem copyFrom_of_not_fits (s : Session σ) {origin : Word} {words : List Word}
    (h : 65536 < origin.toNat + words.length) : s.copyFrom origin words = (none, s) := by
  unfold copyFrom Memory.place?
  rw [if_neg (by omega)]

variable [Console σ]

/-- Make a call, which has no reply if its words do not fit into memory. -/
def answer (s : Session σ) : HostCall σ → Option Reply × Session σ
  | .load stream _ => (some (.loaded (s.load stream).1), (s.load stream).2)
  | .loadImage source =>
      (some (.loaded (s.loadFrom source.image).1), (s.loadFrom source.image).2)
  | .step => (some (.stepped s.step.1), s.step.2)
  | .run limit => (some (.ran (s.run limit).1), (s.run limit).2)
  | .getRegister r => (some (.word (s.machine.get r)), s)
  | .setRegister r value => (some .done, s.withMachine (s.machine.set r value))
  | .updateFlags r =>
      (some .done,
        s.withMachine { s.machine with registers := s.machine.registers.setCondition r })
  | .selectedBy mask => (some (.truth (s.machine.registers.selectedBy mask)), s)
  | .setPc addr => (some .done, s.withMachine (s.machine.jump addr))
  | .peek addr => (some (.word (s.machine.memory.peek addr)), s)
  | .write addr value => (some .done, s.withMachine (s.machine.write addr value))
  | .read addr polled =>
      let read := ((s.machine.read addr).hold polled).1
      (some (.word read.1), s.withMachine read.2)
  | .copyFrom origin words => s.copyFrom origin words.items
  | .useConsole f => (some .done, { s with console := f s.console })

/-- The session after some calls. -/
def answerAll (s : Session σ) : List (HostCall σ) → Session σ
  | [] => s
  | call :: rest => (s.answer call).2.answerAll rest

/-- Only words that do not fit are left without a reply, and they change nothing. -/
theorem answer_cases (s : Session σ) (call : HostCall σ) :
    (∃ reply, (s.answer call).1 = some reply ∧
        ∀ origin words, call = .copyFrom origin words →
          origin.toNat + words.items.length ≤ 65536) ∨
      s.answer call = (none, s) ∧
        ∃ origin words, call = .copyFrom origin words ∧
          65536 < origin.toNat + words.items.length := by
  cases call with
  | copyFrom origin words =>
      by_cases hfits : origin.toNat + words.items.length ≤ 65536
      · refine Or.inl ⟨.done, congrArg Prod.fst (s.copyFrom_of_fits hfits), ?_⟩
        rintro _ _ ⟨⟩
        exact hfits
      · exact Or.inr ⟨s.copyFrom_of_not_fits (by omega), origin, words, rfl, by omega⟩
  | _ => exact Or.inl ⟨_, rfl, nofun⟩

end Session

namespace Bench

open Procedure

variable {σ : Type} [Console σ]

/-- What a call gives on the bench of a session. -/
def outcome : Option Reply → Except Panic Reply
  | some reply => .ok reply
  | none => .error .slice

/-- An image is loaded on the bench as in the session. -/
theorem ask_load (s : Session σ) (source : ImageSource) :
    (of s).ask (load source.build) .loaded =
      (.ok (.loaded (s.loadFrom source.image).1), of (s.loadFrom source.image).2) := by
  rw [ask_of_hold (hold_of_performs (performs_load source s.machine)) .loaded]
  cases source.image <;> rfl

/-- Words are copied on the bench as in the session, and if they do not fit they are not
copied at all. -/
theorem ask_copyFrom (s : Session σ) (origin : Word) (words : Allocation Word) :
    (of s).ask (copyFrom origin words.items) (fun _ => .done) =
      (outcome (s.copyFrom origin words.items).1, of (s.copyFrom origin words.items).2) := by
  by_cases hfits : origin.toNat + words.items.length ≤ 65536
  · have hcopied := hold_of_performs (performs_copyFrom s.machine hfits)
    rw [s.copyFrom_of_fits hfits, ask_of_hold hcopied]
    rfl
  · have hrefused := start_copyFrom_of_not_fits s.machine words.bounded
      (show 65536 < origin.toNat + words.items.length by omega)
    rw [s.copyFrom_of_not_fits (by omega)]
    unfold ask hold of
    rw [hrefused]
    rfl

theorem pollAt_eq (s : Session σ) (addr : Word) (polled : σ) :
    (of s).pollAt addr polled =
      (.ok (.word ((s.machine.read addr).hold polled).1.1),
        of (s.withMachine ((s.machine.read addr).hold polled).1.2)) := by
  have hread := hold_of_performs (s := { s with console := polled }) (performs_read s.machine addr)
  unfold pollAt
  rw [show Bench.mk (of s).bare polled = of { s with console := polled } from rfl,
    ask_of_hold hread]
  rfl

/-- A call on the bench does what it does in the session. -/
theorem perform_eq (s : Session σ) (call : HostCall σ) :
    (of s).perform call = (outcome (s.answer call).1, of (s.answer call).2) := by
  cases call with
  | load stream bounded =>
      -- a stream is decoded and then loaded like any other image
      show (of s).ask (load (ImageSource.stream stream bounded).build) .loaded =
        (.ok (.loaded (s.load stream).1), of (s.load stream).2)
      rw [ask_load, s.load_eq_loadFrom]
      rfl
  | loadImage source => exact ask_load s source
  | step => exact ask_of_hold (hold_step s) .stepped
  | run limit => exact ask_of_hold (hold_run s limit) .ran
  | getRegister r => exact ask_of_hold (hold_of_performs (performs_getRegister s.machine r)) .word
  | setRegister r value =>
      exact ask_of_hold (hold_of_performs (performs_setRegister s.machine r value)) _
  | updateFlags r => exact ask_of_hold (hold_of_performs (performs_updateFlags s.machine r)) _
  | selectedBy mask =>
      exact ask_of_hold (hold_of_performs (performs_selectedBy s.machine mask)) .truth
  | setPc addr => exact ask_of_hold (hold_of_performs (performs_setPc s.machine addr)) _
  | peek addr => exact ask_of_hold (hold_of_performs (performs_peek s.machine addr)) .word
  | write addr value =>
      exact ask_of_hold (hold_of_performs (performs_write s.machine addr value)) _
  | read addr polled => exact pollAt_eq s addr polled
  | copyFrom origin words => exact ask_copyFrom s origin words
  | useConsole f => rfl

theorem performAll_eq (s : Session σ) (calls : List (HostCall σ)) :
    (of s).performAll calls = of (s.answerAll calls) := by
  induction calls generalizing s with
  | nil => rfl
  | cons call rest ih =>
      unfold performAll Session.answerAll
      rw [perform_eq, ih]

/-- A call has its reply, or its words do not fit and it panics without any change. -/
theorem perform_cases (s : Session σ) (call : HostCall σ) :
    (∃ reply, (s.answer call).1 = some reply ∧
        (of s).perform call = (.ok reply, of (s.answer call).2) ∧
        ∀ origin words, call = .copyFrom origin words →
          origin.toNat + words.items.length ≤ 65536) ∨
      (of s).perform call = (.error .slice, of s) ∧
        ∃ origin words, call = .copyFrom origin words ∧
          65536 < origin.toNat + words.items.length := by
  rw [perform_eq]
  rcases s.answer_cases call with ⟨reply, hreply, hfits⟩ | ⟨hnone, hwords⟩
  · rw [hreply]
    exact Or.inl ⟨reply, rfl, rfl, hfits⟩
  · rw [hnone]
    exact Or.inr ⟨rfl, hwords⟩

/-- After any calls of a new machine the memory has its 65536 cells, and the next call
panics exactly if it copies words past the end of memory, which then changes nothing.  All
calls do what they do in a session.  Every image that is made fits into memory, so that
making and loading images never panics. -/
theorem perform_panics_iff (console : σ) (calls : List (HostCall σ)) (call : HostCall σ) :
    let bench := (initial console).performAll calls
    let session := (Session.start console).answerAll calls
    bench = of session ∧
      bench.bare.cells.size = 65536 ∧
      bench.bare.general.size = 8 ∧
      ((∃ panic, (bench.perform call).1 = .error panic) ↔
        ∃ origin words, call = .copyFrom origin words ∧
          65536 < origin.toNat + words.items.length) ∧
      (bench.perform call = (.error .slice, bench) ∨
        ∃ reply, bench.perform call = (.ok reply, of (session.answer call).2) ∧
          (session.answer call).1 = some reply) ∧
      ∀ source : ImageSource,
        (∃ error, source.build = .ok (.error error) ∧ source.image = .error error) ∨
          ∃ image, source.build = .ok (.ok (BareImage.of image)) ∧ source.image = .ok image ∧
            image.origin.toNat + image.words.length ≤ 65536 := by
  intro bench session
  have hbench : bench = of session := by
    show (initial console).performAll calls = _
    rw [← of_start, performAll_eq]
  refine ⟨hbench, ?_, ?_, ?_, ?_, ?_⟩
  · rw [hbench]
    exact Bare.size_cells session.machine
  · rw [hbench]
    exact Bare.size_general session.machine
  · rw [hbench]
    rcases perform_cases session call with ⟨reply, -, hdone, hfits⟩ | ⟨hpanic, hwords⟩
    · rw [hdone]
      refine iff_of_false nofun ?_
      rintro ⟨origin, words, rfl, hlarge⟩
      have := hfits origin words rfl
      omega
    · rw [hpanic]
      exact iff_of_true ⟨.slice, rfl⟩ hwords
  · rw [hbench]
    rcases perform_cases session call with ⟨reply, hreply, hdone, -⟩ | ⟨hpanic, -⟩
    · exact Or.inr ⟨reply, hdone, hreply⟩
    · exact Or.inl hpanic
  · intro source
    rw [source.build_eq]
    cases source.image with
    | ok image => exact Or.inr ⟨image, rfl, rfl, image.fits⟩
    | error error => exact Or.inl ⟨error, rfl, rfl⟩

end Bench

end Lc3
