import Lc3.Proofs.Console.Attempt

/-!
# Calls that wait for the keyboard

A call waits for the keyboard if it asks for a key or reads one.  An attempt is
prompt if nothing is unflushed whenever it waits, and nothing is left unflushed
when it succeeds.  This is kept when attempts are put one after the other, hence
all trap routines are prompt: `IN` is the only one that writes before it reads,
and it flushes in between.
-/

namespace Lc3

namespace ConsoleCall

/-- The call asks for a key. -/
def isPoll : ConsoleCall → Bool
  | keyAvailable _ => true
  | _ => false

/-- The call reads a byte. -/
def isRead : ConsoleCall → Bool
  | readChar _ => true
  | _ => false

/-- The call waits for the keyboard. -/
def waits (call : ConsoleCall) : Bool := call.isPoll || call.isRead

/-- The unflushed bytes after the call, if these were unflushed before it. -/
def leaves (pending : List UInt8) : ConsoleCall → List UInt8
  | writeChar byte (.ok _) => pending ++ [byte]
  | flush (.ok _) => []
  | _ => pending

end ConsoleCall

/-- The bytes that were written with success, and after which no flush has succeeded. -/
def unflushed (calls : List ConsoleCall) : List UInt8 := calls.foldl ConsoleCall.leaves []

theorem unflushed_append {first second : List ConsoleCall} (h : unflushed first = []) :
    unflushed (first ++ second) = unflushed second := by
  unfold unflushed at h ⊢
  rw [List.foldl_append, h]

theorem unflushed_of_waits {calls : List ConsoleCall} (h : ∀ call ∈ calls, call.waits = true) :
    unflushed calls = [] := by
  induction calls with
  | nil => rfl
  | cons call rest ih =>
      obtain ⟨hcall, hrest⟩ := List.forall_mem_cons.mp h
      have hkept : unflushed [call] = [] := by
        cases call with
        | keyAvailable _ | readChar _ => rfl
        | writeChar _ _ | flush _ => cases hcall
      exact (unflushed_append hkept).trans (ih hrest)

/-- Nothing is unflushed when one of the calls waits for the keyboard. -/
def FlushedAtWaits (calls : List ConsoleCall) : Prop :=
  ∀ before call later, calls = before ++ call :: later → call.waits = true →
    unflushed before = []

namespace FlushedAtWaits

theorem of_no_waits {calls : List ConsoleCall} (h : ∀ call ∈ calls, call.waits = false) :
    FlushedAtWaits calls := by
  rintro before call later rfl hwaits
  have hquiet := h call (by simp)
  rw [hwaits] at hquiet
  cases hquiet

theorem of_waits {calls : List ConsoleCall} (h : ∀ call ∈ calls, call.waits = true) :
    FlushedAtWaits calls := by
  rintro before call later rfl -
  exact unflushed_of_waits fun earlier hearlier => h earlier (List.mem_append_left _ hearlier)

/-- The later calls begin with nothing unflushed. -/
theorem append {first second : List ConsoleCall} (hfirst : FlushedAtWaits first)
    (hnone : unflushed first = []) (hsecond : FlushedAtWaits second) :
    FlushedAtWaits (first ++ second) := by
  intro before call later hsplit hwaits
  -- the waiting call is one of the second calls, or one of the first
  rcases List.append_eq_append_iff.mp hsplit with ⟨between, rfl, hlater⟩ | ⟨between, hbefore, hlater⟩
  · rw [unflushed_append hnone]
    exact hsecond between call later hlater hwaits
  · cases between with
    | nil =>
        rw [List.append_nil] at hbefore
        rw [← hbefore]
        exact hnone
    | cons next rest =>
        obtain ⟨rfl, -⟩ := List.cons_eq_cons.mp hlater
        exact hfirst before call rest hbefore hwaits

end FlushedAtWaits

namespace Dialogue

variable {α β : Type}

/-- An attempt asks for no key and reads at most so many times, at every console. -/
def ReadsAtMost (n : Nat) (a : Attempt α) : Prop :=
  ∀ (σ : Type) [Console σ] (console : σ),
    (a.run.transcript console).countP ConsoleCall.isPoll = 0 ∧
      (a.run.transcript console).countP ConsoleCall.isRead ≤ n

theorem ReadsAtMost.no_waits {a : Attempt α} (h : ReadsAtMost 0 a) {σ : Type} [Console σ]
    (console : σ) : ∀ call ∈ a.run.transcript console, call.waits = false := by
  obtain ⟨hpolls, hreads⟩ := h σ console
  intro call hcall
  have hpoll : ¬ call.isPoll = true := List.countP_eq_zero.mp hpolls call hcall
  have hread : ¬ call.isRead = true :=
    List.countP_eq_zero.mp (Nat.le_zero.mp hreads) call hcall
  simp [ConsoleCall.waits, hpoll, hread]

theorem readsAtMost_pure (x : α) : ReadsAtMost 0 (pure x : Attempt α) :=
  fun _ _ _ => ⟨rfl, Nat.le_refl 0⟩

theorem readsAtMost_bind {a : Attempt α} {f : α → Attempt β} {m n : Nat}
    (ha : ReadsAtMost m a) (hf : ∀ x, ReadsAtMost n (f x)) : ReadsAtMost (m + n) (a >>= f) := by
  intro σ _ console
  obtain ⟨hpolls, hreads⟩ := ha σ console
  rw [transcript_run_bind, List.countP_append, List.countP_append]
  rcases a.run.hold console with ⟨cause | x, console'⟩
  · simp only [List.countP_nil]
    omega
  · obtain ⟨hpolls', hreads'⟩ := hf x σ console'
    dsimp only
    omega

theorem readsAtMost_read : ReadsAtMost 1 read := fun _ _ _ => ⟨rfl, Nat.le_refl 1⟩

theorem readsAtMost_write (byte : UInt8) : ReadsAtMost 0 (write byte) :=
  fun _ _ _ => ⟨rfl, Nat.le_refl 0⟩

theorem readsAtMost_send : ReadsAtMost 0 send := fun _ _ _ => ⟨rfl, Nat.le_refl 0⟩

theorem readsAtMost_writeAll (bytes : List UInt8) : ReadsAtMost 0 (writeAll bytes) := by
  induction bytes with
  | nil => exact readsAtMost_pure ()
  | cons byte rest ih => exact readsAtMost_bind (readsAtMost_write byte) fun _ => ih

theorem readsAtMost_print (bytes : List UInt8) : ReadsAtMost 0 (TrapRoutine.print bytes) :=
  readsAtMost_bind (readsAtMost_writeAll bytes) fun _ => readsAtMost_send

theorem unflushed_printed (bytes : List UInt8) : unflushed (printed bytes) = [] := by
  unfold unflushed printed
  rw [List.foldl_append]
  rfl

/-- Nothing is unflushed when the attempt waits for the keyboard, and nothing is left
unflushed if it succeeds, at every console. -/
def Prompt (a : Attempt α) : Prop :=
  ∀ (σ : Type) [Console σ] (console : σ),
    FlushedAtWaits (a.run.transcript console) ∧
      ∀ x, (a.run.hold console).1 = .ok x → unflushed (a.run.transcript console) = []

theorem prompt_pure (x : α) : Prompt (pure x : Attempt α) :=
  fun _ _ _ => ⟨.of_no_waits (List.forall_mem_nil _), fun _ _ => rfl⟩

theorem prompt_bind {a : Attempt α} {f : α → Attempt β} (ha : Prompt a)
    (hf : ∀ x, Prompt (f x)) : Prompt (a >>= f) := by
  intro σ _ console
  obtain ⟨hwaits, hflushed⟩ := ha σ console
  rw [transcript_run_bind, hold_run_bind]
  -- the second part makes calls only if the first has succeeded
  rcases hheld : a.run.hold console with ⟨cause | x, console'⟩
  · dsimp only
    rw [List.append_nil]
    exact ⟨hwaits, fun _ h => by cases h⟩
  · have hnone := hflushed x (congrArg Prod.fst hheld)
    obtain ⟨hwaits', hflushed'⟩ := hf x σ console'
    refine ⟨hwaits.append hnone hwaits', fun y hy => ?_⟩
    exact (unflushed_append hnone).trans (hflushed' y hy)

theorem prompt_read : Prompt read := by
  intro σ _ console
  have hwaits : ∀ call ∈ read.run.transcript console, call.waits = true := by
    intro call hcall
    obtain rfl : call = _ := List.mem_singleton.mp hcall
    rfl
  exact ⟨.of_waits hwaits, fun _ _ => unflushed_of_waits hwaits⟩

theorem prompt_print (bytes : List UInt8) : Prompt (TrapRoutine.print bytes) := by
  intro σ _ console
  refine ⟨.of_no_waits ((readsAtMost_print bytes).no_waits console), fun _ h => ?_⟩
  rw [transcript_print_of_ok bytes console h]
  exact unflushed_printed bytes

end Dialogue

namespace TrapRoutine

open Dialogue

/-- The routine takes input. -/
def Reads (routine : TrapRoutine) : Prop := routine = .getc ∨ routine = .input

instance (routine : TrapRoutine) : Decidable routine.Reads :=
  inferInstanceAs (Decidable (routine = .getc ∨ routine = .input))

/-- No trap routine asks for a key, and only `GETC` and `IN` read, each once. -/
theorem readsAtMost_serve (routine : TrapRoutine) (r0 : Word) (mem : Memory) :
    ReadsAtMost (if routine.Reads then 1 else 0) (routine.serve r0 mem) := by
  cases routine with
  | getc => exact readsAtMost_bind readsAtMost_read fun _ => readsAtMost_pure _
  | input =>
      refine readsAtMost_bind (m := 0) (n := 1) (readsAtMost_print _) fun _ => ?_
      refine readsAtMost_bind (m := 1) (n := 0) readsAtMost_read fun byte => ?_
      exact readsAtMost_bind (readsAtMost_print _) fun _ => readsAtMost_pure _
  | out | puts | putsp | halt =>
      exact readsAtMost_bind (readsAtMost_print _) fun _ => readsAtMost_pure _

/-- Every trap routine is prompt. -/
theorem prompt_serve (routine : TrapRoutine) (r0 : Word) (mem : Memory) :
    Prompt (routine.serve r0 mem) := by
  cases routine with
  | getc => exact prompt_bind prompt_read fun _ => prompt_pure _
  | input =>
      refine prompt_bind (prompt_print _) fun _ => ?_
      refine prompt_bind prompt_read fun byte => ?_
      exact prompt_bind (prompt_print _) fun _ => prompt_pure _
  | out | puts | putsp | halt => exact prompt_bind (prompt_print _) fun _ => prompt_pure _

/-- `IN` has printed its prompt when it reads. -/
theorem before_read_serve_input (r0 : Word) (mem : Memory) {σ : Type} [Console σ] (console : σ)
    {before later : List ConsoleCall} {answer : Except ConsoleError UInt8}
    (h : (serve .input r0 mem).run.transcript console = before ++ .readChar answer :: later) :
    before = printed [inputPrompt] := by
  have hquiet : ∀ {α : Type} {a : Attempt α}, ReadsAtMost 0 a → ∀ console : σ,
      .readChar answer ∉ a.run.transcript console := by
    intro α a ha console hmem
    cases ha.no_waits console _ hmem
  have hsplit : (serve .input r0 mem).run.transcript console = _ :=
    transcript_run_bind (print [inputPrompt]) _ console
  have hprompt := hquiet (readsAtMost_print [inputPrompt]) console
  rcases hheld : (print [inputPrompt]).run.hold console with ⟨cause | x, console'⟩ <;>
    rw [hheld, h] at hsplit <;> dsimp only at hsplit
  · -- a prompt that fails is the end of the routine
    rw [List.append_nil] at hsplit
    rw [← hsplit] at hprompt
    simp at hprompt
  · rw [transcript_print_of_ok _ _ (congrArg Prod.fst hheld)] at hsplit hprompt
    have hread : Dialogue.read.run.transcript console' =
      [.readChar (Dialogue.read.run.hold console').1] := rfl
    rw [transcript_run_bind, hread, List.singleton_append] at hsplit
    refine ((List.append_cons_inj_of_notMem hprompt ?_).mp hsplit.symm).1.symm
    -- nor does the echo read
    rcases Dialogue.read.run.hold console' with ⟨cause | byte, console''⟩
    · exact List.not_mem_nil
    · exact hquiet (readsAtMost_bind (readsAtMost_print [byte]) fun _ => readsAtMost_pure _) console''

end TrapRoutine

end Lc3
