import Lc3.Proofs.Console.Faithful
import Lc3.Proofs.Console.InputQueue
import Lc3.Proofs.Console.Scanning
import Lc3.Proofs.Word.Field

/-!
# The planned calls of a trap routine

Each trap routine has a plan: the requests that it makes of the console, told by R0, by
the cells of the string at R0 and by the byte that is read.  A routine carries out its
plan request by request and leaves off after the first one that fails.
-/

namespace Lc3

/-- The calls make the requests in order, all of them or up to the first failure. -/
inductive Carried : List ConsoleRequest → List ConsoleCall → Option ConsoleError → Prop
  | done : Carried [] [] none
  | failed {call : ConsoleCall} {cause : ConsoleError} (later : List ConsoleRequest)
      (hfailure : call.failure? = some cause) :
      Carried (call.request :: later) [call] (some cause)
  | next {call : ConsoleCall} {later : List ConsoleRequest} {calls : List ConsoleCall}
      {failure : Option ConsoleError} (hok : call.failure? = none)
      (hlater : Carried later calls failure) :
      Carried (call.request :: later) (call :: calls) failure

namespace Carried

theorem single (call : ConsoleCall) : Carried [call.request] [call] call.failure? := by
  cases h : call.failure? with
  | none => exact .next h .done
  | some cause => exact .failed [] h

/-- Requests are carried out after others of which none has failed. -/
theorem append {second : List ConsoleRequest} {more : List ConsoleCall}
    {failure : Option ConsoleError} (hsecond : Carried second more failure) :
    ∀ {first : List ConsoleRequest} {calls : List ConsoleCall}, Carried first calls none →
      Carried (first ++ second) (calls ++ more) failure
  | _, _, .done => hsecond
  | _, _, .next hok hlater => .next hok (append hsecond hlater)

/-- Requests after a failed one are not made. -/
theorem append_of_failed (second : List ConsoleRequest) {cause : ConsoleError} :
    ∀ {first : List ConsoleRequest} {calls : List ConsoleCall},
      Carried first calls (some cause) → Carried (first ++ second) calls (some cause)
  | _, _, .failed later hfailure => .failed (later ++ second) hfailure
  | _, _, .next hok hlater => .next hok (append_of_failed second hlater)

/-- Without a failure the plan was carried out as a whole. -/
theorem of_none : ∀ {plan : List ConsoleRequest} {calls : List ConsoleCall},
    Carried plan calls none →
      calls.map ConsoleCall.request = plan ∧ ∀ call ∈ calls, call.failure? = none
  | _, _, .done => ⟨rfl, by simp⟩
  | _, _, .next hok hlater => by
      obtain ⟨hrequests, hcalls⟩ := of_none hlater
      exact ⟨by rw [List.map_cons, hrequests], List.forall_mem_cons.mpr ⟨hok, hcalls⟩⟩

/-- After a failure the plan was carried out up to the failed call, which is the last. -/
theorem of_some {plan : List ConsoleRequest} {calls : List ConsoleCall} {cause : ConsoleError}
    (h : Carried plan calls (some cause)) :
    calls.map ConsoleCall.request <+: plan ∧
      ∃ earlier last, calls = earlier ++ [last] ∧ last.failure? = some cause ∧
        ∀ call ∈ earlier, call.failure? = none := by
  generalize hcause : some cause = failure at h
  induction h with
  | done => cases hcause
  | @failed call _ later hfailure =>
      exact ⟨⟨later, rfl⟩, [], call, rfl, hfailure, by simp⟩
  | @next call _ _ _ hok _ ih =>
      obtain ⟨⟨rest, hrest⟩, earlier, last, rfl, hlast, hearlier⟩ := ih hcause
      refine ⟨⟨rest, ?_⟩, call :: earlier, last, rfl, hlast, ?_⟩
      · rw [List.map_cons, List.cons_append, hrest]
      · exact List.forall_mem_cons.mpr ⟨hok, hearlier⟩

/-- Only a failure cuts the plan. -/
theorem of_succeed {plan : List ConsoleRequest} {calls : List ConsoleCall}
    {failure : Option ConsoleError} (h : Carried plan calls failure)
    (hsucceed : ∀ call ∈ calls, call.failure? = none) : calls.map ConsoleCall.request = plan := by
  cases failure with
  | none => exact h.of_none.1
  | some cause =>
      obtain ⟨-, earlier, last, rfl, hlast, -⟩ := h.of_some
      simp [hsucceed last (by simp)] at hlast

theorem length_le {plan : List ConsoleRequest} {calls : List ConsoleCall}
    {failure : Option ConsoleError} (h : Carried plan calls failure) :
    calls.length ≤ plan.length := by
  induction h with
  | done => simp
  | failed later hfailure => simp
  | next hok hlater ih => simpa using ih

end Carried

namespace Dialogue

variable {α β σ : Type} [Console σ]

/-- The attempt carries out a plan at the console. -/
def Carries (plan : List ConsoleRequest) (a : Attempt α) (console : σ) : Prop :=
  Carried plan (a.run.transcript console) (errorOf (a.run.hold console).1)

theorem carries_pure (x : α) (console : σ) : Carries [] (pure x : Attempt α) console := .done

/-- One plan after another, which may depend on what the first attempt has given. -/
theorem carries_bind {first second : List ConsoleRequest} {a : Attempt α} {f : α → Attempt β}
    {console : σ} (ha : Carries first a console)
    (hf : ∀ x console', a.run.hold console = (.ok x, console') → Carries second (f x) console') :
    Carries (first ++ second) (a >>= f) console := by
  unfold Carries at ha ⊢
  rw [transcript_run_bind, hold_run_bind]
  rcases hheld : a.run.hold console with ⟨cause | x, console'⟩
  · rw [hheld] at ha
    dsimp only
    rw [List.append_nil]
    exact ha.append_of_failed second
  · rw [hheld] at ha
    exact (hf x console' hheld).append ha

/-- An attempt of one call carries out the call's request. -/
theorem carries_of_call {a : Attempt α} {console : σ} (call : ConsoleCall)
    (hcall : a.run.transcript console = [call])
    (herror : errorOf (a.run.hold console).1 = call.failure?) :
    Carries [call.request] a console := by
  unfold Carries
  rw [hcall, herror]
  exact .single call

theorem carries_read (console : σ) : Carries [.readChar] read console := by
  refine carries_of_call (.readChar (Console.readChar console).1) rfl ?_
  show errorOf (Console.readChar console).1 = _
  cases (Console.readChar console).1 <;> rfl

theorem carries_write (byte : UInt8) (console : σ) :
    Carries [.writeChar byte] (write byte) console := by
  refine carries_of_call (.writeChar byte (Console.writeChar byte console).1) rfl ?_
  show errorOf (Console.writeChar byte console).1 = _
  cases (Console.writeChar byte console).1 <;> rfl

theorem carries_send (console : σ) : Carries [.flush] send console := by
  refine carries_of_call (.flush (Console.flush console).1) rfl ?_
  show errorOf (Console.flush console).1 = _
  cases (Console.flush console).1 <;> rfl

theorem carries_writeAll (bytes : List UInt8) (console : σ) :
    Carries (bytes.map .writeChar) (writeAll bytes) console := by
  induction bytes generalizing console with
  | nil => exact carries_pure () console
  | cons byte rest ih =>
      exact carries_bind (carries_write byte console) fun _ console' _ => ih console'

/-- The requests of an output: all bytes in order, then a flush. -/
def outputOf (bytes : List UInt8) : List ConsoleRequest := bytes.map .writeChar ++ [.flush]

theorem carries_print (bytes : List UInt8) (console : σ) :
    Carries (outputOf bytes) (TrapRoutine.print bytes) console :=
  carries_bind (carries_writeAll bytes console) fun _ console' _ => carries_send console'

/-- What follows an output makes no further request. -/
theorem carries_print_pure {requests : List ConsoleRequest} {bytes : List UInt8} (x : α)
    (hrequests : requests = outputOf bytes) (console : σ) :
    Carries requests (TrapRoutine.print bytes >>= fun _ => pure x) console := by
  rw [hrequests, ← List.append_nil (outputOf bytes)]
  exact carries_bind (carries_print bytes console) fun _ console' _ => carries_pure x console'

end Dialogue

namespace Word

theorem ofNat_bits_low (w : Word) : UInt8.ofNat (w.bits 7 0) = w.lowByte := by
  rw [← toNat_lowByte, UInt8.ofNat_toNat]

theorem ofNat_bits_high (w : Word) : UInt8.ofNat (w.bits 15 8) = w.highByte := by
  apply UInt8.toNat_inj.mp
  have := w.toNat_lt
  simp [bits, highByte, Nat.shiftRight_eq_div_pow]

end Word

namespace TrapRoutine

open Dialogue

/-- The cells of the string at an address: those from there on, and on from zero after the
last one, that precede the first zero cell, and each cell at most once. -/
def stringCells (cell : Word → Word) (start : Word) : List Word :=
  ((circuit start).map cell).takeWhile (· != 0)

theorem stringAt_eq_stringCells (mem : Memory) (start : Word) :
    mem.stringAt start = stringCells mem.peek start := by
  unfold stringCells circuit
  rw [Memory.stringAt_eq_takeWhile, List.map_map]
  rfl

/-- The bytes of a cell that holds two characters: the low one even if it is zero, and the
high one unless it is. -/
def charsOfCell (cell : Word) : List UInt8 :=
  UInt8.ofNat (cell.bits 7 0) ::
    if cell.bits 15 8 = 0 then [] else [UInt8.ofNat (cell.bits 15 8)]

theorem charsOfCell_eq (cell : Word) : charsOfCell cell = packedBytes cell := by
  have hlt : cell.bits 15 8 < 256 := Nat.mod_lt _ (by omega)
  have hzero : cell.highByte = 0 ↔ cell.bits 15 8 = 0 := by
    rw [← Word.ofNat_bits_high, ← UInt8.toNat_inj, UInt8.toNat_ofNat_of_lt' hlt]
    simp
  unfold charsOfCell packedBytes
  rw [Word.ofNat_bits_low, Word.ofNat_bits_high]
  simp only [hzero]
  split_ifs <;> rfl

/-- The requests that a routine makes of the console if none of them fails, where `key` is
the byte that is read. -/
def plan (routine : TrapRoutine) (r0 : Word) (string : List Word) (key : UInt8) :
    List ConsoleRequest :=
  match routine with
  | getc => [.readChar]
  | out => [.writeChar (UInt8.ofNat (r0.bits 7 0)), .flush]
  | puts => string.map (fun cell => .writeChar (UInt8.ofNat (cell.bits 7 0))) ++ [.flush]
  | input => [.writeChar 0x20, .flush, .readChar, .writeChar key, .flush]
  | putsp => (string.flatMap charsOfCell).map .writeChar ++ [.flush]
  | halt => [0x0A, 0x48, 0x61, 0x6C, 0x74, 0x65, 0x64, 0x0A].map .writeChar ++ [.flush]

/-- What a routine changes in the machine if none of its requests fails. -/
def effect (routine : TrapRoutine) (key : UInt8) : ServiceEffect :=
  match routine with
  | getc => .key key
  | input => .key key
  | halt => .halt
  | out | puts | putsp => .none

end TrapRoutine

end Lc3
