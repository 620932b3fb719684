import Lc3.Proofs.Session.Intake

/-!
# Input that comes late

A buffered console answers a call that finds its queue filled in the same way
whether or not more bytes follow.  So bytes that are appended to the queue change
nothing in a run until one of its calls finds the queue empty, and it makes no
difference at which point of the run they come.
-/

namespace Lc3

/-- The call has found nothing to read: no key was there, or a read has failed. -/
def ConsoleCall.findsEmpty : ConsoleCall → Bool
  | keyAvailable answer => !answer
  | readChar (.error _) => true
  | _ => false

namespace Buffer

/-- Polls and reads of a buffered console find nothing exactly if its queue is empty. -/
theorem findsEmpty_keyAvailable (buffer : Buffer) :
    (ConsoleCall.keyAvailable (Console.keyAvailable buffer).1).findsEmpty =
      buffer.input.isEmpty := Bool.not_not _

theorem findsEmpty_readChar (buffer : Buffer) :
    (ConsoleCall.readChar (Console.readChar buffer).1).findsEmpty = buffer.input.isEmpty := by
  rcases buffer with ⟨_ | ⟨byte, rest⟩, output, flushes⟩ <;> rfl

end Buffer

namespace Dialogue

variable {α : Type}

/-- Appended bytes stay behind in the queue if no call finds it empty. -/
theorem hold_pushInput (d : Dialogue α) (buffer : Buffer) (bytes : List UInt8)
    (h : ∀ call ∈ d.transcript buffer, call.findsEmpty = false) :
    d.hold (buffer.pushInput bytes) = ((d.hold buffer).1, (d.hold buffer).2.pushInput bytes) := by
  induction d generalizing buffer with
  | done => rfl
  | keyAvailable next ih =>
      obtain ⟨hcall, hrest⟩ := List.forall_mem_cons.mp h
      rcases buffer with ⟨_ | ⟨byte, rest⟩, output, flushes⟩
      · cases hcall
      · exact ih true _ hrest
  | readChar next ih =>
      obtain ⟨hcall, hrest⟩ := List.forall_mem_cons.mp h
      rcases buffer with ⟨_ | ⟨byte, rest⟩, output, flushes⟩
      · cases hcall
      · exact ih (.ok byte) _ hrest
  | writeChar byte next ih => exact ih _ _ (List.forall_mem_cons.mp h).2
  | flush next ih => exact ih _ _ (List.forall_mem_cons.mp h).2

/-- Appended bytes are noticed exactly if some call finds the queue empty, for the first
such call is answered differently then. -/
theorem transcript_pushInput_iff (d : Dialogue α) (buffer : Buffer) {bytes : List UInt8}
    (hbytes : bytes ≠ []) :
    d.transcript (buffer.pushInput bytes) = d.transcript buffer ↔
      ∀ call ∈ d.transcript buffer, call.findsEmpty = false := by
  -- a call with the same answer leaves the question to the rest of the dialogue
  have hsame : ∀ (first : ConsoleCall) (calls others : List ConsoleCall),
      first.findsEmpty = false → (others = calls ↔ ∀ call ∈ calls, call.findsEmpty = false) →
      (first :: others = first :: calls ↔ ∀ call ∈ first :: calls, call.findsEmpty = false) := by
    intro first calls others hfirst hrest
    rw [List.forall_mem_cons, List.cons.injEq, hrest]
    exact and_congr_left' (iff_of_true rfl hfirst)
  have hother : ∀ (first other : ConsoleCall) (calls others : List ConsoleCall),
      first.findsEmpty = true → other ≠ first →
      (other :: others = first :: calls ↔ ∀ call ∈ first :: calls, call.findsEmpty = false) := by
    intro first other calls others hfirst hne
    refine iff_of_false (fun heq => hne (List.cons.inj heq).1) fun hnone => ?_
    cases hfirst.symm.trans (List.forall_mem_cons.mp hnone).1
  obtain ⟨key, more, rfl⟩ := List.exists_cons_of_ne_nil hbytes
  induction d generalizing buffer with
  | done => exact iff_of_true rfl (List.forall_mem_nil _)
  | keyAvailable next ih =>
      rcases buffer with ⟨_ | ⟨byte, rest⟩, output, flushes⟩
      · exact hother (.keyAvailable false) (.keyAvailable true) _ _ rfl (by simp)
      · exact hsame (.keyAvailable true) _ _ rfl (ih true ⟨byte :: rest, output, flushes⟩)
  | readChar next ih =>
      rcases buffer with ⟨_ | ⟨byte, rest⟩, output, flushes⟩
      · exact hother (.readChar (.error .inputExhausted)) (.readChar (.ok key)) _ _ rfl (by simp)
      · exact hsame (.readChar (.ok byte)) _ _ rfl (ih (.ok byte) ⟨rest, output, flushes⟩)
  | writeChar byte next ih =>
      exact hsame (.writeChar byte (.ok ())) _ _ rfl (ih _ (Console.writeChar byte buffer).2)
  | flush next ih => exact hsame (.flush (.ok ())) _ _ rfl (ih _ (Console.flush buffer).2)

end Dialogue

namespace Session

/-- Append bytes to the input of the console. -/
def pushInput (s : Session Buffer) (bytes : List UInt8) : Session Buffer :=
  { s with console := s.console.pushInput bytes }

/-- A step none of whose calls finds the queue empty does not notice appended bytes. -/
theorem step_pushInput (s : Session Buffer) (bytes : List UInt8)
    (h : ∀ call ∈ s.calls, call.findsEmpty = false) :
    (s.pushInput bytes).step = (s.step.1, s.step.2.pushInput bytes) := by
  rcases s with ⟨machine, buffer, log⟩
  have hhold := machine.step.hold_pushInput buffer bytes h
  unfold step pushInput
  dsimp only
  rw [hhold]

/-- Nor do the steps of a run none of whose calls finds the queue empty. -/
theorem after_pushInput (s : Session Buffer) (bytes : List UInt8) (n : Nat)
    (h : ∀ i < n, ∀ call ∈ (s.after i).calls, call.findsEmpty = false) :
    (s.pushInput bytes).after n = (s.after n).pushInput bytes := by
  induction n with
  | zero => rfl
  | succ n ih =>
      have hbefore := ih fun i hi => h i (Nat.lt_succ_of_lt hi)
      rw [after_succ, hbefore, (s.after n).step_pushInput bytes (h n (Nat.lt_succ_self n))]
      rfl

/-- The session after `n` steps, where bytes are appended to the input once the first
`k` steps are made. -/
def afterSupply (s : Session Buffer) (k : Nat) (bytes : List UInt8) (n : Nat) : Session Buffer :=
  if n < k then s.after n else ((s.after k).pushInput bytes).after (n - k)

theorem afterSupply_of_lt (s : Session Buffer) (bytes : List UInt8) {k n : Nat} (h : n < k) :
    s.afterSupply k bytes n = s.after n := if_pos h

/-- Steps none of whose calls finds the queue empty leave the same session behind, but for
the bytes that wait at the end of the queue. -/
theorem afterSupply_of_le (s : Session Buffer) (bytes : List UInt8) {k n : Nat} (hk : k ≤ n)
    (h : ∀ i < n, ∀ call ∈ (s.after i).calls, call.findsEmpty = false) :
    s.afterSupply k bytes n = (s.after n).pushInput bytes := by
  obtain ⟨more, rfl⟩ := Nat.exists_eq_add_of_le hk
  have hlater : ∀ i < more, ∀ call ∈ ((s.after k).after i).calls, call.findsEmpty = false := by
    intro i hi
    rw [← after_add]
    exact h (k + i) (Nat.add_lt_add_left hi k)
  unfold afterSupply
  rw [if_neg (Nat.not_lt.mpr hk), Nat.add_sub_cancel_left,
    (s.after k).after_pushInput bytes more hlater, ← after_add]

/-- Later input does not change what earlier input has decided.  Bytes that are appended at
any point of steps none of whose calls finds the queue empty change neither the results
of these steps nor registers, memory, status, output or flushes after any of them.  They
are all unread in the end, behind the input that is left without them. -/
theorem late_input_unnoticed (s : Session Buffer) (n : Nat)
    (hfilled : ∀ call ∈ s.callsUpTo n, call.findsEmpty = false) (bytes : List UInt8) {k : Nat}
    (hk : k ≤ n) :
    let late := s.afterSupply k bytes
    (∀ i < n, (late i).step.1 = s.resultAt i) ∧
      (∀ i ≤ n, (late i).machine = (s.after i).machine ∧
        (late i).console.output = (s.after i).console.output ∧
        (late i).console.flushes = (s.after i).console.flushes) ∧
      (late n).console.input = (s.after n).console.input ++ bytes := by
  intro late
  have hcalls : ∀ i < n, ∀ call ∈ (s.after i).calls, call.findsEmpty = false :=
    fun i hi call hcall => hfilled call (mem_callsUpTo.mpr ⟨i, hi, hcall⟩)
  have hbefore : ∀ i, i < k → late i = s.after i := fun i => s.afterSupply_of_lt bytes
  have hlate : ∀ i, k ≤ i → i ≤ n → late i = (s.after i).pushInput bytes := fun i hki hin =>
    s.afterSupply_of_le bytes hki fun j hj => hcalls j (Nat.lt_of_lt_of_le hj hin)
  refine ⟨fun i hi => ?_, fun i hi => ?_, ?_⟩
  · rcases Nat.lt_or_ge i k with hlt | hge
    · rw [hbefore i hlt]
      rfl
    · rw [hlate i hge (Nat.le_of_lt hi), (s.after i).step_pushInput bytes (hcalls i hi)]
      rfl
  · rcases Nat.lt_or_ge i k with hlt | hge
    · rw [hbefore i hlt]
      exact ⟨rfl, rfl, rfl⟩
    · rw [hlate i hge hi]
      exact ⟨rfl, rfl, rfl⟩
  · rw [hlate n hk (Nat.le_refl n)]
    rfl

/-- `GETC` with one byte to read. -/
def readingOne : Session Buffer where
  machine := .holding 0xF020
  console := .ofInput [0x41]
  log := none

theorem step_readingOne :
    readingOne.callsUpTo 1 = [.readChar (.ok 0x41)] ∧
      (readingOne.after 1).arch.register 0 = 0x41 := by
  have hfetch : readingOne.arch.fetch = (0xF020, readingOne.arch.goto 0x3001) :=
    readingOne.fetch_at_start rfl (Memory.peek_write_self _ _ _)
  have hword : readingOne.arch.fetch.1.Invokes .getc := by
    rw [hfetch]
    show Word.Invokes 0xF020 .getc
    exact ⟨by decide, by decide⟩
  have hone : readingOne.callsUpTo 1 = readingOne.calls := by simp [callsUpTo]
  have hconsole : readingOne.arch.fetch.2.console = .ofInput [0x41] := by
    rw [hfetch]
    rfl
  have hread : ((readingOne.serving .getc).run.hold readingOne.arch.fetch.2.console).1 =
      .ok (.key 0x41) := by
    rw [hconsole]
    rfl
  have hregister := (readingOne.register_of_invokes rfl hword hread).2
  constructor
  · rw [hone, readingOne.calls_of_invokes rfl hword, hconsole]
    rfl
  · rw [after_succ, after_zero, hregister]
    rfl

/-- A byte that is appended before or after the step waits behind the one that is read. -/
theorem late_input_unnoticed_readingOne :
    (∀ call ∈ readingOne.callsUpTo 1, call.findsEmpty = false) ∧
      (readingOne.afterSupply 0 [0x42] 1).arch.register 0 = 0x41 ∧
      ∀ k ≤ 1, (readingOne.afterSupply k [0x42] 1).console.input =
        (readingOne.after 1).console.input ++ [0x42] := by
  obtain ⟨hcalls, hregister⟩ := step_readingOne
  have hfilled : ∀ call ∈ readingOne.callsUpTo 1, call.findsEmpty = false := by
    rw [hcalls]
    simp [ConsoleCall.findsEmpty]
  obtain ⟨-, hstates, -⟩ := late_input_unnoticed readingOne 1 hfilled [0x42] (Nat.zero_le 1)
  refine ⟨hfilled, ?_, fun k hk => (late_input_unnoticed readingOne 1 hfilled [0x42] hk).2.2⟩
  unfold arch at hregister ⊢
  rw [(hstates 1 (Nat.le_refl 1)).1]
  exact hregister

end Session

end Lc3
