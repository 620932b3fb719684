import Lc3.Proofs.Architecture.Table

/-!
# Readings

The cells that a step reads in the way that may poll the keyboard: the word it
executes, the data of `LD`, `LDR` and `LDI`, and the pointers of `LDI` and
`STI`.  Each reading is kept with the state it is made in, so that its value, its
console calls and the key it finds are all determined.  These are all console
calls of a step outside the trap routines, and at most one reading of a step
polls the keyboard.
-/

namespace Lc3

/-- A reading of a cell, with the state it is made in. -/
structure Reading (σ : Type) where
  state : ArchState σ
  addr : Word

namespace Reading

open ArchState

variable {σ : Type}

/-- The reading is of the keyboard's status cell. -/
def Polls (reading : Reading σ) : Prop := reading.addr = 0xFE00

instance (reading : Reading σ) : Decidable reading.Polls :=
  inferInstanceAs (Decidable (reading.addr = 0xFE00))

variable [Console σ]

/-- The value that the program gets. -/
def value (reading : Reading σ) : Word := (reading.state.load reading.addr).1

/-- The key that was found, if the keyboard was polled and had one. -/
def key? (reading : Reading σ) : Option UInt8 :=
  if reading.Polls then (askKey reading.state.console).1 else none

def calls (reading : Reading σ) : List ConsoleCall :=
  (KeyPoll.before reading.addr).transcript reading.state.console

theorem value_of_not_polls {reading : Reading σ} (h : ¬ reading.Polls) :
    reading.value = reading.state.cell reading.addr := by
  unfold value
  rw [load_of_ne _ h]

theorem value_of_polls {reading : Reading σ} (h : reading.Polls) :
    reading.value = if reading.key?.isSome then 0x8000 else 0 := by
  unfold value key?
  rw [if_pos h, show reading.addr = 0xFE00 from h, load_keyboardStatus]

theorem value_eq_status_iff {reading : Reading σ} (h : reading.Polls) :
    reading.value = 0x8000 ↔ ∃ byte, reading.key? = some byte := by
  rw [value_of_polls h]
  cases reading.key? <;> simp

theorem key?_of_not_polls {reading : Reading σ} (h : ¬ reading.Polls) :
    reading.key? = none := if_neg h

theorem calls_of_not_polls {reading : Reading σ} (h : ¬ reading.Polls) : reading.calls = [] := by
  have hne : reading.addr ≠ Memory.keyboardStatus := h
  unfold calls KeyPoll.before
  rw [if_neg hne]
  rfl

/-- A poll asks for a key and reads it if there is one; a failed read finds none. -/
theorem calls_of_polls {reading : Reading σ} (h : reading.Polls) :
    (reading.key? = none ∧
        (reading.calls = [.keyAvailable false] ∨
          ∃ cause, reading.calls = [.keyAvailable true, .readChar (.error cause)])) ∨
      ∃ byte, reading.key? = some byte ∧
        reading.calls = [.keyAvailable true, .readChar (.ok byte)] := by
  have hstatus : reading.addr = Memory.keyboardStatus := h
  unfold calls key? KeyPoll.before askKey
  rw [if_pos h, if_pos hstatus]
  unfold KeyPoll.ask Dialogue.transcript
  rcases Console.keyAvailable reading.state.console with ⟨_ | _, console⟩
  · exact Or.inl ⟨rfl, Or.inl rfl⟩
  · simp only [if_true]
    unfold Dialogue.transcript
    rcases Console.readChar console with ⟨cause | byte, console'⟩
    · exact Or.inl ⟨rfl, Or.inr ⟨cause, rfl⟩⟩
    · exact Or.inr ⟨byte, rfl, rfl⟩

/-- Only polls make calls. -/
theorem flatMap_calls (readings : List (Reading σ)) :
    readings.flatMap calls = (readings.filter (·.Polls)).flatMap calls := by
  induction readings with
  | nil => rfl
  | cons reading rest ih =>
      by_cases h : reading.Polls
      · rw [List.filter_cons_of_pos (by simp [h]), List.flatMap_cons, List.flatMap_cons, ih]
      · rw [List.filter_cons_of_neg (by simp [h]), List.flatMap_cons, calls_of_not_polls h, ih]
        rfl

end Reading

namespace ArchState

variable {σ : Type} [Console σ]

/-- The readings of executing a word, in order. -/
def readings (s : ArchState σ) (w : Word) : List (Reading σ) :=
  let near := s.relative (w.signedBits 9)
  match w.bits 15 12 with
  | 0x2 => [⟨s, near⟩]
  | 0x6 => [⟨s, s.based (w.registerAt 6) (w.signedBits 6)⟩]
  | 0xA => [⟨s, near⟩, ⟨(s.load near).2, (s.load near).1⟩]
  | 0xB => [⟨s, near⟩]
  | _ => []

/-- The readings of a step: the fetch, then those of the execution. -/
def stepReadings (s : ArchState σ) : List (Reading σ) :=
  ⟨s, s.pc⟩ :: s.fetch.2.readings s.fetch.1

/-- The readings of a step that poll the keyboard. -/
def polls (s : ArchState σ) : List (Reading σ) :=
  s.stepReadings.filter (·.Polls)

theorem readings_of_nibble (s : ArchState σ) {w : Word}
    (h : w.bits 15 12 ≠ 0x2 ∧ w.bits 15 12 ≠ 0x6 ∧ w.bits 15 12 ≠ 0xA ∧ w.bits 15 12 ≠ 0xB) :
    s.readings w = [] := by
  unfold readings
  dsimp only
  split <;> simp_all

/-- The value of the status cell is no pointer to it. -/
theorem load_status_value (s : ArchState σ) :
    (s.load 0xFE00).1 = 0x8000 ∨ (s.load 0xFE00).1 = 0 := by
  rw [load_keyboardStatus]
  cases (askKey s.console).1 with
  | some byte => exact Or.inl rfl
  | none => exact Or.inr rfl

theorem fetch_word (s : ArchState σ) : s.fetch.1 = (s.load s.pc).1 := rfl

theorem fetch_console (s : ArchState σ) : s.fetch.2.console = (s.load s.pc).2.console := rfl

theorem fetch_cell (s : ArchState σ) : s.fetch.2.cell = (s.load s.pc).2.cell := rfl

/-- What is fetched from the status cell reads no further cell. -/
theorem readings_of_fetch_status (s : ArchState σ) (h : s.pc = 0xFE00) :
    s.fetch.2.readings s.fetch.1 = [] := by
  apply readings_of_nibble
  rw [fetch_word, h]
  rcases s.load_status_value with hword | hword <;> rw [hword] <;> decide

/-- A word without a row reads no further cell. -/
theorem stepReadings_of_not_hasRow (s : ArchState σ) (h : ¬ s.fetch.1.HasRow) :
    s.stepReadings = [⟨s, s.pc⟩] := by
  unfold stepReadings
  rw [readings_of_nibble]
  unfold Word.HasRow at h
  omega

/-- At most one reading of an execution polls the keyboard, and it finds console
and cells as the execution has found them. -/
theorem readings_polls (s : ArchState σ) (w : Word) :
    (s.readings w).filter (·.Polls) = [] ∨
      ∃ reading, (s.readings w).filter (·.Polls) = [reading] ∧ reading.Polls ∧
        reading.state.console = s.console ∧ reading.state.cell = s.cell := by
  have hone : ∀ addr, [(⟨s, addr⟩ : Reading σ)].filter (·.Polls) = [] ∨
      ∃ reading, [(⟨s, addr⟩ : Reading σ)].filter (·.Polls) = [reading] ∧ reading.Polls ∧
        reading.state.console = s.console ∧ reading.state.cell = s.cell := by
    intro addr
    by_cases h : (⟨s, addr⟩ : Reading σ).Polls
    · exact Or.inr ⟨⟨s, addr⟩, by simp [h], h, rfl, rfl⟩
    · exact Or.inl (by simp [h])
  unfold readings
  dsimp only
  split
  case h_1 | h_2 | h_4 => exact hone _
  case h_3 =>
    -- a pointer read from the status cell does not lead back to it
    by_cases h : s.relative (w.signedBits 9) = 0xFE00
    · have hpointer : ¬ (⟨(s.load 0xFE00).2, (s.load 0xFE00).1⟩ : Reading σ).Polls := by
        unfold Reading.Polls
        dsimp only
        rcases s.load_status_value with hvalue | hvalue <;> rw [hvalue] <;> decide
      have hfirst : (⟨s, 0xFE00⟩ : Reading σ).Polls := rfl
      rw [h]
      exact Or.inr ⟨⟨s, 0xFE00⟩, by simp [hfirst, hpointer], hfirst, rfl, rfl⟩
    · have hfirst : ¬ (⟨s, s.relative (w.signedBits 9)⟩ : Reading σ).Polls := h
      rw [load_of_ne s h, List.filter_cons_of_neg (by simp [hfirst])]
      exact hone _
  case h_5 => exact Or.inl rfl

/-- At most one reading of a step polls the keyboard, and it finds console and
cells as the step has found them. -/
theorem polls_cases (s : ArchState σ) :
    s.polls = [] ∨ ∃ reading, s.polls = [reading] ∧ reading.Polls ∧
      reading.state.console = s.console ∧ reading.state.cell = s.cell := by
  unfold polls stepReadings
  by_cases h : s.pc = 0xFE00
  · have hfetch : (⟨s, s.pc⟩ : Reading σ).Polls := h
    rw [s.readings_of_fetch_status h]
    exact Or.inr ⟨⟨s, s.pc⟩, by simp [hfetch], hfetch, rfl, rfl⟩
  · have hfetch : ¬ (⟨s, s.pc⟩ : Reading σ).Polls := h
    have hconsole : s.fetch.2.console = s.console := by rw [fetch_console, load_of_ne s h]
    have hcell : s.fetch.2.cell = s.cell := by rw [fetch_cell, load_of_ne s h]
    rw [List.filter_cons_of_neg (by simp [hfetch]), ← hconsole, ← hcell]
    exact s.fetch.2.readings_polls s.fetch.1

theorem cell_of_mem_readings (s : ArchState σ) (w : Word) {reading : Reading σ}
    (h : reading ∈ s.readings w) : reading.state.cell reading.addr = s.cell reading.addr := by
  unfold readings at h
  dsimp only at h
  split at h <;> simp only [List.mem_cons, List.not_mem_nil, or_false] at h
  case h_1 | h_2 | h_4 =>
    subst h
    rfl
  case h_3 =>
    rcases h with rfl | rfl
    · rfl
    · -- a poll for the pointer leaves the cell alone that the pointer leads to
      refine load_cell s _ _ fun hnear => ?_
      show (s.load (s.relative (w.signedBits 9))).1 ≠ _ ∧ (s.load _).1 ≠ _
      rw [hnear]
      rcases s.load_status_value with hvalue | hvalue <;> rw [hvalue] <;> decide

/-- Every reading of a step finds its cell as the step has found it. -/
theorem cell_of_mem_stepReadings (s : ArchState σ) {reading : Reading σ}
    (h : reading ∈ s.stepReadings) : reading.state.cell reading.addr = s.cell reading.addr := by
  unfold stepReadings at h
  rcases List.mem_cons.mp h with rfl | hread
  · rfl
  · by_cases hpc : s.pc = 0xFE00
    · rw [s.readings_of_fetch_status hpc] at hread
      cases hread
    · rw [s.fetch.2.cell_of_mem_readings s.fetch.1 hread, fetch_cell, load_of_ne s hpc]

end ArchState

namespace Machine

open ArchState

variable {σ : Type} [Console σ]

/-- The calls of a reading come before those of what follows it. -/
theorem transcript_read_bind {α : Type} {m : Machine} {addr : Word} {console : σ}
    {next : Word × Machine → Dialogue α} {calls : List ConsoleCall}
    (h : ∀ m' console', of m' console' = ((of m console).load addr).2 →
      (next (((of m console).load addr).1, m')).transcript console' = calls) :
    (m.read addr >>= next).transcript console =
      (⟨of m console, addr⟩ : Reading σ).calls ++ calls := by
  have hload := load_of m addr console
  rw [hload] at h
  rw [Dialogue.bind_eq, Dialogue.transcript_bind, transcript_read]
  exact congrArg _ (h _ _ rfl)

/-- A word of the table makes the console calls of its readings. -/
theorem transcript_execute_of_hasRow (m : Machine) (console : σ) (addr w : Word)
    (hrow : w.HasRow) :
    (m.execute addr w (Instruction.decode w)).transcript console =
      ((of m console).readings w).flatMap Reading.calls := by
  have hnibble := Opcode.nibble_ofWord w
  have hnear := relative_of m console w (show 0 < 9 by omega) (show 9 ≤ 15 by omega)
  unfold Instruction.decode ArchState.readings
  cases hop : Opcode.ofWord w <;> rw [hop] at hnibble <;> rw [← hnibble]
  case ld | sti =>
    show (m.read _ >>= _).transcript console = _
    rw [hnear]
    exact transcript_read_bind fun _ _ _ => rfl
  case ldr =>
    show (m.read _ >>= _).transcript console = _
    rw [based_of m console]
    exact transcript_read_bind fun _ _ _ => rfl
  case ldi =>
    show (m.read _ >>= _).transcript console = _
    rw [hnear]
    apply transcript_read_bind
    intro m' console' hm'
    -- the second reading starts where the first one has ended
    rw [← hm']
    exact transcript_read_bind fun _ _ _ => rfl
  case jsr =>
    show (m.execute addr w (if w &&& 0x800 = 0 then _ else _)).transcript console = []
    split <;> rfl
  case trap => exact absurd hnibble.symm hrow.2.2
  -- no other operation makes a call
  all_goals rfl

end Machine

end Lc3
