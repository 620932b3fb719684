import Lc3.Proofs.Machine.StepCases
import Lc3.Proofs.Session.Loading

/-!
# Placements

Values come into cells by images, by stores and by polls of the keyboard.  A
cell that is explained by a list of placements holds the value of the last one
that covers it, or its old value.  The placements of a row of the instruction
table are the polls of its readings and at most one store.
-/

namespace Lc3

/-- What gives values to cells. -/
inductive Placement
  | image (image : Image)
  | store (addr value : Word)
  /-- A poll of the keyboard, with the key that it has found. -/
  | poll (key : Option UInt8)

namespace Placement

/-- The value that a cell gets, if the placement covers it. -/
def valueAt? : Placement → Word → Option Word
  | image placed, addr => placed.wordAt? addr
  | store target value, addr => if addr = target then some value else none
  | poll none, addr => if addr = 0xFE00 then some 0 else none
  | poll (some byte), addr =>
      if addr = 0xFE02 then some byte.toUInt16
      else if addr = 0xFE00 then some 0x8000
      else none

@[simp] theorem valueAt?_image (placed : Image) (addr : Word) :
    (image placed).valueAt? addr = placed.wordAt? addr := rfl

@[simp] theorem valueAt?_store (target value addr : Word) :
    (store target value).valueAt? addr = if addr = target then some value else none := rfl

@[simp] theorem valueAt?_poll_none (addr : Word) :
    (poll none).valueAt? addr = if addr = 0xFE00 then some 0 else none := rfl

@[simp] theorem valueAt?_poll_some (byte : UInt8) (addr : Word) :
    (poll (some byte)).valueAt? addr =
      if addr = 0xFE02 then some byte.toUInt16
      else if addr = 0xFE00 then some 0x8000
      else none := rfl

end Placement

/-- The value of the last placement that covers the cell. -/
def lastPlaced (placements : List Placement) (addr : Word) : Option Word :=
  placements.reverse.findSome? fun placement => placement.valueAt? addr

theorem lastPlaced_append (first second : List Placement) (addr : Word) :
    lastPlaced (first ++ second) addr =
      (lastPlaced second addr).or (lastPlaced first addr) := by
  simp [lastPlaced, List.findSome?_append]

@[simp] theorem lastPlaced_singleton (placement : Placement) (addr : Word) :
    lastPlaced [placement] addr = placement.valueAt? addr := by
  unfold lastPlaced
  cases h : placement.valueAt? addr <;> simp [h]

/-- Making the placements in order leads from the cells `before` to `after`. -/
def Places (placements : List Placement) (before after : Word → Word) : Prop :=
  ∀ addr, after addr = (lastPlaced placements addr).getD (before addr)

namespace Places

theorem refl (cell : Word → Word) : Places [] cell cell := fun _ => rfl

theorem append {first second : List Placement} {before between after : Word → Word}
    (hfirst : Places first before between) (hsecond : Places second between after) :
    Places (first ++ second) before after := by
  intro addr
  rw [hsecond addr, hfirst addr, lastPlaced_append]
  cases lastPlaced second addr <;> rfl

end Places

namespace ArchState

variable {σ : Type}

theorem places_store (s : ArchState σ) (addr value : Word) :
    Places [.store addr value] s.cell (s.store addr value).cell := by
  intro other
  show Function.update s.cell addr value other = _
  by_cases h : other = addr <;> simp [h]

theorem places_receive (s : ArchState σ) (key : Option UInt8) :
    Places [.poll key] s.cell (s.receive key).cell := by
  intro other
  cases key with
  | none =>
      show Function.update s.cell _ _ other = _
      by_cases h : other = 0xFE00 <;> simp [h]
  | some byte =>
      show Function.update (Function.update s.cell _ _) _ _ other = _
      by_cases hdata : other = 0xFE02
      · simp [hdata]
      · by_cases hstatus : other = 0xFE00 <;> simp [hdata, hstatus]

variable [Console σ]

/-- The effective address of a storing word, and the value that it stores. -/
def store? (s : ArchState σ) (w : Word) : Option (Word × Word) :=
  let near := s.relative (w.signedBits 9)
  let value := s.register (w.registerAt 9)
  match w.bits 15 12 with
  | 0x3 => some (near, value)
  | 0x7 => some (s.based (w.registerAt 6) (w.signedBits 6), value)
  | 0xB => some ((s.load near).1, value)
  | _ => none

end ArchState

namespace Reading

variable {σ : Type} [Console σ]

/-- The placement of a reading, if it polls the keyboard. -/
def placed (reading : Reading σ) : List Placement :=
  if reading.Polls then [.poll reading.key?] else []

theorem places_placed (reading : Reading σ) :
    Places reading.placed reading.state.cell (reading.state.load reading.addr).2.cell := by
  unfold placed
  by_cases h : reading.Polls
  · have hkey : reading.key? = (ArchState.askKey reading.state.console).1 := if_pos h
    rw [if_pos h, hkey, show reading.addr = 0xFE00 from h, ArchState.load_keyboardStatus]
    exact ArchState.places_receive _ _
  · rw [if_neg h, ArchState.load_of_ne _ h]
    exact Places.refl _

end Reading

namespace ArchState

variable {σ : Type} [Console σ]

/-- The store of a word, as a placement. -/
def stored (s : ArchState σ) (w : Word) : List Placement :=
  (s.store? w).toList.map fun stored => .store stored.1 stored.2

/-- The placements of executing a word: the polls of its readings, then its store. -/
def placements (s : ArchState σ) (w : Word) : List Placement :=
  (s.readings w).flatMap Reading.placed ++ s.stored w

/-- The placements of a step. -/
def stepPlacements (s : ArchState σ) : List Placement :=
  s.stepReadings.flatMap Reading.placed ++ s.fetch.2.stored s.fetch.1

/-- Only `ST`, `STR` and `STI` store. -/
theorem store?_isSome_iff (s : ArchState σ) (w : Word) :
    (s.store? w).isSome ↔
      w.bits 15 12 ∈ [0x3, 0x7, 0xB] := by
  unfold store?
  dsimp only
  split <;> simp_all

theorem stored_of_not_hasRow (s : ArchState σ) {w : Word} (h : ¬ w.HasRow) :
    s.stored w = [] := by
  have hnone : s.store? w = none := by
    rw [Option.eq_none_iff_forall_ne_some]
    intro stored hstored
    have hop := (s.store?_isSome_iff w).mp (Option.isSome_iff_exists.mpr ⟨stored, hstored⟩)
    simp only [List.mem_cons, List.not_mem_nil, or_false] at hop
    unfold Word.HasRow at h
    omega
  unfold stored
  rw [hnone]
  rfl

/-- A word without a row places nothing after its fetch. -/
theorem stepPlacements_of_not_hasRow (s : ArchState σ) (h : ¬ s.fetch.1.HasRow) :
    s.stepPlacements = (⟨s, s.pc⟩ : Reading σ).placed := by
  unfold stepPlacements
  rw [stepReadings_of_not_hasRow s h, stored_of_not_hasRow _ h]
  simp

/-- A row of the table makes the placements of its word and changes no other cell. -/
theorem places_row (s : ArchState σ) (w : Word) :
    Places (s.placements w) s.cell (s.row w).cell := by
  have hnone : Places [] s.cell s.cell := Places.refl _
  have hload : ∀ (t : ArchState σ) (addr : Word),
      Places ((⟨t, addr⟩ : Reading σ).placed ++ []) t.cell (t.load addr).2.cell :=
    fun t addr => (Reading.places_placed ⟨t, addr⟩).append (Places.refl _)
  have hnibble := Opcode.nibble_ofWord w
  unfold placements stored readings store? row
  cases hop : Opcode.ofWord w <;> rw [hop] at hnibble <;> rw [← hnibble]
  case ld | ldr => exact (hload s _).append (Places.refl _)
  case ldi =>
    exact ((Reading.places_placed ⟨s, _⟩).append (hload _ _)).append (Places.refl _)
  case st | str => exact s.places_store _ _
  case sti => exact (hload s _).append (places_store _ _ _)
  case br =>
    show Places [] s.cell (if s.branches w then s.goto _ else s).cell
    split <;> exact hnone
  -- the other operations have neither readings nor a store
  all_goals exact hnone

theorem places_fetch (s : ArchState σ) :
    Places (⟨s, s.pc⟩ : Reading σ).placed s.cell s.fetch.2.cell :=
  Reading.places_placed ⟨s, s.pc⟩

end ArchState

namespace Machine

open ArchState

variable {σ : Type} [Console σ]

/-- A step makes its placements and changes no other cell. -/
theorem places_step (m : Machine) (console : σ) (hrunning : m.status = .running) :
    Places (of m console).stepPlacements (of m console).cell
      (of (m.step.hold console).1.machine (m.step.hold console).2).cell := by
  have hfetch := (of m console).places_fetch
  cases m.step_cases console hrunning with
  | row hword hcalls hresult hafter =>
      have hrow := hfetch.append (places_row _ (of m console).fetch.1)
      unfold stepPlacements stepReadings
      rw [hafter, List.flatMap_cons, List.append_assoc]
      exact hrow
  | refused fault hword hcalls hresult hfault hafter =>
      rw [hafter, stepPlacements_of_not_hasRow _ hword.not_hasRow]
      exact hfetch
  | served routine effect console' hword hcalls hserved hresult hafter =>
      rw [hafter, stepPlacements_of_not_hasRow _ hword.not_hasRow]
      cases effect <;> exact hfetch
  | failed routine cause console' hword hcalls hserved hresult hafter =>
      rw [hafter, stepPlacements_of_not_hasRow _ hword.not_hasRow]
      exact hfetch

end Machine

end Lc3
