import Lc3.Proofs.Architecture.Placement

/-!
# States that agree on some cells

Two states agree on a set of cells if they differ in no cell of the set, and in
nothing else than cells.  This is kept by every row of the instruction table that
reads its data and pointers inside the set.  Such a row also asks the console for
the same keys and makes the same placements in both states.
-/

namespace Lc3

namespace Reading

open ArchState

variable {σ : Type}

/-- What a poll by this reading depends on. -/
def asked (reading : Reading σ) : Word × σ := (reading.addr, reading.state.console)

variable [Console σ]

theorem flatMap_calls_of_asked {first second : List (Reading σ)}
    (h : first.map asked = second.map asked) : first.flatMap calls = second.flatMap calls := by
  have hasked : ∀ readings : List (Reading σ), readings.flatMap calls =
      (readings.map asked).flatMap fun asked => (KeyPoll.before asked.1).transcript asked.2 := by
    intro readings
    rw [List.flatMap_map]
    rfl
  rw [hasked, hasked, h]

theorem flatMap_placed_of_asked {first second : List (Reading σ)}
    (h : first.map asked = second.map asked) : first.flatMap placed = second.flatMap placed := by
  have hplaced : ∀ reading : Reading σ, reading.placed =
      if reading.asked.1 = 0xFE00 then [.poll (askKey reading.asked.2).1] else [] := by
    intro reading
    unfold placed key? Polls asked
    by_cases hpolls : reading.addr = 0xFE00 <;> simp [hpolls]
  have hasked : ∀ readings : List (Reading σ), readings.flatMap placed =
      (readings.map asked).flatMap fun asked =>
        if asked.1 = 0xFE00 then [.poll (askKey asked.2).1] else [] := by
    intro readings
    rw [List.flatMap_map, funext hplaced]
  rw [hasked, hasked, h]

end Reading

namespace ArchState

variable {σ : Type}

/-- The states differ in cells only, and in none of these. -/
structure AgreeOn (cells : Set Word) (s t : ArchState σ) : Prop where
  rest : t = { s with cell := t.cell }
  cell : ∀ addr ∈ cells, t.cell addr = s.cell addr

namespace AgreeOn

variable {cells : Set Word} {s t : ArchState σ}

theorem exists_cell (h : AgreeOn cells s t) :
    ∃ cell, t = { s with cell := cell } ∧ ∀ addr ∈ cells, cell addr = s.cell addr :=
  ⟨t.cell, h.rest, h.cell⟩

theorem register (h : AgreeOn cells s t) : t.register = s.register := by rw [h.rest]

theorem pc (h : AgreeOn cells s t) : t.pc = s.pc := by rw [h.rest]

theorem status (h : AgreeOn cells s t) : t.status = s.status := by rw [h.rest]

theorem console (h : AgreeOn cells s t) : t.console = s.console := by rw [h.rest]

theorem relative (h : AgreeOn cells s t) (offset : Int) :
    t.relative offset = s.relative offset := by
  unfold ArchState.relative
  rw [h.pc]

theorem based (h : AgreeOn cells s t) (base : Fin 8) (offset : Int) :
    t.based base offset = s.based base offset := by
  unfold ArchState.based
  rw [h.register]

theorem operand (h : AgreeOn cells s t) (w : Word) : t.operand w = s.operand w := by
  unfold ArchState.operand
  rw [h.register]

theorem branches (h : AgreeOn cells s t) (w : Word) : t.branches w = s.branches w := by
  unfold ArchState.branches
  rw [h.rest]

theorem define (h : AgreeOn cells s t) (r : Fin 8) {value value' : Word} (hvalue : value' = value) :
    AgreeOn cells (s.define r value) (t.define r value') := by
  subst hvalue
  obtain ⟨cell, rfl, hcell⟩ := h.exists_cell
  exact ⟨rfl, hcell⟩

theorem goto (h : AgreeOn cells s t) (addr : Word) :
    AgreeOn cells (s.goto addr) (t.goto addr) := by
  obtain ⟨cell, rfl, hcell⟩ := h.exists_cell
  exact ⟨rfl, hcell⟩

theorem branch (h : AgreeOn cells s t) (taken : Bool) (addr : Word) :
    AgreeOn cells (if taken then s.goto addr else s) (if taken then t.goto addr else t) := by
  cases taken with
  | true => exact h.goto addr
  | false => exact h

theorem link (h : AgreeOn cells s t) (target : Word) :
    AgreeOn cells (s.link target) (t.link target) := by
  obtain ⟨cell, rfl, hcell⟩ := h.exists_cell
  exact ⟨rfl, hcell⟩

theorem store (h : AgreeOn cells s t) {addr addr' : Word} (haddr : addr' = addr) (value : Word) :
    AgreeOn cells (s.store addr value) (t.store addr' value) := by
  subst haddr
  obtain ⟨cell, rfl, hcell⟩ := h.exists_cell
  refine ⟨rfl, fun other hother => ?_⟩
  show Function.update cell addr' value other = Function.update s.cell addr' value other
  by_cases heq : other = addr'
  · simp [heq]
  · simp [heq, hcell other hother]

theorem halt (h : AgreeOn cells s t) :
    AgreeOn cells { s with status := .halted } { t with status := .halted } := by
  obtain ⟨cell, rfl, hcell⟩ := h.exists_cell
  exact ⟨rfl, hcell⟩

theorem atConsole (h : AgreeOn cells s t) (console : σ) :
    AgreeOn cells { s with console := console } { t with console := console } := by
  obtain ⟨cell, rfl, hcell⟩ := h.exists_cell
  exact ⟨rfl, hcell⟩

theorem carryOut (h : AgreeOn cells s t) (effect : ServiceEffect) :
    AgreeOn cells (s.carryOut effect) (t.carryOut effect) := by
  obtain ⟨cell, rfl, hcell⟩ := h.exists_cell
  cases effect <;> exact ⟨rfl, hcell⟩

theorem receive (h : AgreeOn cells s t) (key : Option UInt8) :
    AgreeOn cells (s.receive key) (t.receive key) := by
  cases key with
  | none => exact h.store rfl _
  | some byte => exact (h.store rfl _).store rfl _

variable [Console σ]

omit [Console σ] in
theorem asked (h : AgreeOn cells s t) {addr addr' : Word} (haddr : addr' = addr) :
    (⟨t, addr'⟩ : Reading σ).asked = (⟨s, addr⟩ : Reading σ).asked :=
  Prod.ext haddr h.console

/-- The keyboard's status cell may differ: a poll overwrites it. -/
theorem load (h : AgreeOn cells s t) {addr addr' : Word} (haddr : addr' = addr)
    (hread : addr ≠ 0xFE00 → addr ∈ cells) :
    (t.load addr').1 = (s.load addr).1 ∧ AgreeOn cells (s.load addr).2 (t.load addr').2 := by
  subst haddr
  by_cases hstatus : addr' = 0xFE00
  · subst hstatus
    rw [load_keyboardStatus, load_keyboardStatus, h.console]
    exact ⟨rfl, (h.atConsole _).receive _⟩
  · rw [load_of_ne _ hstatus, load_of_ne _ hstatus]
    exact ⟨h.cell addr' (hread hstatus), h⟩

theorem fetch (h : AgreeOn cells s t) (hpc : s.pc ≠ 0xFE00 → s.pc ∈ cells) :
    t.fetch.1 = s.fetch.1 ∧ AgreeOn cells s.fetch.2 t.fetch.2 := by
  obtain ⟨hword, hloaded⟩ := h.load h.pc hpc
  unfold ArchState.fetch
  rw [h.pc] at hword hloaded ⊢
  exact ⟨hword, hloaded.goto _⟩

variable {w : Word}

/-- The word asks the console for the same keys in both states, comes to the same
store and has the same effect. -/
theorem row (h : AgreeOn cells s t)
    (hreads : ∀ reading ∈ s.readings w, ¬ reading.Polls → reading.addr ∈ cells) :
    (t.readings w).map Reading.asked = (s.readings w).map Reading.asked ∧
      t.store? w = s.store? w ∧ AgreeOn cells (s.row w) (t.row w) := by
  have hnibble := Opcode.nibble_ofWord w
  unfold readings at hreads ⊢
  unfold store? ArchState.row
  rw [h.relative, h.register, h.operand, h.branches, h.relative]
  cases hop : Opcode.ofWord w <;> rw [hop] at hnibble <;> rw [← hnibble] at hreads ⊢
  case br => exact ⟨rfl, rfl, h.branch _ _⟩
  case ld =>
    obtain ⟨hvalue, hafter⟩ := h.load rfl (hreads _ (List.mem_singleton_self _))
    exact ⟨congrArg (fun asked => [asked]) (h.asked rfl), rfl, hafter.define _ hvalue⟩
  case ldr =>
    obtain ⟨hvalue, hafter⟩ := h.load (h.based _ _) (hreads _ (List.mem_singleton_self _))
    exact ⟨congrArg (fun asked => [asked]) (h.asked (h.based _ _)), rfl, hafter.define _ hvalue⟩
  case ldi =>
    obtain ⟨hpointer, hloaded⟩ := h.load rfl (hreads _ (List.mem_cons_self ..))
    obtain ⟨hvalue, hafter⟩ := hloaded.load hpointer
      (hreads _ (List.mem_cons_of_mem _ (List.mem_singleton_self _)))
    exact ⟨congrArg₂ (fun near far => [near, far]) (h.asked rfl) (hloaded.asked hpointer), rfl,
      hafter.define _ hvalue⟩
  case sti =>
    obtain ⟨hpointer, hloaded⟩ := h.load rfl (hreads _ (List.mem_singleton_self _))
    exact ⟨congrArg (fun asked => [asked]) (h.asked rfl),
      congrArg (fun target => some (target, _)) hpointer, hloaded.store hpointer _⟩
  case st => exact ⟨rfl, rfl, h.store rfl _⟩
  case str =>
    exact ⟨rfl, congrArg (fun target => some (target, _)) (h.based _ _), h.store (h.based _ _) _⟩
  case jsr => exact ⟨rfl, rfl, h.link _⟩
  case jmp => exact ⟨rfl, rfl, h.goto _⟩
  case add | and | not | lea => exact ⟨rfl, rfl, h.define _ rfl⟩
  -- the other operations are no rows of the table
  case rti | res | trap => exact ⟨rfl, rfl, h⟩

/-- A step fetches the same word in both states, asks for the same keys and makes the
same placements. -/
theorem step (h : AgreeOn cells s t)
    (hreads : ∀ reading ∈ s.stepReadings, ¬ reading.Polls → reading.addr ∈ cells) :
    (t.fetch.1 = s.fetch.1 ∧ AgreeOn cells s.fetch.2 t.fetch.2) ∧
      t.stepReadings.flatMap Reading.calls = s.stepReadings.flatMap Reading.calls ∧
      t.stepPlacements = s.stepPlacements ∧
      AgreeOn cells (s.fetch.2.row s.fetch.1) (t.fetch.2.row t.fetch.1) := by
  obtain ⟨hword, hfetched⟩ := h.fetch (hreads ⟨s, s.pc⟩ (List.mem_cons_self ..))
  obtain ⟨hasked, hstore, hrow⟩ := hfetched.row (w := s.fetch.1)
    fun reading hmem => hreads reading (List.mem_cons_of_mem _ hmem)
  have hreadings : t.stepReadings.map Reading.asked = s.stepReadings.map Reading.asked := by
    unfold stepReadings
    rw [List.map_cons, List.map_cons, hword, hasked, h.asked h.pc]
  refine ⟨⟨hword, hfetched⟩, Reading.flatMap_calls_of_asked hreadings, ?_, hword ▸ hrow⟩
  unfold stepPlacements stored
  rw [Reading.flatMap_placed_of_asked hreadings, hword, hstore]

end AgreeOn

end ArchState

end Lc3
