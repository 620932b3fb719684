import Lc3.Console.Scripted
import Lc3.Proofs.Architecture.Placement
import Lc3.Proofs.Session.History

/-!
# The history of memory

Every cell of a session that began with a new machine holds the value that was
placed there last, by an image, a host, a storing instruction or a poll of the
keyboard, and zero if there was none.  So a program reads exactly what was placed
last, except at the keyboard's status cell.
-/

namespace Lc3

namespace Word

/-- The operation gives its register what it reads last: `LD`, `LDR` or `LDI`. -/
def Loads (w : Word) : Prop :=
  w.bits 15 12 = 0x2 ∨ w.bits 15 12 = 0x6 ∨ w.bits 15 12 = 0xA

theorem Loads.hasRow {w : Word} (h : w.Loads) : w.HasRow := by
  unfold Loads at h
  unfold HasRow
  omega

end Word

namespace ArchState

variable {σ : Type} [Console σ]

/-- A loading word reads, and its register gets the value of its last reading. -/
theorem row_loads (s : ArchState σ) {w : Word} (h : w.Loads) :
    ∃ reading, (s.readings w).getLast? = some reading ∧
      (s.row w).register (w.registerAt 9) = reading.value := by
  have hdefine : ∀ (t : ArchState σ) (r : Fin 8) (value : Word),
      (t.define r value).register r = value := fun t r value => Function.update_self _ _ _
  unfold readings row
  rcases h with h | h | h <;> rw [h] <;> exact ⟨_, rfl, hdefine _ _ _⟩

end ArchState

namespace Moment

variable {σ : Type} [Console σ]

/-- What the action places in memory, in order. -/
def placements (moment : Moment σ) : List Placement :=
  match moment.action with
  | .load stream => stream.verdict.toOption.toList.map .image
  | .loadImage image => [.image image]
  | .write addr value => [.store addr value]
  | .adjust _ => []
  | .step =>
      if moment.session.machine.status = .running then moment.session.arch.stepPlacements
      else []

omit [Console σ] in
theorem places_image (image : Image) (s : Session σ) :
    Places [.image image] s.arch.cell (s.loadImage image).arch.cell := by
  intro addr
  rw [lastPlaced_singleton]
  exact image.peek_placeInto s.machine.memory addr

/-- An action makes its placements and changes no other cell. -/
theorem places_after (moment : Moment σ) :
    Places moment.placements moment.session.arch.cell moment.after.arch.cell := by
  rcases moment with ⟨s, action⟩
  cases action with
  | load stream =>
      show Places (stream.verdict.toOption.toList.map .image) s.arch.cell
        (s.load stream).2.arch.cell
      rw [Session.load_eq]
      cases stream.verdict with
      | ok image => exact places_image image s
      | error cause => exact Places.refl _
  | loadImage image => exact places_image image s
  | write addr value =>
      have harch := ArchState.of_write s.machine addr value s.console
      show Places [.store addr value] s.arch.cell
        (ArchState.of (s.machine.write addr value) s.console).cell
      rw [harch]
      exact s.arch.places_store addr value
  | adjust change => exact Places.refl _
  | step =>
      show Places (if s.machine.status = .running then s.arch.stepPlacements else [])
        s.arch.cell s.step.2.arch.cell
      cases hstatus : s.machine.status with
      | halted =>
          rw [s.step_of_halted hstatus]
          exact Places.refl _
      | running => exact s.machine.places_step s.console hstatus

end Moment

namespace Session

open ArchState

variable {σ : Type} [Console σ]

/-- All placements of a history, in order. -/
def placements (s : Session σ) (actions : List (Action σ)) : List Placement :=
  (s.history actions).flatMap Moment.placements

theorem places_actAll (s : Session σ) (actions : List (Action σ)) :
    Places (s.placements actions) s.arch.cell (s.actAll actions).arch.cell :=
  history_induction (fun s placements t => Places placements s.arch.cell t.arch.cell)
    Moment.placements (fun _ => Places.refl _) (fun _ _ _ _ _ => Places.append)
    Moment.places_after s actions

/-- Polls leave all cells alone that are not the keyboard's. -/
theorem lastPlaced_polls (readings : List (Reading σ)) {addr : Word}
    (hstatus : addr ≠ 0xFE00) (hdata : addr ≠ 0xFE02) :
    lastPlaced (readings.flatMap Reading.placed) addr = none := by
  unfold lastPlaced
  rw [List.findSome?_eq_none_iff]
  intro placement hmem
  rw [List.mem_reverse, List.mem_flatMap] at hmem
  obtain ⟨reading, -, hplaced⟩ := hmem
  unfold Reading.placed at hplaced
  split at hplaced
  · obtain rfl := List.mem_singleton.mp hplaced
    cases reading.key? <;> simp [hstatus, hdata]
  · cases hplaced

/-- An executed word changes the cell that it stores to, and no other cell but the
keyboard's. -/
theorem cell_step (s : Session σ) (hrunning : s.machine.status = .running) {addr : Word}
    (hstatus : addr ≠ 0xFE00) (hdata : addr ≠ 0xFE02) :
    s.step.2.arch.cell addr =
      match s.arch.fetch.2.store? s.arch.fetch.1 with
      | some (target, value) => if addr = target then value else s.arch.cell addr
      | none => s.arch.cell addr := by
  have hpolls := lastPlaced_polls s.arch.stepReadings hstatus hdata
  have hplaces : s.step.2.arch.cell addr =
      (lastPlaced s.arch.stepPlacements addr).getD (s.arch.cell addr) :=
    s.machine.places_step s.console hrunning addr
  unfold stepPlacements stored at hplaces
  rw [lastPlaced_append, hpolls, Option.or_none] at hplaces
  rw [hplaces]
  rcases s.arch.fetch.2.store? s.arch.fetch.1 with _ | ⟨target, value⟩
  · rfl
  · by_cases h : addr = target <;> simp [h]

/-- A `TRAP` is not fetched from the keyboard's status cell, so its routine changes
no cell at all. -/
theorem cell_step_of_invokes (s : Session σ) (hrunning : s.machine.status = .running)
    {routine : TrapRoutine} (hword : s.arch.fetch.1.Invokes routine) :
    s.step.2.arch.cell = s.arch.cell := by
  have hplaces : Places s.arch.stepPlacements s.arch.cell s.step.2.arch.cell :=
    s.machine.places_step s.console hrunning
  have hpolls : ¬ (⟨s.arch, s.arch.pc⟩ : Reading σ).Polls := s.arch.pc_ne_of_invokes hword
  rw [stepPlacements_of_not_hasRow _ hword.not_hasRow] at hplaces
  unfold Reading.placed at hplaces
  rw [if_neg hpolls] at hplaces
  exact funext hplaces

/-- The last reading of a loading word gives its register the value. -/
theorem step_loads (s : Session σ) (hrunning : s.machine.status = .running)
    (hword : s.arch.fetch.1.Loads) :
    ∃ reading, s.arch.stepReadings.getLast? = some reading ∧
      s.step.2.arch.register (s.arch.fetch.1.registerAt 9) = reading.value := by
  obtain ⟨reading, hlast, hvalue⟩ := s.arch.fetch.2.row_loads hword
  have hafter : s.step.2.arch = s.arch.fetch.2.row s.arch.fetch.1 :=
    s.machine.of_step_of_hasRow s.console hrunning hword.hasRow
  refine ⟨reading, ?_, by rw [hafter, hvalue]⟩
  unfold stepReadings
  rw [List.getLast?_cons, hlast]
  rfl

/-- Every cell of a session that began with a new machine holds what was placed
there last, and zero if nothing was.  This is what the fetch, `LD`, `LDR` and
`LDI` read, except at the keyboard's status cell.  Besides the keyboard's cells
an executed word changes only the cell that it stores to; only `ST`, `STR` and
`STI` store, and a trap routine changes no cell at all. -/
theorem contents_history (console : σ) (actions : List (Action σ)) :
    let reached := (start console).actAll actions
    let word := reached.arch.fetch.1
    let last := fun addr => (lastPlaced ((start console).placements actions) addr).getD 0
    (∀ addr, reached.arch.cell addr = last addr) ∧
      (reached.machine.status = .running →
        reached.arch.stepReadings.head?.map Reading.value = some word ∧
        (word.Loads → ∃ reading, reached.arch.stepReadings.getLast? = some reading ∧
          reached.step.2.arch.register (word.registerAt 9) = reading.value) ∧
        ∀ reading ∈ reached.arch.stepReadings,
          (¬ reading.Polls → reading.value = last reading.addr) ∧
            (reading.Polls → reading.value = 0x8000 ∨ reading.value = 0)) ∧
      (∀ s, ⟨s, .step⟩ ∈ (start console).history actions → s.machine.status = .running →
        (∀ addr, addr ≠ 0xFE00 → addr ≠ 0xFE02 →
          s.step.2.arch.cell addr =
            match s.arch.fetch.2.store? s.arch.fetch.1 with
            | some (target, value) => if addr = target then value else s.arch.cell addr
            | none => s.arch.cell addr) ∧
        ((s.arch.fetch.2.store? s.arch.fetch.1).isSome ↔
          s.arch.fetch.1.bits 15 12 ∈ [0x3, 0x7, 0xB]) ∧
        ∀ routine, s.arch.fetch.1.Invokes routine → s.step.2.arch.cell = s.arch.cell) := by
  intro reached word last
  have hcells : ∀ addr, reached.arch.cell addr = last addr := by
    intro addr
    rw [show reached.arch.cell addr = _ from places_actAll _ _ addr,
      show (start console).arch.cell addr = 0 from Memory.peek_blank addr]
  refine ⟨hcells, fun hrunning => ⟨rfl, reached.step_loads hrunning, ?_⟩, ?_⟩
  · intro reading hmem
    constructor
    · intro hplain
      rw [Reading.value_of_not_polls hplain, reached.arch.cell_of_mem_stepReadings hmem, hcells]
    · intro hpolls
      unfold Reading.value
      rw [show reading.addr = 0xFE00 from hpolls]
      exact reading.state.load_status_value
  · intro s _ hrunning
    exact ⟨fun addr => s.cell_step hrunning, s.arch.fetch.2.store?_isSome_iff _,
      fun routine => s.cell_step_of_invokes hrunning⟩

/-- `OUT` at the start address. -/
theorem step_out (s : Session Buffer) (hrunning : s.machine.status = .running)
    (hpc : s.arch.pc = 0x3000) (hcell : s.arch.cell 0x3000 = 0xF021) :
    s.arch.fetch.1.Invokes .out ∧
      ∃ console, s.step.2.arch = { s.arch.goto 0x3001 with console := console } := by
  have hfetch := s.fetch_at_start hpc hcell
  have hword : s.arch.fetch.1.Invokes .out := by
    rw [hfetch]
    show Word.Invokes 0xF021 .out
    exact ⟨by decide, by decide⟩
  have hserve : ∀ (r0 : Word) (mem : Memory) (console : Buffer),
      ((TrapRoutine.out.serve r0 mem).run.hold console).1 = .ok .none := fun _ _ _ => rfl
  refine ⟨hword, ?_⟩
  obtain ⟨effect, console, hserved, -, hafter⟩ | ⟨cause, console, hserved, -⟩ :=
    (s.machine.step_of_invokes s.console hrunning hword).2
  · obtain rfl : effect = .none :=
      Except.ok.inj ((congrArg Prod.fst hserved).symm.trans (hserve _ _ _))
    rw [show of s.machine s.console = s.arch from rfl, hfetch] at hafter
    exact ⟨console, hafter⟩
  · cases (congrArg Prod.fst hserved).symm.trans (hserve _ _ _)

/-- `OUT`, then `ST R0, #1` and `LD R1, #0` over one cell that holds 7 at first. -/
def outStoreLoad : List (Action Buffer) :=
  [.write 0x3000 0xF021, .write 0x3001 0x3001, .write 0x3002 0x2200, .write 0x3003 7]

/-- Two steps of this program lead to its `LD`. -/
theorem steps_outStoreLoad (s : Session Buffer) (hrunning : s.machine.status = .running)
    (hpc : s.arch.pc = 0x3000) (hout : s.arch.cell 0x3000 = 0xF021)
    (hstore : s.arch.cell 0x3001 = 0x3001) (hload : s.arch.cell 0x3002 = 0x2200) :
    let stored := s.step.2
    let reached := stored.step.2
    s.arch.fetch.1.Invokes .out ∧ stored.machine.status = .running ∧
      stored.arch.fetch.2.store? stored.arch.fetch.1 = some (0x3003, s.arch.register 0) ∧
      reached.machine.status = .running ∧ reached.arch.fetch.1 = 0x2200 ∧
      reached.arch.stepReadings =
        [⟨reached.arch, 0x3002⟩, ⟨reached.arch.goto 0x3003, 0x3003⟩] := by
  intro stored reached
  obtain ⟨hinvokes, console, hfirst⟩ := s.step_out hrunning hpc hout
  have hrunning₁ : stored.machine.status = .running := by
    rw [← arch_status, hfirst]
    exact hrunning
  have hpc₁ : stored.arch.pc = 0x3001 := (congrArg ArchState.pc hfirst).trans rfl
  have hcell₁ : stored.arch.cell = s.arch.cell := (congrArg ArchState.cell hfirst).trans rfl
  have hregister₁ : stored.arch.register = s.arch.register :=
    (congrArg ArchState.register hfirst).trans rfl
  have hne₁ : stored.arch.pc ≠ 0xFE00 := by
    rw [hpc₁]
    decide
  have hword₁ : stored.arch.cell stored.arch.pc = 0x3001 := by rw [hpc₁, hcell₁, hstore]
  have hsecond : reached.arch = (stored.arch.goto 0x3002).store 0x3003 (stored.arch.register 0) := by
    rw [(stored.step_of_cell hrunning₁ hne₁ hword₁ ⟨by decide, by decide, by decide⟩).2, hpc₁]
    rfl
  have hpc₂ : reached.arch.pc = 0x3002 := congrArg ArchState.pc hsecond
  have hcell₂ : reached.arch.cell 0x3002 = 0x2200 := by
    have hother : (0x3002 : Word) ≠ 0x3003 := by decide
    calc reached.arch.cell 0x3002
        = Function.update stored.arch.cell 0x3003 (stored.arch.register 0) 0x3002 :=
          congrFun (congrArg ArchState.cell hsecond) _
      _ = 0x2200 := by rw [Function.update_of_ne hother, hcell₁, hload]
  have hstored : (stored.arch.goto 0x3002).store? 0x3001 = some (0x3003, stored.arch.register 0) :=
    rfl
  have hreadings : (reached.arch.goto 0x3003).readings 0x2200 =
      [⟨reached.arch.goto 0x3003, 0x3003⟩] := rfl
  have hfetch₁ := stored.fetch_of_cell hne₁ hword₁
  have hfetch₂ := reached.fetch_of_cell (w := 0x2200) (by rw [hpc₂]; decide) (by rw [hpc₂, hcell₂])
  rw [hpc₁] at hfetch₁
  rw [hpc₂] at hfetch₂
  refine ⟨hinvokes, hrunning₁, ?_, ?_, by rw [hfetch₂], ?_⟩
  · rw [hfetch₁, ← hregister₁]
    exact hstored
  · rw [← arch_status, hsecond]
    exact hrunning₁
  · unfold stepReadings
    rw [hfetch₂, hpc₂]
    exact congrArg _ hreadings

/-- `OUT` changes no cell, `ST` replaces the 7 by the zero in R0, and `LD` reads it. -/
theorem contents_history_outStoreLoad :
    let written := (start (Buffer.ofInput [])).actAll outStoreLoad
    let stored := written.step.2
    let reached := stored.step.2
    stored.arch.cell 0x3003 = 7 ∧ reached.arch.cell 0x3003 = 0 ∧
      reached.step.2.arch.register 1 = 0 := by
  have hcells : ∀ addr, ((start (Buffer.ofInput [])).actAll outStoreLoad).arch.cell addr =
      (lastPlaced [.store 0x3000 0xF021, .store 0x3001 0x3001, .store 0x3002 0x2200,
        .store 0x3003 7] addr).getD 0 := by
    intro addr
    have hplaces := places_actAll (start (Buffer.ofInput [])) outStoreLoad addr
    rw [show (start (Buffer.ofInput [])).arch.cell addr = 0 from Memory.peek_blank addr] at hplaces
    exact hplaces
  have hrunning : ((start (Buffer.ofInput [])).actAll outStoreLoad).machine.status = .running := rfl
  have hpc : ((start (Buffer.ofInput [])).actAll outStoreLoad).arch.pc = 0x3000 := rfl
  have hregister : ((start (Buffer.ofInput [])).actAll outStoreLoad).arch.register 0 = 0 := rfl
  obtain ⟨hlast, hreads, hwords⟩ :=
    contents_history (Buffer.ofInput []) (outStoreLoad ++ [.step, .step])
  rw [history_append, history_cons, history_cons, act_step] at hwords
  rw [actAll_append, actAll_cons, actAll_cons, actAll_nil, act_step, act_step] at hlast hreads
  generalize (start (Buffer.ofInput [])).actAll outStoreLoad = s at *
  dsimp only
  obtain ⟨hinvokes, hrunning₁, hstores, hrunning₂, hfetch, hreadings⟩ :=
    s.steps_outStoreLoad hrunning hpc (by rw [hcells]; rfl) (by rw [hcells]; rfl)
      (by rw [hcells]; rfl)
  have hout := (hwords s (by simp) hrunning).2.2 .out hinvokes
  have hseven : s.step.2.arch.cell 0x3003 = 7 := by
    rw [hout, hcells]
    rfl
  -- nothing more is needed about the sessions before the store
  generalize s.step.2 = stored at *
  have hstore := (hwords stored (by simp) hrunning₁).1 0x3003 (by decide) (by decide)
  rw [hstores, hregister] at hstore
  have hzero : stored.step.2.arch.cell 0x3003 = 0 := hstore.trans (if_pos rfl)
  generalize stored.step.2 = reached at *
  obtain ⟨-, hloads, hvalues⟩ := hreads hrunning₂
  rw [hfetch, hreadings] at hloads
  rw [hreadings] at hvalues
  obtain ⟨reading, hlastReading, hvalue⟩ := hloads (Or.inl (by decide))
  obtain rfl := Option.some.inj hlastReading
  obtain ⟨hplain, -⟩ := hvalues _ (List.mem_of_getLast? hlastReading)
  refine ⟨hseven, hzero, ?_⟩
  calc reached.step.2.arch.register 1
      = (⟨reached.arch.goto 0x3003, 0x3003⟩ : Reading Buffer).value := hvalue
    _ = reached.arch.cell 0x3003 :=
        (hplain (show (0x3003 : Word) ≠ 0xFE00 by decide)).trans (hlast 0x3003).symm
    _ = 0 := hzero

end Session

end Lc3
