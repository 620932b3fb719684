import Lc3.Proofs.Architecture.Agreement
import Lc3.Proofs.Console.Scanning
import Lc3.Proofs.Session.Contents
import Lc3.Proofs.Session.Loading

/-!
# The footprint of a session

The footprint of some steps is the set of the cells whose stored values they use.
The main result is that all other cells have no influence: sessions that differ
outside the footprint only go through the same steps.
-/

namespace Lc3

namespace ArchState

variable {σ : Type} [Console σ]

/-- The stored value of the cell is used by the next step: the cell is fetched, or
read as data or as a pointer, or scanned as a part of a string.  A reading that polls
the keyboard uses no stored value, for the poll overwrites it. -/
inductive Uses (s : ArchState σ) : Word → Prop
  | reading {reading : Reading σ} (hrunning : s.status = .running)
      (hmem : reading ∈ s.stepReadings) (hpolls : ¬ reading.Polls) : Uses s reading.addr
  | scanned {routine : TrapRoutine} {addr : Word} (hrunning : s.status = .running)
      (hword : s.fetch.1.Invokes routine)
      (hmem : addr ∈ routine.scanned (s.fetch.2.register 0) s.fetch.2.cell s.fetch.2.console) :
      Uses s addr

end ArchState

namespace Session

open ArchState Dialogue

variable {σ : Type} [Console σ]

theorem fetched_cell (s : Session σ) :
    (s.machine.fetch.hold s.console).1.2.memory.peek = s.arch.fetch.2.cell :=
  (congrArg (fun fetched => fetched.2.cell) (fetch_of s.machine s.console)).symm

theorem step_arch (s : Session σ) :
    s.step.2.arch =
      of (s.machine.step.hold s.console).1.machine (s.machine.step.hold s.console).2 := rfl

theorem status_of_ok (s : Session σ) {status : Status} (h : s.step.1 = .ok status) :
    s.step.2.arch.status = status := by
  have hstatus := Machine.step_status s.machine s.console
  rw [← step_result, h] at hstatus
  exact hstatus

/-- The next step of both sessions has the same result and makes the same calls, and
leaves states that agree on the cells. -/
structure StepsAlike (cells : Set Word) (s t : Session σ) : Prop where
  result : t.step.1 = s.step.1
  calls : t.calls = s.calls
  after : s.step.2.arch.AgreeOn cells t.step.2.arch

/-- A result that is no failure is told by the status that the step leaves. -/
theorem step_result_of_ok {cells : Set Word} {s t : Session σ} (hs : ∃ status, s.step.1 = .ok status)
    (ht : ∃ status, t.step.1 = .ok status) (hafter : s.step.2.arch.AgreeOn cells t.step.2.arch) :
    t.step.1 = s.step.1 := by
  obtain ⟨first, hfirst⟩ := hs
  obtain ⟨second, hsecond⟩ := ht
  rw [hfirst, hsecond, ← s.status_of_ok hfirst, ← t.status_of_ok hsecond, hafter.status]

/-- A trap routine does the same in sessions that agree on what it scans. -/
theorem service_sameAt {cells : Set Word} {s t : Session σ}
    (hfetched : s.arch.fetch.2.AgreeOn cells t.arch.fetch.2)
    (huses : ∀ addr, s.arch.Uses addr → addr ∈ cells) (hrunning : s.machine.status = .running)
    {routine : TrapRoutine} (hinvokes : s.arch.fetch.1.Invokes routine) :
    SameAt s.arch.fetch.2.console (s.machine.service s.console routine)
      (t.machine.service t.console routine) := by
  have hregister : (of t.machine t.console).fetch.2.register = s.arch.fetch.2.register :=
    hfetched.register
  unfold Machine.service
  rw [hregister]
  apply TrapRoutine.serve_scanned
  rw [s.fetched_cell, t.fetched_cell]
  exact fun addr hmem => hfetched.cell addr (huses addr (.scanned hrunning hinvokes hmem))

section Agreement

variable {cells : Set Word} {s t : Session σ} (h : s.arch.AgreeOn cells t.arch)

include h

section Running

variable (hrunning : s.machine.status = .running) (hword : t.arch.fetch.1 = s.arch.fetch.1)
  (hfetched : s.arch.fetch.2.AgreeOn cells t.arch.fetch.2)

include hrunning hword

theorem stepsAlike_of_hasRow (hhas : s.arch.fetch.1.HasRow)
    (hcalls : t.arch.stepReadings.flatMap Reading.calls = s.arch.stepReadings.flatMap Reading.calls)
    (hrow : (s.arch.fetch.2.row s.arch.fetch.1).AgreeOn cells (t.arch.fetch.2.row t.arch.fetch.1)) :
    StepsAlike cells s t := by
  have hrunning' : t.machine.status = .running := h.status.trans hrunning
  have hhas' : t.arch.fetch.1.HasRow := hword ▸ hhas
  obtain ⟨hscalls, hsresult, hsafter⟩ := s.machine.step_of_hasRow s.console hrunning hhas
  obtain ⟨htcalls, htresult, htafter⟩ := t.machine.step_of_hasRow t.console hrunning' hhas'
  refine ⟨htresult.trans hsresult.symm, htcalls.trans (hcalls.trans hscalls.symm), ?_⟩
  rw [s.step_arch, t.step_arch, hsafter, htafter]
  exact hrow

include hfetched

theorem stepsAlike_of_refused (hrefused : s.arch.fetch.1.Refused)
    (hcalls : t.arch.stepReadings.flatMap Reading.calls =
      s.arch.stepReadings.flatMap Reading.calls) : StepsAlike cells s t := by
  have hrunning' : t.machine.status = .running := h.status.trans hrunning
  have hrefused' : t.arch.fetch.1.Refused := hword ▸ hrefused
  have hpc : t.machine.registers.pc = s.machine.registers.pc := h.pc
  obtain ⟨hscalls, ⟨fault, hsresult⟩, hsafter⟩ :=
    s.machine.step_of_refused s.console hrunning hrefused
  obtain ⟨htcalls, -, htafter⟩ := t.machine.step_of_refused t.console hrunning' hrefused'
  have hraises := (s.machine.step_result_error_iff s.console hrunning fault).mp hsresult
  refine ⟨?_, htcalls.trans (hcalls.trans hscalls.symm), ?_⟩
  · have htresult := (t.machine.step_result_error_iff t.console hrunning' fault).mpr (by
      rw [show (of t.machine t.console).fetch.1 = _ from hword, hpc]
      exact hraises.of_refused hrefused)
    exact htresult.trans hsresult.symm
  · rw [s.step_arch, t.step_arch, hsafter, htafter]
    exact hfetched.halt

variable (huses : ∀ addr, s.arch.Uses addr → addr ∈ cells)

include huses

theorem stepsAlike_of_invokes {routine : TrapRoutine}
    (hinvokes : s.arch.fetch.1.Invokes routine) : StepsAlike cells s t := by
  have hrunning' : t.machine.status = .running := h.status.trans hrunning
  have hpc : t.machine.registers.pc = s.machine.registers.pc := h.pc
  have hconsole : (of t.machine t.console).fetch.2.console =
      (of s.machine s.console).fetch.2.console := hfetched.console
  obtain ⟨hhold, htranscript⟩ := service_sameAt hfetched huses hrunning hinvokes
  obtain ⟨hscalls, hsends⟩ := s.machine.step_of_invokes s.console hrunning hinvokes
  obtain ⟨htcalls, htends⟩ :=
    t.machine.step_of_invokes t.console hrunning' (hword ▸ hinvokes : t.arch.fetch.1.Invokes routine)
  rw [hconsole] at htcalls htends
  have hcalls : t.calls = s.calls := htcalls.trans (htranscript.symm.trans hscalls.symm)
  rcases hsends with
    ⟨effect, console, hserved, hok, hsafter⟩ | ⟨cause, console, hserved, herror, hsafter⟩
  · obtain ⟨effect', console', hserved', hok', htafter⟩ | ⟨_, _, hfailed, -, -⟩ := htends
    · -- both routines come to the same effect and leave the console alike
      obtain ⟨heffect, rfl⟩ := Prod.mk.inj (hserved'.symm.trans (hhold.symm.trans hserved))
      obtain rfl := Except.ok.inj heffect
      have hafter : s.step.2.arch.AgreeOn cells t.step.2.arch := by
        rw [s.step_arch, t.step_arch, hsafter, htafter]
        exact (hfetched.carryOut effect').atConsole console'
      exact ⟨step_result_of_ok hok hok' hafter, hcalls, hafter⟩
    · cases hfailed.symm.trans (hhold.symm.trans hserved)
  · obtain ⟨_, _, hserved', -, -⟩ | ⟨cause', console', hfailed, herror', htafter⟩ := htends
    · cases hserved'.symm.trans (hhold.symm.trans hserved)
    · obtain ⟨hcause, rfl⟩ := Prod.mk.inj (hfailed.symm.trans (hhold.symm.trans hserved))
      obtain rfl := Except.error.inj hcause
      refine ⟨?_, hcalls, ?_⟩
      · rw [s.step_result, t.step_result, herror, herror', hpc]
      · rw [s.step_arch, t.step_arch, hsafter, htafter]
        exact hfetched.halt.atConsole console'

end Running

/-- One step does the same in sessions that agree on the cells that it uses. -/
theorem step_agreeOn (huses : ∀ addr, s.arch.Uses addr → addr ∈ cells) :
    StepsAlike cells s t ∧ Moment.placements ⟨t, .step⟩ = Moment.placements ⟨s, .step⟩ := by
  have hstatus : t.machine.status = s.machine.status := h.status
  unfold Moment.placements
  cases hrunning : s.machine.status with
  | halted =>
      have hhalted : t.machine.status = .halted := hstatus.trans hrunning
      refine ⟨⟨?_, ?_, ?_⟩, ?_⟩
      · rw [s.step_of_halted hrunning, t.step_of_halted hhalted]
      · rw [s.calls_of_halted hrunning, t.calls_of_halted hhalted]
      · rw [s.step_of_halted hrunning, t.step_of_halted hhalted]
        exact h
      · simp [hhalted]
  | running =>
      have hrunning' : t.machine.status = .running := hstatus.trans hrunning
      obtain ⟨⟨hword, hfetched⟩, hcalls, hplaced, hrow⟩ :=
        h.step fun reading hmem hpolls => huses _ (.reading hrunning hmem hpolls)
      refine ⟨?_, by simp [hrunning', hplaced]⟩
      cases s.machine.step_cases s.console hrunning with
      | row hhas => exact stepsAlike_of_hasRow h hrunning hword hhas hcalls hrow
      | refused _ hrefused =>
          exact stepsAlike_of_refused h hrunning hword hfetched hrefused hcalls
      | served _ _ _ hinvokes | failed _ _ _ hinvokes =>
          exact stepsAlike_of_invokes h hrunning hword hfetched huses hinvokes

end Agreement

/-- The cells whose stored values the next `n` steps use. -/
def footprint (s : Session σ) (n : Nat) : Set Word :=
  { addr | ∃ i < n, (s.after i).arch.Uses addr }

theorem actAll_replicate_step (s : Session σ) (n : Nat) :
    s.actAll (List.replicate n .step) = s.after n := by
  induction n with
  | zero => rfl
  | succ n ih =>
      rw [List.replicate_succ', actAll_append, ih]
      rfl

/-- The placements of the next `n` steps, in order. -/
def placedUpTo (s : Session σ) (n : Nat) : List Placement := s.placements (List.replicate n .step)

theorem placedUpTo_succ (s : Session σ) (n : Nat) :
    s.placedUpTo (n + 1) = s.placedUpTo n ++ Moment.placements ⟨s.after n, .step⟩ := by
  unfold placedUpTo placements
  rw [List.replicate_succ', history_append, List.flatMap_append, actAll_replicate_step]
  exact congrArg _ (List.append_nil _)

theorem places_placedUpTo (s : Session σ) (n : Nat) :
    Places (s.placedUpTo n) s.arch.cell (s.after n).arch.cell := by
  rw [← actAll_replicate_step]
  exact s.places_actAll _

/-- In the next `n` steps both sessions do the same.  A cell that differs in the end is
one that no step of either has placed a value in. -/
structure SameSteps (n : Nat) (s t : Session σ) : Prop where
  result : ∀ i < n, t.resultAt i = s.resultAt i
  calls : ∀ i < n, (t.after i).calls = (s.after i).calls
  state : ∀ i ≤ n, (t.after i).arch = { (s.after i).arch with cell := (t.after i).arch.cell }
  cell : ∀ addr, (t.after n).arch.cell addr = (s.after n).arch.cell addr ∨
    (lastPlaced (s.placedUpTo n) addr = none ∧ lastPlaced (t.placedUpTo n) addr = none ∧
      (s.after n).arch.cell addr = s.arch.cell addr ∧
      (t.after n).arch.cell addr = t.arch.cell addr)

/-- Sessions that agree on the footprint of some steps agree on it after each of them,
and have placed the same. -/
theorem after_agreeOn {s t : Session σ} {n : Nat} (h : s.arch.AgreeOn (s.footprint n) t.arch)
    {i : Nat} (hi : i ≤ n) :
    (s.after i).arch.AgreeOn (s.footprint n) (t.after i).arch ∧
      t.placedUpTo i = s.placedUpTo i := by
  induction i with
  | zero => exact ⟨h, rfl⟩
  | succ i ih =>
      obtain ⟨hagree, hplaced⟩ := ih (Nat.le_of_succ_le hi)
      obtain ⟨hsteps, hstep⟩ := step_agreeOn hagree fun addr huses => ⟨i, hi, huses⟩
      rw [placedUpTo_succ, placedUpTo_succ, hplaced, hstep]
      exact ⟨hsteps.after, rfl⟩

theorem sameSteps_of_agreeOn {s t : Session σ} {n : Nat}
    (h : s.arch.AgreeOn (s.footprint n) t.arch) : s.SameSteps n t := by
  have hstep : ∀ i < n, StepsAlike (s.footprint n) (s.after i) (t.after i) := by
    intro i hi
    obtain ⟨hagree, -⟩ := after_agreeOn h (Nat.le_of_lt hi)
    exact (step_agreeOn hagree fun addr huses => ⟨i, hi, huses⟩).1
  refine ⟨fun i hi => (hstep i hi).result, fun i hi => (hstep i hi).calls,
    fun i hi => (after_agreeOn h hi).1.rest, fun addr => ?_⟩
  have hplaced := (after_agreeOn h (Nat.le_refl n)).2
  rw [s.places_placedUpTo n addr, t.places_placedUpTo n addr, hplaced]
  cases hlast : lastPlaced (s.placedUpTo n) addr with
  | some value => exact Or.inl rfl
  | none => exact Or.inr ⟨rfl, rfl, rfl, rfl⟩

omit [Console σ] in
/-- An image that covers none of the cells makes no difference to them. -/
theorem agreeOn_loadImage {cells : Set Word} (s : Session σ) {image : Image}
    (h : ∀ addr ∈ cells, image.wordAt? addr = none) :
    s.arch.AgreeOn cells (s.loadImage image).arch := by
  refine ⟨rfl, fun addr haddr => ?_⟩
  rw [Moment.places_image image s addr, lastPlaced_singleton, Placement.valueAt?_image, h addr haddr]
  rfl

/-- Cells outside the footprint of some steps have no influence on these steps.  In
particular an extra image that is placed outside the footprint has none. -/
theorem steps_ignore_unused (s : Session σ) (n : Nat) :
    (∀ t : Session σ, s.arch.AgreeOn (s.footprint n) t.arch → s.SameSteps n t) ∧
      ∀ image : Image, (∀ addr ∈ s.footprint n, image.wordAt? addr = none) →
        s.SameSteps n (s.loadImage image) :=
  ⟨fun _ => sameSteps_of_agreeOn, fun _ h => sameSteps_of_agreeOn (s.agreeOn_loadImage h)⟩

/-- A `PUTS` of the string that begins with the `PUTS` itself. -/
def selfPrinting : Session Buffer where
  machine := (Machine.holding 0xF022).set 0 0x3000
  console := .ofInput []
  log := none

theorem footprint_selfPrinting :
    ∀ addr ∈ selfPrinting.footprint 1, addr = 0x3000 ∨ addr = 0x3001 := by
  rintro addr ⟨i, hi, huses⟩
  obtain rfl : i = 0 := Nat.lt_one_iff.mp hi
  have hfetch : selfPrinting.arch.fetch = (0xF022, selfPrinting.arch.goto 0x3001) :=
    selfPrinting.fetch_at_start rfl (Memory.peek_write_self _ _ _)
  have hinvokes : selfPrinting.arch.fetch.1.Invokes .puts := by
    rw [hfetch]
    show Word.Invokes 0xF022 .puts
    exact ⟨by decide, by decide⟩
  cases huses with
  | reading _ hmem =>
      rw [show (selfPrinting.after 0).arch.stepReadings = _ from
        selfPrinting.arch.stepReadings_of_not_hasRow hinvokes.not_hasRow] at hmem
      obtain rfl := List.mem_singleton.mp hmem
      exact Or.inl rfl
  | scanned _ hword hmem =>
      obtain rfl := hinvokes.unique hword
      obtain ⟨rest, hcircuit⟩ := TrapRoutine.circuit_eq_cons 0x3000
      have hscanned : TrapRoutine.scanned .puts 0x3000 selfPrinting.arch.cell selfPrinting.console =
          [0x3000, 0x3001] := by
        have hfirst : selfPrinting.arch.cell 0x3000 = 0xF022 := Memory.peek_write_self _ _ _
        have hzero : selfPrinting.arch.cell (0x3000 + 1) = 0 :=
          (Memory.peek_write_of_ne _ _ (by decide)).trans (Memory.peek_blank _)
        have hwritten : (writeAll [(selfPrinting.arch.cell 0x3000).lowByte]).run.hold
            selfPrinting.console = (.ok (), ⟨[], #[0x22], 0⟩) := by
          rw [hfirst]
          rfl
        rw [TrapRoutine.scanned_puts, hcircuit,
          TrapRoutine.scan_of_ok (hfirst ▸ by decide) _ hwritten, TrapRoutine.scan_of_zero _ hzero]
        rfl
      rw [show (selfPrinting.after 0).arch.fetch = _ from hfetch] at hmem
      have hmem : addr ∈ [0x3000, 0x3001] := hscanned ▸ hmem
      simpa using hmem

/-- The image that follows the string is not noticed. -/
theorem steps_ignore_unused_selfPrinting :
    let image : Image := ⟨0x3002, [0x4142, 0x4344], by decide⟩
    (∀ addr ∈ selfPrinting.footprint 1, image.wordAt? addr = none) ∧
      (selfPrinting.loadImage image).resultAt 0 = selfPrinting.resultAt 0 ∧
      (selfPrinting.loadImage image).calls = selfPrinting.calls ∧
      (selfPrinting.loadImage image).arch.cell 0x3002 = 0x4142 := by
  intro image
  have hunused : ∀ addr ∈ selfPrinting.footprint 1, image.wordAt? addr = none := by
    intro addr haddr
    rcases footprint_selfPrinting addr haddr with rfl | rfl <;> rfl
  obtain ⟨-, hextra⟩ := steps_ignore_unused selfPrinting 1
  have hsame := hextra image hunused
  exact ⟨hunused, hsame.result 0 Nat.one_pos, hsame.calls 0 Nat.one_pos,
    image.peek_placeInto selfPrinting.machine.memory 0x3002⟩

end Session

end Lc3
