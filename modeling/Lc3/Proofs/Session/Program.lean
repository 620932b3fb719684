import Lc3.Proofs.Console.Accepting
import Lc3.Proofs.Machine.Polling
import Lc3.Proofs.Session.Footprint
import Lc3.Proofs.Session.Intake

/-!
# Programs in memory

How a machine executes the words of an image that is held in memory: what a step does
that is at a word of the instruction table, at a trap routine that succeeds or fails,
or at one that prints.
-/

namespace Lc3

/-- The status that the effect of a trap routine leaves a running machine in. -/
def ServiceEffect.leaves : ServiceEffect → Status
  | none => .running
  | key _ => .running
  | halt => .halted

namespace ArchState

variable {σ : Type}

@[simp] theorem define_register_self (s : ArchState σ) (r : Fin 8) (value : Word) :
    (s.define r value).register r = value := by
  show Function.update s.register r value r = value
  exact Function.update_self r value s.register

theorem define_register_of_ne (s : ArchState σ) {r other : Fin 8} (h : other ≠ r) (value : Word) :
    (s.define r value).register other = s.register other := by
  show Function.update s.register r value other = s.register other
  exact Function.update_of_ne h value s.register

@[simp] theorem define_cell (s : ArchState σ) (r : Fin 8) (value : Word) :
    (s.define r value).cell = s.cell := rfl

@[simp] theorem carryOut_key_register (s : ArchState σ) (byte : UInt8) :
    (s.carryOut (.key byte)).register 0 = byte.toUInt16 := by
  show Function.update s.register 0 byte.toUInt16 0 = byte.toUInt16
  exact Function.update_self 0 byte.toUInt16 s.register

/-- A branch moves the program counter and nothing else. -/
theorem row_branch [Console σ] (s : ArchState σ) {w : Word} (hop : w.bits 15 12 = 0x0) :
    s.row w = s.goto (if s.branches w then s.relative (w.signedBits 9) else s.pc) := by
  have hrow : s.row w = if s.branches w then s.goto (s.relative (w.signedBits 9)) else s := by
    unfold row
    rw [hop]
    rfl
  rw [hrow]
  split_ifs <;> rfl

theorem row_ldi [Console σ] (s : ArchState σ) {w near : Word} (hop : w.bits 15 12 = 0xA)
    (hnear : s.relative (w.signedBits 9) = near) :
    s.row w =
      ((s.load near).2.load (s.load near).1).2.define (w.registerAt 9)
        ((s.load near).2.load (s.load near).1).1 := by
  unfold row
  rw [hop, hnear]
  rfl

theorem carryOut_status {s : ArchState σ} (h : s.status = .running) (effect : ServiceEffect) :
    (s.carryOut effect).status = effect.leaves := by
  cases effect with
  | none | key _ => exact h
  | halt => rfl

end ArchState

/-- Readings write nothing. -/
theorem sent_readings {σ : Type} [Console σ] (readings : List (Reading σ)) :
    sent (readings.flatMap Reading.calls) = [] := by
  refine sent_of_waits fun call hcall => ?_
  obtain ⟨reading, -, hmem⟩ := List.mem_flatMap.mp hcall
  exact Reading.waits_of_mem_calls hmem

namespace Session

open ArchState Dialogue

variable {σ : Type}

theorem SameState.arch_eq {s t : Session σ} (h : s.SameState t) : s.arch = t.arch := by
  unfold arch
  rw [h.machine, h.console]

/-- The machine runs, the words of the image are in memory, and the program counter is at
this address. -/
structure At (s : Session σ) (image : Image) (addr : Word) : Prop where
  running : s.machine.status = .running
  pc : s.arch.pc = addr
  holds : ∀ other w, image.wordAt? other = some w → s.arch.cell other = w

/-- A program whose image is loaded last, with the machine at its origin. -/
theorem at_loadImage (s : Session σ) (image : Image) (hrunning : s.machine.status = .running)
    (hpc : s.arch.pc = image.origin) : (s.loadImage image).At image image.origin := by
  refine ⟨hrunning, hpc, fun addr w hword => ?_⟩
  have hplaced : (s.loadImage image).arch.cell addr =
      (image.wordAt? addr).getD (s.machine.memory.peek addr) :=
    image.peek_placeInto s.machine.memory addr
  rw [hplaced, hword]
  rfl

/-- The program of the image that was loaded last of all. -/
theorem at_of_cells {s : Session σ} (images : List Image) {image : Image} {addr : Word}
    (hrunning : s.machine.status = .running) (hpc : s.arch.pc = addr)
    (hcell : ∀ other, s.arch.cell other =
      ((images ++ [image]).reverse.findSome? fun image => image.wordAt? other).getD 0) :
    s.At image addr := by
  refine ⟨hrunning, hpc, fun other w hword => ?_⟩
  rw [hcell, List.reverse_append, List.reverse_singleton, List.singleton_append,
    List.findSome?_cons, hword]
  rfl

namespace At

variable {s t : Session σ} {image : Image} {addr : Word}

/-- The program is still there in a running state that has changed none of its cells. -/
theorem of_arch (h : s.At image addr) {next : Word} {state : ArchState σ} (harch : t.arch = state)
    (hstatus : state.status = .running) (hpc : state.pc = next)
    (hcell : ∀ other, (image.wordAt? other).isSome → state.cell other = s.arch.cell other) :
    t.At image next := by
  subst harch
  refine ⟨hstatus, hpc, fun other w hword => ?_⟩
  rw [hcell other (by rw [hword]; rfl)]
  exact h.holds other w hword

variable [Console σ] (h : s.At image addr) {w : Word} (hword : image.wordAt? addr = some w)
  (hne : addr ≠ 0xFE00)

include h hword hne

theorem fetch_eq : s.arch.fetch = (w, s.arch.goto (addr + 1)) := by
  have hnext : UInt16.ofInt (addr.toNat + 1) = addr + 1 := (Word.add_eq_ofInt addr 1).symm
  rw [s.fetch_of_cell (h.pc ▸ hne) (h.pc ▸ h.holds addr w hword), h.pc, hnext]

/-- A step at a word of the table applies its row and writes nothing. -/
theorem step_row (hrow : w.HasRow) :
    s.step.1 = .ok .running ∧ s.step.2.arch = (s.arch.goto (addr + 1)).row w ∧
      sent s.calls = [] := by
  have hfetch := h.fetch_eq hword hne
  have hfetched : s.arch.fetch.1.HasRow := by
    rw [hfetch]
    exact hrow
  obtain ⟨hcalls, hresult, hafter⟩ := s.machine.step_of_hasRow s.console h.running hfetched
  rw [show of s.machine s.console = s.arch from rfl, hfetch] at hafter
  refine ⟨hresult, hafter, ?_⟩
  rw [show s.calls = _ from hcalls]
  exact sent_readings _

/-- `LDI` through a pointer of the program. -/
theorem step_ldi (hop : w.bits 15 12 = 0xA) {near pointer : Word}
    (hnear : (s.arch.goto (addr + 1)).relative (w.signedBits 9) = near) (hplain : near ≠ 0xFE00)
    (hpointer : image.wordAt? near = some pointer) :
    s.step.1 = .ok .running ∧
      s.step.2.arch = ((s.arch.goto (addr + 1)).load pointer).2.define (w.registerAt 9)
        ((s.arch.goto (addr + 1)).load pointer).1 ∧
      sent s.calls = [] := by
  have hrow : w.HasRow := by
    unfold Word.HasRow
    omega
  have hcell : (s.arch.goto (addr + 1)).cell near = pointer := h.holds near pointer hpointer
  obtain ⟨hok, harch, hsent⟩ := h.step_row hword hne hrow
  rw [row_ldi _ hop hnear, load_of_ne _ hplain, hcell] at harch
  exact ⟨hok, harch, hsent⟩

/-- A step at a word that is refused fails and writes nothing. -/
theorem step_refused {fault : Fault} (hrefused : w.Refused) (hraises : w.Raises addr [] fault) :
    s.step.1 = .error fault ∧ sent s.calls = [] := by
  have hfetched : (of s.machine s.console).fetch.1 = w :=
    congrArg Prod.fst (h.fetch_eq hword hne)
  have hpc : s.machine.registers.pc = addr := h.pc
  obtain ⟨hcalls, -, -⟩ :=
    s.machine.step_of_refused s.console h.running (by rw [hfetched]; exact hrefused)
  constructor
  · refine (s.machine.step_result_error_iff s.console h.running fault).mpr ?_
    rw [hfetched, hpc]
    exact hraises.of_refused hrefused
  · rw [show s.calls = _ from hcalls]
    exact sent_readings _

section Trap

variable {routine : TrapRoutine} (hinvokes : w.Invokes routine)

include hinvokes

/-- The routine is served with R0, memory and the console as the step finds them. -/
theorem serving_eq :
    s.arch.fetch.1.Invokes routine ∧
      s.serving routine = routine.serve (s.arch.register 0) s.machine.memory ∧
      s.arch.fetch.2.console = s.console := by
  have hfetch := h.fetch_eq hword hne
  have hpc : s.machine.registers.pc = addr := h.pc
  refine ⟨?_, ?_, ?_⟩
  · rw [hfetch]
    exact hinvokes
  · unfold serving Machine.service
    rw [show (of s.machine s.console).fetch = _ from hfetch, fetch_of_ne s.machine (hpc ▸ hne)]
    rfl
  · rw [hfetch]
    rfl

/-- A step at a trap routine that succeeds. -/
theorem step_served {effect : ServiceEffect} {console : σ}
    (hserved : (routine.serve (s.arch.register 0) s.machine.memory).run.hold s.console =
      (.ok effect, console)) :
    s.step.1 = .ok effect.leaves ∧
      s.step.2.arch = { (s.arch.goto (addr + 1)).carryOut effect with console := console } := by
  obtain ⟨hinvoked, hserving, hconsole⟩ := h.serving_eq hword hne hinvokes
  rw [← hserving, ← hconsole] at hserved
  obtain ⟨other, console', hother, ⟨status, hresult⟩, hafter⟩ | ⟨cause, console', hfailed, -, -⟩ :=
    (s.machine.step_of_invokes s.console h.running hinvoked).2
  · obtain ⟨heffect, rfl⟩ := Prod.mk.inj (hserved.symm.trans hother)
    obtain rfl := Except.ok.inj heffect
    rw [show of s.machine s.console = s.arch from rfl, h.fetch_eq hword hne] at hafter
    have harch : s.step.2.arch =
        { (s.arch.goto (addr + 1)).carryOut effect with console := console } := hafter
    have hresult : s.step.1 = .ok status := hresult
    have hstatus : status = effect.leaves := by
      rw [← s.status_of_ok hresult, harch]
      exact carryOut_status h.running effect
    rw [← hstatus]
    exact ⟨hresult, harch⟩
  · cases hserved.symm.trans hfailed

/-- A step at a trap routine that fails. -/
theorem step_failed {cause : ConsoleError} {console : σ}
    (hserved : (routine.serve (s.arch.register 0) s.machine.memory).run.hold s.console =
      (.error cause, console)) :
    s.step.1 = .error (.console routine addr cause) ∧
      s.step.2.arch = { s.arch.goto (addr + 1) with
        status := .halted
        console := console } := by
  obtain ⟨hinvoked, hserving, hconsole⟩ := h.serving_eq hword hne hinvokes
  rw [← hserving, ← hconsole] at hserved
  obtain ⟨effect, console', hother, -, -⟩ | ⟨other, console', hfailed, hresult, hafter⟩ :=
    (s.machine.step_of_invokes s.console h.running hinvoked).2
  · cases hserved.symm.trans hother
  · obtain ⟨hcause, rfl⟩ := Prod.mk.inj (hserved.symm.trans hfailed)
    obtain rfl := Except.error.inj hcause
    rw [show of s.machine s.console = s.arch from rfl, h.fetch_eq hword hne] at hafter
    rw [show s.machine.registers.pc = addr from h.pc] at hresult
    exact ⟨hresult, hafter⟩

/-- A step at a trap routine that prints, to a console that refuses nothing of it. -/
theorem step_prints {bytes : List UInt8} {effect : ServiceEffect}
    (hserve : routine.serve (s.arch.register 0) s.machine.memory =
      TrapRoutine.print bytes >>= fun _ => pure effect)
    (haccepts : ∀ call ∈ s.calls, call.refuses = false) :
    ∃ console, (TrapRoutine.print bytes).run.hold s.console = (.ok (), console) ∧
      s.step.1 = .ok effect.leaves ∧
      s.step.2.arch = { (s.arch.goto (addr + 1)).carryOut effect with console := console } ∧
      sent s.calls = bytes := by
  obtain ⟨hinvoked, hserving, hconsole⟩ := h.serving_eq hword hne hinvokes
  obtain ⟨htranscript, hheld⟩ := run_print_pure bytes effect s.console
  have hcalls : s.calls = (TrapRoutine.print bytes).run.transcript s.console := by
    rw [s.calls_of_invokes h.running hinvoked, hserving, hconsole, hserve, htranscript]
  rw [hcalls] at haccepts
  obtain ⟨console, hprinted, hall⟩ := print_of_accepted bytes s.console haccepts
  obtain ⟨hresult, hafter⟩ := h.step_served hword hne hinvokes
    (by rw [hserve]; exact hheld console hprinted)
  refine ⟨console, hprinted, hresult, hafter, ?_⟩
  rw [hcalls, hall, sent_printed]

end Trap

end At

/-- The next `n` steps all leave the machine running, and write these bytes. -/
structure RunsWriting [Console σ] (s : Session σ) (n : Nat) (bytes : List UInt8) : Prop where
  runs : s.RunsFor n
  writes : sent (s.callsUpTo n) = bytes

namespace RunsWriting

variable [Console σ] {s : Session σ} {m n : Nat} {bytes more : List UInt8}

theorem zero (s : Session σ) : s.RunsWriting 0 [] := ⟨RunsFor.zero s, rfl⟩

theorem sent_succ (h : s.RunsWriting n bytes) (hmore : sent (s.after n).calls = more) :
    sent (s.callsUpTo (n + 1)) = bytes ++ more := by
  rw [callsUpTo_succ, sent_append, h.writes, hmore]

theorem succ (h : s.RunsWriting n bytes) (hnext : s.resultAt n = .ok .running)
    (hmore : sent (s.after n).calls = more) : s.RunsWriting (n + 1) (bytes ++ more) :=
  ⟨h.runs.succ hnext, h.sent_succ hmore⟩

/-- What is written in these steps and in those after them. -/
theorem sent_add (h : s.RunsWriting m bytes) (hmore : sent ((s.after m).callsUpTo n) = more) :
    sent (s.callsUpTo (m + n)) = bytes ++ more := by
  rw [callsUpTo_add, sent_append, h.writes, hmore]

theorem trans (hm : s.RunsWriting m bytes) (hn : (s.after m).RunsWriting n more) :
    s.RunsWriting (m + n) (bytes ++ more) :=
  ⟨hm.runs.trans hn.runs, hm.sent_add hn.writes⟩

/-- A run that ends with the next step. -/
theorem run_eq {limit : Nat} (h : s.RunsWriting n bytes) (hlast : s.resultAt n ≠ .ok .running)
    (hmore : sent (s.after n).calls = more) (hlimit : n < limit) :
    (s.run limit).1 = some ((s.resultAt n).map fun _ => ()) ∧
      sent (s.callsUpTo (s.stepsOfRun limit)) = bytes ++ more := by
  refine ⟨(h.runs.run_eq hlast hlimit).1, ?_⟩
  rw [h.runs.stepsOfRun_eq hlast hlimit, h.sent_succ hmore]

end RunsWriting

/-- Nothing is refused in a run at a console that accepts output. -/
theorem accepted_callsUpTo [Console σ] {keeps : σ → Prop} (haccepts : AcceptsOutput keeps)
    (s : Session σ) (h : keeps s.console) (n : Nat) :
    keeps (s.after n).console ∧ ∀ call ∈ s.callsUpTo n, call.refuses = false := by
  induction n with
  | zero => exact ⟨h, List.forall_mem_nil _⟩
  | succ n ih =>
      obtain ⟨hkeeps, hcalls⟩ := ih
      obtain ⟨hkeeps', hcalls'⟩ := haccepts.hold (s.after n).machine.step hkeeps
      refine ⟨hkeeps', fun call hcall => ?_⟩
      rw [callsUpTo_succ, List.mem_append] at hcall
      exact hcall.elim (hcalls call) (hcalls' call)

end Session

end Lc3
