import Lc3.Console.Buffer
import Lc3.Proofs.Console.Waiting
import Lc3.Proofs.Machine.StepCases

/-!
# Steps that wait for the keyboard

A step waits for the keyboard by one poll of its status cell or inside one trap
routine, never by both.  The main results are that a step asks for a key at most
once and reads at most once, told from the addresses that it reads from, and that
nothing it has written is unflushed when it waits.
-/

namespace Lc3

namespace Reading

variable {σ : Type} [Console σ]

theorem waits_of_mem_calls {reading : Reading σ} {call : ConsoleCall} (h : call ∈ reading.calls) :
    call.waits = true := by
  by_cases hpolls : reading.Polls
  · rcases reading.calls_of_polls hpolls with ⟨-, hcalls | ⟨cause, hcalls⟩⟩ | ⟨byte, -, hcalls⟩ <;>
      rw [hcalls] at h <;> simp only [List.mem_cons, List.not_mem_nil, or_false] at h
    · rw [h]
      rfl
    · rcases h with rfl | rfl <;> rfl
    · rcases h with rfl | rfl <;> rfl
  · rw [calls_of_not_polls hpolls] at h
    cases h

/-- A poll asks once and reads at most once, and only after it was told of a key. -/
theorem calls_eq_of_polls {reading : Reading σ} (h : reading.Polls) :
    reading.calls.countP ConsoleCall.isPoll = 1 ∧ reading.calls.countP ConsoleCall.isRead ≤ 1 ∧
      ∀ before answer later, reading.calls = before ++ .readChar answer :: later →
        before = [.keyAvailable true] := by
  have hread : ∀ given before answer later,
      ([.keyAvailable true, .readChar given] : List ConsoleCall) =
        before ++ .readChar answer :: later → before = [.keyAvailable true] := by
    intro given before answer later hsplit
    rcases before with _ | ⟨asked, _ | ⟨other, rest⟩⟩ <;> simp at hsplit
    rw [hsplit.1]
  rcases reading.calls_of_polls h with ⟨-, hcalls | ⟨cause, hcalls⟩⟩ | ⟨byte, -, hcalls⟩ <;>
    rw [hcalls]
  · refine ⟨rfl, Nat.zero_le 1, fun before answer later hsplit => ?_⟩
    cases before <;> simp at hsplit
  · exact ⟨rfl, Nat.le_refl 1, hread _⟩
  · exact ⟨rfl, Nat.le_refl 1, hread _⟩

end Reading

namespace ArchState

variable {σ : Type} [Console σ]

/-- One of the addresses that the next step reads from is the keyboard's status
cell.  A store to that cell, and a string over it, are not among them. -/
inductive AsksKey (s : ArchState σ) : Prop
  /-- The instruction is fetched from the cell. -/
  | fetch (h : s.pc = 0xFE00)
  /-- The data of `LD` or the pointer of `LDI` or `STI` is in the cell. -/
  | near (hop : s.fetch.1.bits 15 12 ∈ [0x2, 0xA, 0xB])
      (h : s.fetch.2.relative (s.fetch.1.signedBits 9) = 0xFE00)
  /-- The data of `LDR` is in the cell. -/
  | based (hop : s.fetch.1.bits 15 12 = 0x6)
      (h : s.fetch.2.based (s.fetch.1.registerAt 6) (s.fetch.1.signedBits 6) = 0xFE00)
  /-- The pointer that `LDI` follows leads to the cell. -/
  | pointed (hop : s.fetch.1.bits 15 12 = 0xA)
      (h : (s.fetch.2.load (s.fetch.2.relative (s.fetch.1.signedBits 9))).1 = 0xFE00)

theorem exists_polls_readings_iff (s : ArchState σ) (w : Word) :
    (∃ reading ∈ s.readings w, reading.Polls) ↔
      (w.bits 15 12 ∈ [0x2, 0xA, 0xB] ∧ s.relative (w.signedBits 9) = 0xFE00) ∨
        (w.bits 15 12 = 0x6 ∧ s.based (w.registerAt 6) (w.signedBits 6) = 0xFE00) ∨
        (w.bits 15 12 = 0xA ∧ (s.load (s.relative (w.signedBits 9))).1 = 0xFE00) := by
  unfold readings
  dsimp only
  split <;> simp_all [Reading.Polls]

theorem asksKey_iff (s : ArchState σ) :
    s.AsksKey ↔ ∃ reading ∈ s.stepReadings, reading.Polls := by
  have hreadings := s.fetch.2.exists_polls_readings_iff s.fetch.1
  unfold stepReadings
  rw [List.exists_mem_cons_iff, hreadings]
  constructor
  · rintro (h | ⟨hop, h⟩ | ⟨hop, h⟩ | ⟨hop, h⟩)
    · exact Or.inl h
    · exact Or.inr (Or.inl ⟨hop, h⟩)
    · exact Or.inr (Or.inr (Or.inl ⟨hop, h⟩))
    · exact Or.inr (Or.inr (Or.inr ⟨hop, h⟩))
  · rintro (h | ⟨hop, h⟩ | ⟨hop, h⟩ | ⟨hop, h⟩)
    · exact .fetch h
    · exact .near hop h
    · exact .based hop h
    · exact .pointed hop h

theorem polls_ne_nil_iff (s : ArchState σ) : 0 < s.polls.length ↔ s.AsksKey := by
  rw [asksKey_iff, List.length_pos_iff_exists_mem]
  unfold polls
  simp [List.mem_filter]

theorem polls_of_fetch_status (s : ArchState σ) (h : s.pc = 0xFE00) : s.polls = [⟨s, s.pc⟩] := by
  have hpolls : (⟨s, s.pc⟩ : Reading σ).Polls := h
  unfold polls stepReadings
  rw [s.readings_of_fetch_status h, List.filter_cons_of_pos (by simp [hpolls]), List.filter_nil]

theorem polls_length_le (s : ArchState σ) : s.polls.length ≤ 1 := by
  rcases s.polls_cases with hnone | ⟨reading, hone, -⟩
  · rw [hnone]
    exact Nat.zero_le 1
  · rw [hone]
    exact Nat.le_refl 1

end ArchState

namespace Machine

open ArchState

variable {σ : Type} [Console σ]

theorem readsAtMost_service (m : Machine) (console : σ) (routine : TrapRoutine) :
    Dialogue.ReadsAtMost (if routine.Reads then 1 else 0) (m.service console routine) :=
  routine.readsAtMost_serve _ _

theorem prompt_service (m : Machine) (console : σ) (routine : TrapRoutine) :
    Dialogue.Prompt (m.service console routine) := routine.prompt_serve _ _

/-- A step makes the calls of its poll or those of the trap routine that it runs. -/
theorem step_calls_cases (m : Machine) (console : σ) (hrunning : m.status = .running) :
    m.step.transcript console = (of m console).polls.flatMap Reading.calls ∨
      ∃ routine, (of m console).fetch.1.Invokes routine ∧ (of m console).polls = [] ∧
        m.step.transcript console =
          (m.service console routine).run.transcript (of m console).fetch.2.console := by
  have hpolls : (of m console).stepReadings.flatMap Reading.calls =
      (of m console).polls.flatMap Reading.calls := Reading.flatMap_calls _
  cases m.step_cases console hrunning with
  | row hword hcalls | refused fault hword hcalls =>
      rw [hpolls] at hcalls
      exact Or.inl hcalls
  | served routine _ _ hword | failed routine _ _ hword =>
      have hnone := ((of m console).stepReadings_of_invokes hword).1
      exact Or.inr ⟨routine, hword, hnone, (m.step_of_invokes console hrunning hword).1⟩

/-- A step asks for a key as often as it polls. -/
theorem countP_isPoll_step (m : Machine) (console : σ) (hrunning : m.status = .running) :
    (m.step.transcript console).countP ConsoleCall.isPoll = (of m console).polls.length := by
  rcases m.step_calls_cases console hrunning with hcalls | ⟨routine, -, hnone, hcalls⟩
  · rw [hcalls]
    rcases (of m console).polls_cases with hnone | ⟨reading, hone, hpolls, -⟩
    · rw [hnone]
      rfl
    · rw [hone, List.flatMap_singleton]
      exact (Reading.calls_eq_of_polls hpolls).1
  · rw [hcalls, hnone]
    exact (m.readsAtMost_service console routine σ _).1

theorem countP_isRead_step (m : Machine) (console : σ) (hrunning : m.status = .running) :
    (m.step.transcript console).countP ConsoleCall.isRead ≤ 1 := by
  rcases m.step_calls_cases console hrunning with hcalls | ⟨routine, -, -, hcalls⟩
  · rw [hcalls]
    rcases (of m console).polls_cases with hnone | ⟨reading, hone, hpolls, -⟩
    · rw [hnone]
      exact Nat.zero_le 1
    · rw [hone, List.flatMap_singleton]
      exact (Reading.calls_eq_of_polls hpolls).2.1
  · rw [hcalls]
    refine Nat.le_trans (m.readsAtMost_service console routine σ _).2 ?_
    split <;> omega

/-- A byte is read when the step was told of a key, or by a routine that takes input. -/
theorem before_read_step (m : Machine) (console : σ) (hrunning : m.status = .running)
    {before later : List ConsoleCall} {answer : Except ConsoleError UInt8}
    (h : m.step.transcript console = before ++ .readChar answer :: later) :
    before = [.keyAvailable true] ∨
      (of m console).fetch.1.Invokes .getc ∨ (of m console).fetch.1.Invokes .input := by
  rcases m.step_calls_cases console hrunning with hcalls | ⟨routine, hword, -, hcalls⟩
  · refine Or.inl ?_
    rw [hcalls] at h
    rcases (of m console).polls_cases with hnone | ⟨reading, hone, hpolls, -⟩
    · rw [hnone] at h
      simp at h
    · rw [hone, List.flatMap_singleton] at h
      exact (Reading.calls_eq_of_polls hpolls).2.2 before answer later h
  · refine Or.inr ?_
    by_cases hreads : routine.Reads
    · rcases hreads with rfl | rfl
      · exact Or.inl hword
      · exact Or.inr hword
    · -- the other routines do not wait
      have hservice := m.readsAtMost_service console routine
      rw [if_neg hreads] at hservice
      have hquiet := hservice.no_waits (of m console).fetch.2.console (.readChar answer)
      rw [← hcalls, h] at hquiet
      cases hquiet (by simp)

/-- Nothing is unflushed when a step waits, and nothing is left unflushed by a step
that does not fail. -/
theorem prompt_step (m : Machine) (console : σ) :
    FlushedAtWaits (m.step.transcript console) ∧
      ∀ status, (m.step.hold console).1.result = .ok status →
        unflushed (m.step.transcript console) = [] := by
  have hreadings : ∀ call ∈ (of m console).stepReadings.flatMap Reading.calls,
      call.waits = true := by
    intro call hcall
    obtain ⟨reading, -, hmem⟩ := List.mem_flatMap.mp hcall
    exact Reading.waits_of_mem_calls hmem
  cases hstatus : m.status with
  | halted =>
      rw [m.step_halted hstatus]
      exact ⟨.of_waits (List.forall_mem_nil _), fun _ _ => rfl⟩
  | running =>
      cases m.step_cases console hstatus with
      | row hword hcalls | refused fault hword hcalls =>
          rw [hcalls]
          exact ⟨.of_waits hreadings, fun _ _ => unflushed_of_waits hreadings⟩
      | served routine effect console' hword _ hserved =>
          obtain ⟨hwaits, hflushed⟩ := m.prompt_service console routine σ (of m console).fetch.2.console
          rw [(m.step_of_invokes console hstatus hword).1]
          exact ⟨hwaits, fun _ _ => hflushed effect (congrArg Prod.fst hserved)⟩
      | failed routine cause console' hword _ _ hresult =>
          obtain ⟨hwaits, -⟩ := m.prompt_service console routine σ (of m console).fetch.2.console
          rw [(m.step_of_invokes console hstatus hword).1, hresult]
          exact ⟨hwaits, fun _ h => by cases h⟩

/-- What a step at the keyboard's status cell does if the poll finds no key. -/
theorem step_at_status_of_noKey (m : Machine) (console : σ) (hrunning : m.status = .running)
    (hpc : (of m console).pc = 0xFE00) (hkey : (askKey console).1 = none) :
    (m.step.hold console).1.result = .ok .running ∧
      of (m.step.hold console).1.machine (m.step.hold console).2 =
        { of m console with
          pc := 0xFE01
          cell := Function.update (of m console).cell 0xFE00 0
          console := (askKey console).2 } := by
  have hfetch : (of m console).fetch =
      (0, { of m console with
        pc := 0xFE01
        cell := Function.update (of m console).cell 0xFE00 0
        console := (askKey console).2 }) := by
    unfold ArchState.fetch
    rw [hpc, load_keyboardStatus, show (of m console).console = console from rfl, hkey]
    rfl
  have hrow : (of m console).fetch.1.HasRow := by
    rw [hfetch]
    show (0 : Word).HasRow
    exact ⟨by decide, by decide, by decide⟩
  refine ⟨m.step_result_of_hasRow console hrunning hrow, ?_⟩
  -- the word 0 is a branch on no condition
  have hnever : ∀ s : ArchState σ, s.row 0 = s := by
    intro s
    have hbranches : s.branches 0 = false := by
      unfold branches
      rcases s.condition with _ | (_ | _ | _) <;> rfl
    show (if s.branches 0 then s.goto _ else s) = s
    rw [hbranches]
    rfl
  rw [m.of_step_of_hasRow console hrunning hrow, hfetch]
  exact hnever _

/-- What a step at the keyboard's status cell does if the poll finds a key. -/
theorem step_at_status_of_key (m : Machine) (console : σ) (hrunning : m.status = .running)
    (hpc : (of m console).pc = 0xFE00) {byte : UInt8} (hkey : (askKey console).1 = some byte) :
    (m.step.hold console).1.result = .error (.reservedOpcode .rti 0x8000 0xFE00) ∧
      of (m.step.hold console).1.machine (m.step.hold console).2 =
        { of m console with
          pc := 0xFE01
          cell := Function.update (Function.update (of m console).cell 0xFE00 0x8000) 0xFE02
            byte.toUInt16
          status := .halted
          console := (m.step.hold console).2 } := by
  have hfetch : (of m console).fetch =
      (0x8000, { of m console with
        pc := 0xFE01
        cell := Function.update (Function.update (of m console).cell 0xFE00 0x8000) 0xFE02
          byte.toUInt16
        console := (askKey console).2 }) := by
    unfold ArchState.fetch
    rw [hpc, load_keyboardStatus, show (of m console).console = console from rfl, hkey]
    rfl
  have hresult : (m.step.hold console).1.result = .error (.reservedOpcode .rti 0x8000 0xFE00) := by
    refine (m.step_result_error_iff console hrunning _).mpr ?_
    rw [hfetch, show m.registers.pc = 0xFE00 from hpc]
    exact .rti (show (0x8000 : Word).bits 15 12 = 0x8 by decide)
  refine ⟨hresult, ?_⟩
  rw [m.of_step_of_error console hrunning hresult, hfetch]

/-- A step asks for a key at most once, and does so exactly if it reads from the
keyboard's status cell; it reads at most once, after it was told of a key or in a
routine that takes input.  At the status cell itself, whatever is stored there, a
step without a key only goes on to the next cell, and one with a key refuses it. -/
theorem step_asks_once (m : Machine) (console : σ) (hrunning : m.status = .running) :
    let before := of m console
    let calls := m.step.transcript console
    let result := (m.step.hold console).1.result
    let after := of (m.step.hold console).1.machine (m.step.hold console).2
    calls.countP ConsoleCall.isPoll ≤ 1 ∧ calls.countP ConsoleCall.isRead ≤ 1 ∧
      ((∃ answer, ConsoleCall.keyAvailable answer ∈ calls) ↔ before.AsksKey) ∧
      (∀ earlier answer later, calls = earlier ++ .readChar answer :: later →
        earlier = [.keyAvailable true] ∨
          before.fetch.1.Invokes .getc ∨ before.fetch.1.Invokes .input) ∧
      (before.pc = 0xFE00 →
        ((calls = [.keyAvailable false] ∨
              ∃ cause, calls = [.keyAvailable true, .readChar (.error cause)]) ∧
            result = .ok .running ∧
            after =
              { before with
                pc := 0xFE01
                cell := Function.update before.cell 0xFE00 0
                console := after.console }) ∨
          ∃ byte, calls = [.keyAvailable true, .readChar (.ok byte)] ∧
            result = .error (.reservedOpcode .rti 0x8000 0xFE00) ∧
            after =
              { before with
                pc := 0xFE01
                cell := Function.update (Function.update before.cell 0xFE00 0x8000) 0xFE02
                  byte.toUInt16
                status := .halted
                console := after.console }) := by
  intro before calls result after
  have hasked : calls.countP ConsoleCall.isPoll = before.polls.length :=
    m.countP_isPoll_step console hrunning
  refine ⟨?_, m.countP_isRead_step console hrunning, ?_,
    fun _ _ _ => m.before_read_step console hrunning, ?_⟩
  · rw [hasked]
    exact before.polls_length_le
  · rw [← polls_ne_nil_iff, ← hasked, List.countP_pos_iff]
    constructor
    · rintro ⟨answer, hmem⟩
      exact ⟨_, hmem, rfl⟩
    · rintro ⟨call, hmem, hpoll⟩
      cases call with
      | keyAvailable answer => exact ⟨answer, hmem⟩
      | readChar _ | writeChar _ _ | flush _ => cases hpoll
  · intro hpc
    have hpolls : (⟨before, before.pc⟩ : Reading σ).Polls := hpc
    have hcalls : calls = (⟨before, before.pc⟩ : Reading σ).calls := by
      rcases m.step_calls_cases console hrunning with hcalls | ⟨routine, hword, -⟩
      · rw [polls_of_fetch_status _ hpc, List.flatMap_singleton] at hcalls
        exact hcalls
      · exact absurd hpc (pc_ne_of_invokes _ hword)
    have hkey : (⟨before, before.pc⟩ : Reading σ).key? = (askKey console).1 := if_pos hpolls
    rcases Reading.calls_of_polls hpolls with ⟨hnone, hasks⟩ | ⟨byte, hsome, hasks⟩
    · obtain ⟨hresult, hafter⟩ := m.step_at_status_of_noKey console hrunning hpc (hkey ▸ hnone)
      refine Or.inl ⟨by rw [hcalls]; exact hasks, hresult, ?_⟩
      rw [show after = _ from hafter]
    · obtain ⟨hresult, hafter⟩ := m.step_at_status_of_key console hrunning hpc (hkey ▸ hsome)
      exact Or.inr ⟨byte, by rw [hcalls]; exact hasks, hresult, hafter⟩

/-- A machine that is to execute the status cell, in which a `HALT` is stored. -/
def atStatusCell : Machine := (initial.write 0xFE00 0xF025).jump 0xFE00

/-- The key is taken, and what it leaves in the cell is refused. -/
theorem step_asks_once_atStatusCell :
    let console := Buffer.ofInput [0x6B]
    atStatusCell.status = .running ∧ (of atStatusCell console).pc = 0xFE00 ∧
      (atStatusCell.step.transcript console).countP ConsoleCall.isRead ≤ 1 ∧
      ∃ byte, atStatusCell.step.transcript console = [.keyAvailable true, .readChar (.ok byte)] ∧
        (atStatusCell.step.hold console).1.result =
          .error (.reservedOpcode .rti 0x8000 0xFE00) := by
  intro console
  obtain ⟨-, hreads, -, -, hstatus⟩ := step_asks_once atStatusCell console rfl
  refine ⟨rfl, rfl, hreads, ?_⟩
  rcases hstatus rfl with ⟨-, hresult, -⟩ | ⟨byte, hcalls, hresult, -⟩
  · -- the console has a key
    have hkey : (askKey console).1 = some 0x6B := rfl
    rw [(step_at_status_of_key atStatusCell console rfl rfl hkey).1] at hresult
    cases hresult
  · exact ⟨byte, hcalls, hresult⟩

end Machine

end Lc3
