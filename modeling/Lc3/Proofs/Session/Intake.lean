import Lc3.Proofs.Architecture.Placement
import Lc3.Proofs.Console.InputQueue
import Lc3.Proofs.Session.History

/-!
# The input of a session

`GETC`, `IN` and the polls of the keyboard take bytes from a console's queue, one
at a time, and each step takes at most one.  What the steps of a session have
taken, followed by what is still in the queue, is all input that the console has
had or was given.
-/

namespace Lc3

open QueueConsole (remaining)

namespace Reading

variable {σ : Type} [Console σ]

/-- A reading takes the key that it finds. -/
theorem received_calls (reading : Reading σ) :
    received reading.calls = reading.key?.toList := by
  by_cases h : reading.Polls
  · rcases reading.calls_of_polls h with ⟨hkey, hcalls | ⟨cause, hcalls⟩⟩ | ⟨byte, hkey, hcalls⟩ <;>
      rw [hkey, hcalls] <;> rfl
  · rw [calls_of_not_polls h, key?_of_not_polls h]
    rfl

/-- Only polls find a key. -/
theorem received_flatMap_calls (readings : List (Reading σ)) :
    received (readings.flatMap calls) = (readings.filter (·.Polls)).filterMap key? := by
  rw [flatMap_calls]
  induction readings.filter (·.Polls) with
  | nil => rfl
  | cons reading rest ih =>
      rw [List.flatMap_cons, received_append, received_calls, ih, List.filterMap_cons]
      cases reading.key? <;> rfl

/-- Only polls place anything. -/
theorem flatMap_placed (readings : List (Reading σ)) :
    readings.flatMap placed =
      (readings.filter (·.Polls)).map fun reading => .poll reading.key? := by
  induction readings with
  | nil => rfl
  | cons reading rest ih =>
      rw [List.flatMap_cons, ih]
      unfold placed
      by_cases h : reading.Polls
      · rw [if_pos h, List.filter_cons_of_pos (by simp [h])]
        rfl
      · rw [if_neg h, List.filter_cons_of_neg (by simp [h])]
        rfl

end Reading

namespace ArchState

variable {σ : Type} [Console σ]

theorem polls_eq_of_mem {s : ArchState σ} {reading : Reading σ}
    (hmem : reading ∈ s.stepReadings) (h : reading.Polls) : s.polls = [reading] := by
  have hpoll : reading ∈ s.polls := List.mem_filter.mpr ⟨hmem, by simp [h]⟩
  rcases s.polls_cases with hnone | ⟨other, hone, -⟩
  · rw [hnone] at hpoll
    cases hpoll
  · rw [hone, List.mem_singleton] at hpoll
    rw [hone, hpoll]

/-- What the readings of a step receive is the key of a poll. -/
theorem exists_poll_of_received (s : ArchState σ) {byte : UInt8}
    (h : byte ∈ received (s.stepReadings.flatMap Reading.calls)) :
    ∃ reading ∈ s.stepReadings, reading.Polls ∧ reading.value = 0x8000 := by
  rw [Reading.received_flatMap_calls, List.mem_filterMap] at h
  obtain ⟨reading, hpoll, hkey⟩ := h
  obtain ⟨hmem, hpolls⟩ := List.mem_filter.mp hpoll
  have hpolls : reading.Polls := of_decide_eq_true hpolls
  exact ⟨reading, hmem, hpolls, (Reading.value_eq_status_iff hpolls).mpr ⟨byte, hkey⟩⟩

/-- A word that is stored through a polled pointer does not go to the data cell. -/
theorem store?_ne_data {s : ArchState σ} {reading : Reading σ} (hmem : reading ∈ s.stepReadings)
    (h : reading.Polls) {target value : Word}
    (hstore : s.fetch.2.store? s.fetch.1 = some (target, value)) : target ≠ 0xFE02 := by
  have hop := (s.fetch.2.store?_isSome_iff s.fetch.1).mp (Option.isSome_iff_exists.mpr ⟨_, hstore⟩)
  rcases List.mem_cons.mp hmem with rfl | hread
  · -- the status cell holds no storing word
    exfalso
    rw [fetch_word, show s.pc = 0xFE00 from h] at hop
    rcases s.load_status_value with hvalue | hvalue <;> rw [hvalue] at hop <;> revert hop <;> decide
  · unfold readings at hread
    unfold store? at hstore
    simp only [List.mem_cons, List.not_mem_nil, or_false] at hop
    rcases hop with hop | hop | hop <;> rw [hop] at hread hstore
    · cases hread
    · cases hread
    · obtain rfl := List.mem_singleton.mp hread
      have htarget := congrArg Prod.fst (Option.some.inj hstore)
      rw [show s.fetch.2.relative (s.fetch.1.signedBits 9) = 0xFE00 from h] at htarget
      rw [← show _ = target from htarget]
      rcases s.fetch.2.load_status_value with hvalue | hvalue <;> rw [hvalue] <;> decide

end ArchState

namespace Session

open ArchState Dialogue

variable {σ : Type} [Console σ]

/-- The bytes that the next step takes. -/
def taken (s : Session σ) : List UInt8 := received s.calls

theorem taken_of_halted (s : Session σ) (h : s.machine.status = .halted) : s.taken = [] := by
  unfold taken
  rw [s.calls_of_halted h]
  rfl

/-- A step with a poll takes the key that the poll has found. -/
theorem taken_of_polls (s : Session σ) (hrunning : s.machine.status = .running)
    {reading : Reading σ} (hmem : reading ∈ s.arch.stepReadings) (h : reading.Polls) :
    s.taken = reading.key?.toList := by
  have hpolls := polls_eq_of_mem hmem h
  have hreads : received (s.arch.stepReadings.flatMap Reading.calls) = reading.key?.toList := by
    rw [Reading.received_flatMap_calls, show s.arch.stepReadings.filter _ = _ from hpolls]
    cases hkey : reading.key? <;> simp [hkey]
  have htrap : ∀ routine, ¬ s.arch.fetch.1.Invokes routine := by
    intro routine hword
    rw [(s.arch.stepReadings_of_invokes hword).1] at hpolls
    cases hpolls
  unfold taken calls
  cases s.machine.step_cases s.console hrunning with
  | row hword hcalls => rw [hcalls, ← hreads]; rfl
  | refused fault hword hcalls => rw [hcalls, ← hreads]; rfl
  | served routine effect console hword => exact absurd hword (htrap routine)
  | failed routine cause console hword => exact absurd hword (htrap routine)

/-- The data cell after a step with a poll. -/
theorem data_of_polls (s : Session σ) (hrunning : s.machine.status = .running)
    {reading : Reading σ} (hmem : reading ∈ s.arch.stepReadings) (h : reading.Polls) :
    s.step.2.arch.cell 0xFE02 =
      (reading.key?.map UInt8.toUInt16).getD (s.arch.cell 0xFE02) := by
  have hplaces : s.step.2.arch.cell 0xFE02 =
      (lastPlaced s.arch.stepPlacements 0xFE02).getD (s.arch.cell 0xFE02) :=
    s.machine.places_step s.console hrunning 0xFE02
  have hstored : lastPlaced (s.arch.fetch.2.stored s.arch.fetch.1) 0xFE02 = none := by
    unfold stored
    rcases hstore : s.arch.fetch.2.store? s.arch.fetch.1 with _ | ⟨target, value⟩
    · rfl
    · have hne := store?_ne_data hmem h hstore
      simp [hne.symm]
  have hpolls : s.arch.stepReadings.flatMap Reading.placed = [.poll reading.key?] := by
    rw [Reading.flatMap_placed, show s.arch.stepReadings.filter _ = _ from polls_eq_of_mem hmem h]
    rfl
  unfold stepPlacements at hplaces
  rw [lastPlaced_append, hstored, hpolls, lastPlaced_singleton] at hplaces
  rw [hplaces]
  cases reading.key? <;> rfl

section Trap

variable (s : Session σ) (hrunning : s.machine.status = .running) {routine : TrapRoutine}
  (hword : s.arch.fetch.1.Invokes routine)

/-- The trap routine that the next step runs, with the console as the fetch leaves it. -/
def serving (s : Session σ) (routine : TrapRoutine) : Attempt ServiceEffect :=
  s.machine.service s.console routine

include hrunning hword

theorem calls_of_invokes :
    s.calls = (s.serving routine).run.transcript s.arch.fetch.2.console :=
  (s.machine.step_of_invokes s.console hrunning hword).1

theorem register_of_invokes {byte : UInt8}
    (h : ((s.serving routine).run.hold s.arch.fetch.2.console).1 = .ok (.key byte)) :
    (∃ status, s.step.1 = .ok status) ∧ s.step.2.arch.register 0 = byte.toUInt16 := by
  obtain ⟨effect, console, hserved, hresult, hafter⟩ | ⟨cause, console, hserved, -, -⟩ :=
    (s.machine.step_of_invokes s.console hrunning hword).2
  · obtain rfl := Except.ok.inj ((congrArg Prod.fst hserved).symm.trans h)
    refine ⟨hresult, ?_⟩
    calc s.step.2.arch.register 0
        = Function.update s.arch.fetch.2.register 0 byte.toUInt16 0 :=
          congrFun (congrArg ArchState.register hafter) 0
      _ = byte.toUInt16 := Function.update_self ..
  · cases (congrArg Prod.fst hserved).symm.trans h

theorem error_of_invokes {cause : ConsoleError}
    (h : ((s.serving routine).run.hold s.arch.fetch.2.console).1 = .error cause) :
    s.step.1 = .error (.console routine s.arch.pc cause) ∧
      s.step.2.machine.status = .halted ∧ s.step.2.arch.register = s.arch.register := by
  obtain ⟨effect, console, hserved, -, -⟩ | ⟨other, console, hserved, hresult, hafter⟩ :=
    (s.machine.step_of_invokes s.console hrunning hword).2
  · cases (congrArg Prod.fst hserved).symm.trans h
  · obtain rfl := Except.error.inj ((congrArg Prod.fst hserved).symm.trans h)
    exact ⟨hresult, (congrArg ArchState.status hafter).trans rfl,
      (congrArg ArchState.register hafter).trans (load_register _ _)⟩

end Trap

/-- `GETC` takes the byte that it gives R0, or fails and takes none. -/
theorem getc_cases (s : Session σ) (hrunning : s.machine.status = .running)
    (hword : s.arch.fetch.1.Invokes .getc) :
    (∃ byte, s.taken = [byte] ∧ s.step.2.arch.register 0 = byte.toUInt16 ∧
        ∃ status, s.step.1 = .ok status) ∨
      (s.taken = [] ∧ ∃ fault, s.step.1 = .error fault) := by
  unfold taken
  rw [s.calls_of_invokes hrunning hword]
  rcases TrapRoutine.serve_getc_cases (s.arch.fetch.2.register 0)
      (s.machine.fetch.hold s.console).1.2.memory s.arch.fetch.2.console with
    ⟨byte, hreceived, hend⟩ | ⟨cause, hreceived, hend⟩
  · obtain ⟨hresult, hregister⟩ := s.register_of_invokes hrunning hword hend
    exact Or.inl ⟨byte, hreceived, hregister, hresult⟩
  · exact Or.inr ⟨hreceived, _, (s.error_of_invokes hrunning hword hend).1⟩

/-- The next step is an `IN` that takes the byte and then fails to echo it. -/
def LosesEcho (s : Session σ) (byte : UInt8) : Prop :=
  s.arch.fetch.1.Invokes .input ∧
    ∃ cause, TrapRoutine.EchoFails byte cause s.calls ∧
      s.step.1 = .error (.console .input s.arch.pc cause) ∧ s.step.2.machine.status = .halted

/-- `IN` takes the byte that it gives R0, or fails and takes none, or fails to
echo the byte that it has taken. -/
theorem input_cases (s : Session σ) (hrunning : s.machine.status = .running)
    (hword : s.arch.fetch.1.Invokes .input) :
    (∃ byte, s.taken = [byte] ∧ s.step.2.arch.register 0 = byte.toUInt16) ∨
      s.taken = [] ∨ ∃ byte, s.taken = [byte] ∧ s.LosesEcho byte := by
  have hcalls := s.calls_of_invokes hrunning hword
  unfold taken
  rw [hcalls]
  rcases TrapRoutine.serve_input_cases (s.arch.fetch.2.register 0)
      (s.machine.fetch.hold s.console).1.2.memory s.arch.fetch.2.console with
    ⟨byte, hreceived, hend⟩ | ⟨cause, hreceived, hend⟩ | ⟨byte, cause, hreceived, hend, hecho⟩
  · exact Or.inl ⟨byte, hreceived, (s.register_of_invokes hrunning hword hend).2⟩
  · exact Or.inr (Or.inl hreceived)
  · refine Or.inr (Or.inr ⟨byte, hreceived, hword, cause, ?_, ?_⟩)
    · rw [hcalls]
      exact hecho
    · obtain ⟨hresult, hhalted, -⟩ := s.error_of_invokes hrunning hword hend
      exact ⟨hresult, hhalted⟩

/-- The next step is a `GETC` that succeeds, an `IN` whose read does, or it polls the
keyboard and finds a key. -/
def FindsInput (s : Session σ) : Prop :=
  (s.arch.fetch.1.Invokes .getc ∧ ∃ status, s.step.1 = .ok status) ∨
    (s.arch.fetch.1.Invokes .input ∧ ∃ byte, ConsoleCall.readChar (.ok byte) ∈ s.calls) ∨
    ∃ reading ∈ s.arch.stepReadings, reading.Polls ∧ reading.value = 0x8000

/-- How the next step takes input: `GETC` if it succeeds, `IN` if its read does, and
a poll if it finds a key. -/
structure Intake (s : Session σ) : Prop where
  getc : s.arch.fetch.1.Invokes .getc → (∃ status, s.step.1 = .ok status) →
    ∃ byte, s.taken = [byte] ∧ s.step.2.arch.register 0 = byte.toUInt16
  input : s.arch.fetch.1.Invokes .input →
    ∀ byte, ConsoleCall.readChar (.ok byte) ∈ s.calls → s.taken = [byte]
  key : ∀ reading ∈ s.arch.stepReadings, reading.Polls → reading.value = 0x8000 →
    ∃ byte, s.taken = [byte] ∧ s.step.2.arch.cell 0xFE02 = byte.toUInt16
  noKey : ∀ reading ∈ s.arch.stepReadings, reading.Polls → reading.value ≠ 0x8000 →
    reading.value = 0 ∧ s.taken = [] ∧ s.step.2.arch.cell 0xFE02 = s.arch.cell 0xFE02
  source : s.taken ≠ [] → s.FindsInput

/-- A trap routine that takes input is `GETC` or `IN`. -/
theorem findsInput_of_invokes (s : Session σ) (hrunning : s.machine.status = .running)
    {routine : TrapRoutine} (hword : s.arch.fetch.1.Invokes routine) {byte : UInt8}
    (h : byte ∈ s.taken) : s.FindsInput := by
  by_cases hgetc : routine = .getc
  · subst hgetc
    rcases s.getc_cases hrunning hword with ⟨_, -, -, hresult⟩ | ⟨hnone, -⟩
    · exact Or.inl ⟨hword, hresult⟩
    · rw [hnone] at h
      cases h
  · by_cases hinput : routine = .input
    · subst hinput
      exact Or.inr (Or.inl ⟨hword, byte, mem_received.mp h⟩)
    · have hnone : s.taken = [] := by
        unfold taken
        rw [s.calls_of_invokes hrunning hword]
        exact TrapRoutine.received_serve hgetc hinput _ _ _
      rw [hnone] at h
      cases h

theorem findsInput_of_taken (s : Session σ) (hrunning : s.machine.status = .running)
    {byte : UInt8} (h : byte ∈ s.taken) : s.FindsInput := by
  have hbyte : byte ∈ received s.calls := h
  unfold calls at hbyte
  cases s.machine.step_cases s.console hrunning with
  | row hword hcalls | refused fault hword hcalls =>
      rw [hcalls] at hbyte
      exact Or.inr (Or.inr (exists_poll_of_received s.arch hbyte))
  | served routine effect console hword | failed routine cause console hword =>
      exact s.findsInput_of_invokes hrunning hword h

theorem intake (s : Session σ) (hrunning : s.machine.status = .running) : s.Intake where
  getc hword hok := by
    rcases s.getc_cases hrunning hword with ⟨byte, htaken, hregister, -⟩ | ⟨-, fault, hfault⟩
    · exact ⟨byte, htaken, hregister⟩
    · obtain ⟨status, hresult⟩ := hok
      rw [hfault] at hresult
      cases hresult
  input hword byte hread := by
    have hbyte : byte ∈ s.taken := mem_received.mpr hread
    rcases s.input_cases hrunning hword with ⟨_, htaken, -⟩ | htaken | ⟨_, htaken, -⟩ <;>
      rw [htaken] at hbyte ⊢
    · rw [List.mem_singleton.mp hbyte]
    · cases hbyte
    · rw [List.mem_singleton.mp hbyte]
  key reading hmem hpolls hvalue := by
    obtain ⟨byte, hkey⟩ := (Reading.value_eq_status_iff hpolls).mp hvalue
    refine ⟨byte, ?_, ?_⟩
    · rw [s.taken_of_polls hrunning hmem hpolls, hkey]
      rfl
    · rw [s.data_of_polls hrunning hmem hpolls, hkey]
      rfl
  noKey reading hmem hpolls hvalue := by
    have hkey : reading.key? = none := by
      cases hkey : reading.key? with
      | none => rfl
      | some byte => exact absurd ((Reading.value_eq_status_iff hpolls).mpr ⟨byte, hkey⟩) hvalue
    refine ⟨?_, ?_, ?_⟩
    · rw [Reading.value_of_polls hpolls, hkey]
      rfl
    · rw [s.taken_of_polls hrunning hmem hpolls, hkey]
      rfl
    · rw [s.data_of_polls hrunning hmem hpolls, hkey]
      rfl
  source h := by
    obtain ⟨byte, hbyte⟩ := List.exists_mem_of_ne_nil _ h
    exact s.findsInput_of_taken hrunning hbyte

/-- The next step passes the byte on to the program: a trap routine in R0, a poll in
the keyboard's data cell. -/
def Delivers (s : Session σ) (byte : UInt8) : Prop :=
  ((s.arch.fetch.1.Invokes .getc ∨ s.arch.fetch.1.Invokes .input) ∧
      s.step.2.arch.register ArchState.r0 = byte.toUInt16) ∨
    ((∃ reading ∈ s.arch.stepReadings, reading.Polls) ∧
      s.step.2.arch.cell 0xFE02 = byte.toUInt16)

/-- A byte is passed on, or it is lost by an `IN` that fails to echo it. -/
theorem delivers_or_losesEcho (s : Session σ) (hrunning : s.machine.status = .running)
    {byte : UInt8} (h : byte ∈ s.taken) : s.Delivers byte ∨ s.LosesEcho byte := by
  rcases s.findsInput_of_taken hrunning h with
    ⟨hword, hok⟩ | ⟨hword, -⟩ | ⟨reading, hmem, hpolls, hvalue⟩
  · obtain ⟨taken, htaken, hregister⟩ := (s.intake hrunning).getc hword hok
    rw [htaken, List.mem_singleton] at h
    rw [← h] at hregister
    exact Or.inl (Or.inl ⟨Or.inl hword, hregister⟩)
  · rcases s.input_cases hrunning hword with
      ⟨taken, htaken, hregister⟩ | htaken | ⟨taken, htaken, hlost⟩ <;> rw [htaken] at h
    · rw [← List.mem_singleton.mp h] at hregister
      exact Or.inl (Or.inl ⟨Or.inr hword, hregister⟩)
    · cases h
    · rw [← List.mem_singleton.mp h] at hlost
      exact Or.inr hlost
  · obtain ⟨taken, htaken, hdata⟩ := (s.intake hrunning).key reading hmem hpolls hvalue
    rw [htaken, List.mem_singleton] at h
    rw [← h] at hdata
    exact Or.inl (Or.inr ⟨⟨reading, hmem, hpolls⟩, hdata⟩)

end Session

end Lc3
