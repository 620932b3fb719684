import Lc3.Proofs.Settings.WaitingTime

/-!
# Settings are taken once

What uses of the settings are answered, in any order.  Only the first call that takes
them has an effect: it fixes what all later reads are answered.  A read before it and a
second attempt to take them are refused, and a refused call might as well not have been
made.
-/

namespace Lc3

/-- The command line's `minimal` that the settings are taken with, if a call takes them. -/
def SettingsCall.firstTaken : List SettingsCall → Option Bool
  | [] => none
  | .take minimal :: _ => some minimal
  | .isMinimal :: rest | .pollMillis :: rest => firstTaken rest

namespace SettingsStore

open SettingsCall (firstTaken)

/-- How a call is answered after the settings have been taken with a value of the command
line's `minimal`, or before. -/
inductive Answered (environment : Environment) :
    Option Bool → SettingsCall → Except SettingsError SettingsAnswer → Prop
  | taken (minimal : Bool) : Answered environment none (.take minimal) (.ok .taken)
  | tooEarly {call : SettingsCall} {error : SettingsError}
      (hreads : ∀ minimal, call ≠ .take minimal)
      (hmessage : error.message = "tried to access environment state before initialization") :
      Answered environment none call (.error error)
  | tooLate {given : Bool} (minimal : Bool) {error : SettingsError}
      (hmessage : error.message = "tried to initialize environment state multiple times") :
      Answered environment (some given) (.take minimal) (.error error)
  | isMinimal {given value : Bool}
      (hvalue : value = true ↔ given = true ∨ environment.minimal = some "1") :
      Answered environment (some given) .isMinimal (.ok (.isMinimal value))
  | pollMillis {given : Bool} {n : Nat} (hwaits : Settings.WaitsFor environment.pollMillis n) :
      Answered environment (some given) .pollMillis (.ok (.pollMillis n))

variable (environment : Environment)

/-- The store after calls in order. -/
def afterCalls (store : SettingsStore) (calls : List SettingsCall) : SettingsStore :=
  calls.foldl (fun store call => (store.call environment call).2) store

/-- The store whose settings have been taken with a value of the command line's
`minimal`, or not yet. -/
def takenWith (given : Option Bool) : SettingsStore :=
  ⟨given.map fun minimal => .ofEnvironment minimal environment⟩

theorem answers_cons (store : SettingsStore) (call : SettingsCall) (rest : List SettingsCall) :
    store.answers environment (call :: rest) =
      (store.call environment call).1 :: (store.call environment call).2.answers environment rest :=
  rfl

theorem answers_append (store : SettingsStore) (first second : List SettingsCall) :
    store.answers environment (first ++ second) =
      store.answers environment first ++
        (store.afterCalls environment first).answers environment second := by
  induction first generalizing store with
  | nil => rfl
  | cons call rest ih =>
      rw [List.cons_append, answers_cons, answers_cons, ih, List.cons_append]
      rfl

theorem length_answers (store : SettingsStore) (calls : List SettingsCall) :
    (store.answers environment calls).length = calls.length := by
  induction calls generalizing store with
  | nil => rfl
  | cons call rest ih => rw [answers_cons, List.length_cons, List.length_cons, ih]

/-- A refused call changes nothing. -/
theorem call_store_of_error {store : SettingsStore} {call : SettingsCall} {error : SettingsError}
    (h : (store.call environment call).1 = .error error) :
    (store.call environment call).2 = store := by
  rcases store with ⟨_ | settings⟩
  · cases call with
    | take minimal => cases h
    | isMinimal | pollMillis => rfl
  · cases call with
    | take minimal | isMinimal | pollMillis => rfl

theorem call_takenWith (given : Option Bool) (call : SettingsCall) :
    ((takenWith environment given).call environment call).2 =
      takenWith environment (given.or (firstTaken [call])) := by
  cases given <;> cases call <;> rfl

/-- The first call that takes the settings decides them. -/
theorem afterCalls_takenWith (given : Option Bool) (calls : List SettingsCall) :
    (takenWith environment given).afterCalls environment calls =
      takenWith environment (given.or (firstTaken calls)) := by
  induction calls generalizing given with
  | nil =>
      rw [firstTaken, Option.or_none]
      rfl
  | cons call rest ih =>
      have hfirst : firstTaken (call :: rest) = (firstTaken [call]).or (firstTaken rest) := by
        cases call <;> rfl
      rw [hfirst, ← Option.or_assoc, ← ih, ← call_takenWith]
      rfl

theorem afterCalls_empty (calls : List SettingsCall) :
    empty.afterCalls environment calls = takenWith environment (firstTaken calls) := by
  have h := afterCalls_takenWith environment none calls
  rw [Option.none_or] at h
  exact h

theorem message_eq_notTaken_iff (error : SettingsError) :
    error.message = "tried to access environment state before initialization" ↔
      error = .notTaken := by
  cases error <;> decide

theorem message_eq_alreadyTaken_iff (error : SettingsError) :
    error.message = "tried to initialize environment state multiple times" ↔
      error = .alreadyTaken := by
  cases error <;> decide

theorem ofEnvironment_minimal_iff (given : Bool) :
    (Settings.ofEnvironment given environment).minimal = true ↔
      given = true ∨ environment.minimal = some "1" := by
  simp [Settings.ofEnvironment]

/-- A call has one answer only, which the store gives. -/
theorem answered_iff (given : Option Bool) (call : SettingsCall)
    (reply : Except SettingsError SettingsAnswer) :
    Answered environment given call reply ↔
      ((takenWith environment given).call environment call).1 = reply := by
  constructor
  · rintro (_ | ⟨hreads, hmessage⟩ | ⟨minimal, hmessage⟩ | hvalue | hwaits)
    · rfl
    · obtain rfl := (message_eq_notTaken_iff _).mp hmessage
      cases call with
      | take minimal => exact absurd rfl (hreads minimal)
      | isMinimal | pollMillis => rfl
    · obtain rfl := (message_eq_alreadyTaken_iff _).mp hmessage
      rfl
    · rw [← ofEnvironment_minimal_iff, ← Bool.eq_iff_iff] at hvalue
      rw [hvalue]
      rfl
    · obtain rfl := (Settings.waitsFor_iff _ _).mp hwaits
      rfl
  · rintro rfl
    cases given with
    | none =>
        cases call with
        | take minimal => exact .taken minimal
        | isMinimal | pollMillis => exact .tooEarly (fun _ h => by cases h) rfl
    | some given =>
        cases call with
        | take minimal => exact .tooLate minimal rfl
        | isMinimal => exact .isMinimal (ofEnvironment_minimal_iff environment given)
        | pollMillis => exact .pollMillis ((Settings.waitsFor_iff _ _).mpr rfl)

/-- What a call is answered depends only on the first call before it that takes the
settings, and there is only one right answer.  A refused call can be left out without
changing any other answer. -/
theorem answers_taken_once (before later : List SettingsCall) (call : SettingsCall) :
    ∃ reply, (empty.answers environment (before ++ call :: later))[before.length]? = some reply ∧
      (∀ other, Answered environment (firstTaken before) call other ↔ other = reply) ∧
      ∀ error, reply = .error error →
        empty.answers environment (before ++ later) =
          (empty.answers environment (before ++ call :: later)).eraseIdx before.length := by
  have hlength := length_answers environment empty before
  have hstore := afterCalls_empty environment before
  refine ⟨((takenWith environment (firstTaken before)).call environment call).1, ?_, ?_, ?_⟩
  · rw [answers_append, List.getElem?_append_right (by omega), hlength, Nat.sub_self, answers_cons,
      hstore, List.getElem?_cons_zero]
  · intro other
    rw [answered_iff, eq_comm]
  · intro error herror
    rw [answers_append, answers_append, List.eraseIdx_append_of_length_le (by omega), hlength,
      Nat.sub_self, answers_cons, hstore, call_store_of_error environment herror,
      List.eraseIdx_cons_zero]

/-- A read before the settings are taken does not keep them from being taken. -/
example :
    empty.answers ⟨none, some " +25"⟩ [.pollMillis, .take false, .take true, .pollMillis, .isMinimal] =
      [.error .notTaken, .ok .taken, .error .alreadyTaken, .ok (.pollMillis 25),
        .ok (.isMinimal false)] := by
  decide

end SettingsStore

end Lc3
