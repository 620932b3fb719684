import Lc3.Text.Blank

/-!
# Settings

Two settings are taken from the environment and the command line, once.  They
cannot be read before that and not be taken again.
-/

namespace Lc3

/-- The variables that the settings are taken from; absent ones are unset. -/
structure Environment where
  /-- The value of `LCVM_MINIMAL`. -/
  minimal : Option String
  /-- The value of `LCVM_POLL_MS`. -/
  pollMillis : Option String

/-- The variables in an environment given by names and values. -/
def Environment.ofLookup (lookup : String → Option String) : Environment where
  minimal := lookup "LCVM_MINIMAL"
  pollMillis := lookup "LCVM_POLL_MS"

/-- How the machine reports and how long it waits for a key. -/
structure Settings where
  /-- Whether the machine writes nothing of its own. -/
  minimal : Bool
  /-- How long a question for a key may wait, in milliseconds. -/
  pollMillis : Nat
  deriving DecidableEq

namespace Settings

/-- The waiting time if none is given. -/
def defaultPollMillis : Nat := 10

/-- The value of decimal digits; there has to be one at least. -/
def natOfDigits? (digits : List Char) : Option Nat :=
  if digits.isEmpty || !digits.all Char.isDigit then none
  else some (digits.foldl (fun value c => value * 10 + (c.toNat - '0'.toNat)) 0)

/-- The first number that does not fit in 64 bits. -/
def numberLimit : Nat := 0x10000000000000000

/-- A number of at most 64 bits, written in decimal after at most one plus sign. -/
def parseNumber? (text : List Char) : Option Nat :=
  let digits := match text with
    | '+' :: rest => rest
    | text => text
  (natOfDigits? digits).filter (· < numberLimit)

/-- The waiting time that a variable gives. -/
def pollMillisOf (value : Option String) : Nat :=
  match value with
  | none => defaultPollMillis
  | some text => (parseNumber? (Text.trimBlanks text.toList)).getD defaultPollMillis

/-- The settings from the command line's `minimal` and the environment. -/
def ofEnvironment (minimal : Bool) (environment : Environment) : Settings where
  minimal := minimal || environment.minimal == some "1"
  pollMillis := pollMillisOf environment.pollMillis

end Settings

/-- A use of the settings that their state does not allow. -/
inductive SettingsError
  | alreadyTaken
  | notTaken
  deriving DecidableEq

/-- The text of the error. -/
def SettingsError.message : SettingsError → String
  | alreadyTaken => "tried to initialize environment state multiple times"
  | notTaken => "tried to access environment state before initialization"

/-- Settings that are taken at most once. -/
structure SettingsStore where
  taken : Option Settings

/-- A use of the settings. -/
inductive SettingsCall
  /-- Take the settings, with the command line's `minimal`. -/
  | take (minimal : Bool)
  | isMinimal
  | pollMillis
  deriving DecidableEq

/-- The answer to a use of the settings. -/
inductive SettingsAnswer
  | taken
  | isMinimal (value : Bool)
  | pollMillis (value : Nat)
  deriving DecidableEq

namespace SettingsStore

/-- No settings have been taken. -/
def empty : SettingsStore := ⟨none⟩

/-- The answer to a call, and the store after it.  A call that fails changes
nothing. -/
def call (environment : Environment) (store : SettingsStore) :
    SettingsCall → Except SettingsError SettingsAnswer × SettingsStore
  | .take minimal =>
      match store.taken with
      | none => (.ok .taken, ⟨some (.ofEnvironment minimal environment)⟩)
      | some _ => (.error .alreadyTaken, store)
  | .isMinimal =>
      match store.taken with
      | none => (.error .notTaken, store)
      | some settings => (.ok (.isMinimal settings.minimal), store)
  | .pollMillis =>
      match store.taken with
      | none => (.error .notTaken, store)
      | some settings => (.ok (.pollMillis settings.pollMillis), store)

/-- The answers to calls in order. -/
def answers (environment : Environment) (store : SettingsStore) :
    List SettingsCall → List (Except SettingsError SettingsAnswer)
  | [] => []
  | call :: rest =>
      let (answer, store) := store.call environment call
      answer :: store.answers environment rest

end SettingsStore

end Lc3
