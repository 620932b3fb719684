import Lc3.Console.Device
import Lc3.Image.Stream
import Lc3.Machine.Step

/-!
# Sessions

A session is a machine with its console and, if one is kept, the log so far.
Images are loaded into it and it is run, one step at a time or until it stops.
-/

namespace Lc3

/-- The records of a session in order, or nothing if no log is kept. -/
abbrev Log := Option (Array Record)

/-- The log after one more record. -/
def Log.add (log : Log) (record : Record) : Log := log.map (·.push record)

/-- The log after more records. -/
def Log.addAll (log : Log) (records : List Record) : Log := log.map (· ++ records)

/-- A machine, its console and the log. -/
structure Session (σ : Type) where
  machine : Machine
  console : σ
  log : Log

namespace Session

variable {σ : Type}

/-- A new machine at a console, without a log. -/
def start (console : σ) : Session σ where
  machine := .initial
  console := console
  log := none

/-- The session with a new log. -/
def logged (session : Session σ) : Session σ := { session with log := some #[] }

/-- Add a record to the log. -/
def note (session : Session σ) (record : Record) : Session σ :=
  { session with log := session.log.add record }

/-- Place an image in memory. -/
def loadImage (session : Session σ) (image : Image) : Session σ :=
  let ⟨⟨memory, registers, status⟩, console, log⟩ := session
  { machine :=
      { memory := image.placeInto memory
        registers := registers
        status := status }
    console := console
    log := log.add (.loading image.words.length image.origin) }

/-- Load the image that a stream delivers.  A stream that delivers no image
changes nothing. -/
def load (session : Session σ) (stream : ByteStream) : Except LoadError Unit × Session σ :=
  match Image.ofStream stream with
  | .ok image => (.ok (), session.loadImage image)
  | .error error => (.error error, session)

variable [Console σ]

/-- Make one step. -/
def step (session : Session σ) : Except Fault Status × Session σ :=
  let ⟨machine, console, log⟩ := session
  let (⟨machine, result, records⟩, console) := machine.step.hold console
  (result, { machine := machine, console := console, log := log.addAll records })

end Session

/-- A session after some steps in a row, with the result of the last one. -/
structure Progress (σ : Type) where
  session : Session σ
  steps : Nat
  last : Option (Except Fault Status)

namespace Progress

variable {σ : Type} [Console σ]

/-- Before the first step. -/
def start (session : Session σ) : Progress σ where
  session := session
  steps := 0
  last := none

/-- Make one more step. -/
def step (progress : Progress σ) : Progress σ :=
  let ⟨session, steps, _⟩ := progress
  let (result, session) := session.step
  { session := session
    steps := steps + 1
    last := some result }

/-- Whether the last step has left the machine running. -/
def isRunning (progress : Progress σ) : Bool :=
  match progress.last with
  | some (.ok .running) => true
  | _ => false

/-- Make steps while the machine runs, at most `limit` of them. -/
def advance (progress : Progress σ) : Nat → Progress σ
  | 0 => progress
  | limit + 1 =>
      let progress := progress.step
      if progress.isRunning then progress.advance limit else progress

end Progress

namespace Session

variable {σ : Type} [Console σ]

/-- Run until the program halts or faults, within `limit` steps.  There is no
result if the limit was too low. -/
def run (session : Session σ) (limit : Nat) : Option (Except Fault Unit) × Session σ :=
  let session := session.note (.runningFrom session.machine.registers.pc)
  let ⟨session, _, last⟩ := (Progress.start session).advance limit
  match last with
  | some (.ok .halted) =>
      (some (.ok ()), session.note (.haltedAt session.machine.registers.pc))
  | some (.error fault) => (some (.error fault), session)
  | _ => (none, session)

end Session

end Lc3
