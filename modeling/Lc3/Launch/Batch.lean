import Lc3.Console.Piped
import Lc3.Image.File
import Lc3.Launch.Expansion
import Lc3.Launch.Libraries
import Lc3.Session
import Lc3.Settings

/-!
# Launching a batch of images

All images are opened before the machine starts, and it starts only if each of
them is good.  They are loaded in order into a new machine, which then runs on
the standard input.
-/

namespace Lc3.Launch

/-- What the file system gives for globs and for paths. -/
structure Files where
  globbed : Matches
  read : String → Except SystemError (List UInt8)

/-- How messages are shown. -/
structure Display where
  minimal : Bool
  paint : Colour → Nat → String → String

/-- The width of the word that begins a message. -/
def messageWidth : Nat := 12

namespace Display

/-- A line on the standard output; nothing if output is minimal. -/
def message (display : Display) (colour : Colour) (left right : String) : String :=
  if display.minimal then ""
  else display.paint colour messageWidth left ++ " " ++ right ++ "\n"

/-- A line about an image file. -/
def fileMessage (display : Display) (colour : Colour) (left path : String) : String :=
  display.message colour left ("image " ++ path)

end Display

/-- The images of a batch, with the messages and the records of opening them. -/
structure Preparation where
  output : String
  records : List Record
  images : Except LoadError (List Image)

/-- Open images in order, up to the first bad one.  Each is announced before it
is opened. -/
def openImages (display : Display) (files : Files) : List String → Preparation
  | [] => ⟨"", [], .ok []⟩
  | path :: rest =>
      let line := display.fileMessage .green "Loading" path
      match Image.ofFile path (files.read path) with
      | .error error => ⟨line, [], .error error⟩
      | .ok image =>
          let ⟨lines, records, images⟩ := openImages display files rest
          ⟨line ++ lines, image.readRecord path :: records, images.map (image :: ·)⟩

/-- Expand the arguments and open all images. -/
def prepare (display : Display) (files : Files) (arguments : List String) : Preparation :=
  match expand files.globbed arguments with
  | .error error => ⟨"", [], .error error⟩
  | .ok paths => openImages display files paths

/-- The bytes of a text. -/
def bytesOf (text : String) : Array UInt8 := text.toUTF8.data

/-- The exit status after a load error. -/
def loadErrorStatus : Nat := 1

/-- The exit status after a fault of the running program. -/
def faultStatus : Nat := 3

namespace Libraries

/-- What the log shows of these records. -/
def logText (libraries : Libraries) (records : List Record) : String :=
  libraries.logger.elim "" fun text => text records

/-- The log that holds these records, if a log is kept. -/
def logOf (libraries : Libraries) (records : List Record) : Log :=
  libraries.logger.map fun _ => records.toArray

end Libraries

/-- A batch whose images are all good. -/
structure Batch where
  libraries : Libraries
  display : Display
  /-- The messages before the run. -/
  output : String
  /-- The records before the machine is made. -/
  records : List Record
  images : List Image

/-- Open the images of a batch in an environment given by names and values.  The first
error ends the process. -/
def ready (libraries : Libraries) (lookup : String → Option String) (files : Files)
    (arguments : Arguments) : Except Ending Batch :=
  let settings := Settings.ofEnvironment arguments.minimal (.ofLookup lookup)
  let display : Display := ⟨settings.minimal, libraries.paint⟩
  let ⟨output, records, images⟩ := prepare display files arguments.images
  match images with
  | .error error =>
      .error
        { exitStatus := loadErrorStatus
          stdout := bytesOf output
          stderr := libraries.logText records ++ "Error: " ++ libraries.render (.load error)
            ++ "\n" }
  | .ok images =>
      .ok
        { libraries := libraries
          display := display
          output := output ++ display.message .green "Running" "loaded images"
          records := records
          images := images }

namespace Batch

/-- A new session with all images loaded in order. -/
def session {σ : Type} (batch : Batch) (console : σ) : Session σ :=
  batch.images.foldl Session.loadImage
    { Session.start console with log := batch.libraries.logOf batch.records }

/-- What follows a run, with what is written after the program's output. -/
def closing (batch : Batch) (log : Log) : Except Fault Unit → Ending
  | .ok () =>
      { exitStatus := 0
        stdout := bytesOf (batch.display.message .green "Completed" "program halted")
        stderr := batch.libraries.logText (log.getD #[]).toList }
  | .error fault =>
      { exitStatus := faultStatus
        stdout := bytesOf (batch.display.message .red "Faulted" "program stopped")
        stderr := batch.libraries.logText (log.getD #[]).toList
          ++ batch.libraries.render (.fault fault) ++ "\n" }

/-- Run the batch on a standard input with the given content, within `limit` steps.
There is no ending if the limit was too low. -/
def run (batch : Batch) (limit : Nat) (stdin : List UInt8) : Option Ending :=
  let (result, session) := (batch.session (Piped.ofStream stdin)).run limit
  result.map fun result =>
    let closing := batch.closing session.log result
    { closing with stdout := bytesOf batch.output ++ session.console.output ++ closing.stdout }

end Batch

/-- Carry out a command line on piped streams, within `limit` steps. -/
def carryOut (libraries : Libraries) (limit : Nat) (lookup : String → Option String)
    (files : Files) (arguments : List String) (stdin : List UInt8) : Option Ending :=
  match libraries.parse arguments with
  | .error ending => some ending
  | .ok arguments =>
      match ready libraries lookup files arguments with
      | .error ending => some ending
      | .ok batch => batch.run limit stdin

end Lc3.Launch
