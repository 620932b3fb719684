import Lc3.LoadError
import Lc3.Record

/-!
# Libraries of a launch

Libraries read the command line, colour words, lay out the reports about failures
and print the log.  What they do is no matter of a launch, which takes them as
functions.
-/

namespace Lc3.Launch

/-- How a process ends: with this exit status, after it has written these texts. -/
structure Ending where
  exitStatus : Nat
  stdout : Array UInt8
  stderr : String

/-- The arguments of a command line that asks for a batch. -/
structure Arguments where
  images : List String
  /-- Whether minimal output is asked for. -/
  minimal : Bool
  deriving DecidableEq

/-- The colour of a word. -/
inductive Colour
  | green | red
  deriving DecidableEq

/-- A failure that ends a process. -/
inductive Failure
  | load (error : LoadError)
  | fault (error : Fault)

/-- What is told about a failure. -/
def Failure.diagnostic : Failure → Diagnostic
  | .load error => error.diagnostic
  | .fault error => error.diagnostic

/-- The functions that libraries provide. -/
structure Libraries where
  /-- Read the arguments.  A command line that asks for no batch, or that cannot be
  understood, ends the process. -/
  parse : List String → Except Ending Arguments
  /-- A word in a colour, aligned to the right in a field of the given width. -/
  paint : Colour → Nat → String → String
  /-- The report about a failure. -/
  render : Failure → String
  /-- The log's text for records in order, or nothing if no log is kept. -/
  logger : Option (List Record → String)

end Lc3.Launch
