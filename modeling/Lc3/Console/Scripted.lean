import Lc3.Console.Buffer
import Lc3.Text.Numeral

/-!
# Scripted consoles

A scripted console is a buffered console whose calls of given numbers fail and
whose first answers about waiting keys are given.  Calls are numbered from
zero for each kind of call, and failed calls are counted too.
-/

namespace Lc3

/-- Which calls fail, and what is answered about waiting keys at first. -/
structure ConsoleScript where
  failingReads : List Nat
  failingWrites : List Nat
  failingFlushes : List Nat
  available : Array Bool

/-- How many calls of each kind were made. -/
structure CallCounts where
  reads : Nat
  writes : Nat
  flushes : Nat
  polls : Nat

/-- A buffered console that follows a script. -/
structure Scripted where
  script : ConsoleScript
  buffer : Buffer
  counts : CallCounts
  /-- The lengths of the output at the successful flushes, the last one first. -/
  flushedAt : List Nat

namespace Scripted

/-- A console at the start of its script. -/
def ofInput (script : ConsoleScript) (input : List UInt8) : Scripted where
  script := script
  buffer := Buffer.ofInput input
  counts := ⟨0, 0, 0, 0⟩
  flushedAt := []

/-- Append bytes to the input. -/
def pushInput (console : Scripted) (bytes : List UInt8) : Scripted :=
  { console with buffer := console.buffer.pushInput bytes }

/-- The failure that the script has for a call. -/
def failure (call : String) (number : Nat) : ConsoleError :=
  .failure ("scripted " ++ call ++ " failure " ++ Text.decimal number)

instance : Console Scripted where
  keyAvailable := fun ⟨script, buffer, counts, flushedAt⟩ =>
    let (left, buffer) := Console.keyAvailable buffer
    let counted := { counts with polls := counts.polls + 1 }
    (script.available[counts.polls]?.getD left, ⟨script, buffer, counted, flushedAt⟩)
  readChar := fun ⟨script, buffer, counts, flushedAt⟩ =>
    let counted := { counts with reads := counts.reads + 1 }
    if script.failingReads.contains counts.reads then
      (.error (failure "read" counts.reads), ⟨script, buffer, counted, flushedAt⟩)
    else
      let (answer, buffer) := Console.readChar buffer
      (answer, ⟨script, buffer, counted, flushedAt⟩)
  writeChar byte := fun ⟨script, buffer, counts, flushedAt⟩ =>
    let counted := { counts with writes := counts.writes + 1 }
    if script.failingWrites.contains counts.writes then
      (.error (failure "write" counts.writes), ⟨script, buffer, counted, flushedAt⟩)
    else
      let (answer, buffer) := Console.writeChar byte buffer
      (answer, ⟨script, buffer, counted, flushedAt⟩)
  flush := fun ⟨script, buffer, counts, flushedAt⟩ =>
    let counted := { counts with flushes := counts.flushes + 1 }
    if script.failingFlushes.contains counts.flushes then
      (.error (failure "flush" counts.flushes), ⟨script, buffer, counted, flushedAt⟩)
    else
      let (answer, buffer) := Console.flush buffer
      (answer, ⟨script, buffer, counted, buffer.output.size :: flushedAt⟩)

end Scripted

end Lc3
