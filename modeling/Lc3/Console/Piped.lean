import Lc3.Console.Device

/-!
# Consoles on piped streams

A stream cannot be asked whether a byte is waiting, so the question about a key
takes the next byte from the stream and keeps it until it is read.  Once the
stream has ended it is not read again.
-/

namespace Lc3

/-- What a console on a stream remembers about its input. -/
structure Lookahead where
  /-- The byte that was taken to find out that there is one. -/
  pending : Option UInt8
  /-- Whether the stream has ended. -/
  ended : Bool

namespace Lookahead

/-- Nothing has been taken from the stream. -/
def start : Lookahead where
  pending := none
  ended := false

/-- Whether the next byte has to come from the stream. -/
def wantsByte (ahead : Lookahead) : Bool := ahead.pending.isNone && !ahead.ended

/-- Keep what the stream gave: a byte, or nothing at its end. -/
def receive (ahead : Lookahead) : Option UInt8 → Lookahead
  | some byte => { ahead with pending := some byte }
  | none => { ahead with ended := true }

/-- Give the kept byte away; without one the stream has ended. -/
def take (ahead : Lookahead) : Except ConsoleError UInt8 × Lookahead :=
  match ahead.pending with
  | some byte => (.ok byte, { ahead with pending := none })
  | none => (.error .endOfInput, ahead)

end Lookahead

/-- A console between an input stream and an output stream. -/
structure Piped where
  /-- The bytes that the input stream has not given yet. -/
  stream : List UInt8
  ahead : Lookahead
  output : Array UInt8

namespace Piped

/-- A console on an input stream with this content. -/
def ofStream (stream : List UInt8) : Piped where
  stream := stream
  ahead := .start
  output := #[]

/-- Take a byte from the stream if the lookahead wants one. -/
def lookAhead (console : Piped) : Piped :=
  if console.ahead.wantsByte then
    { console with
      stream := console.stream.tail
      ahead := console.ahead.receive console.stream.head? }
  else console

instance : Console Piped where
  keyAvailable console :=
    let console := console.lookAhead
    (console.ahead.pending.isSome, console)
  readChar console :=
    let console := console.lookAhead
    let (answer, ahead) := console.ahead.take
    (answer, { console with ahead := ahead })
  writeChar byte console := (.ok (), { console with output := console.output.push byte })
  flush console := (.ok (), console)

end Piped

end Lc3
