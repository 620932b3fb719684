import Lc3.Console.Device

/-!
# Buffered consoles

A buffered console reads from a queue of bytes and keeps all that is written.
Its only failing call is a read from the empty queue.
-/

namespace Lc3

/-- A queue of input, all output so far and the number of flushes. -/
structure Buffer where
  input : List UInt8
  output : Array UInt8
  flushes : Nat

namespace Buffer

/-- A console with this input and nothing written yet. -/
def ofInput (input : List UInt8) : Buffer where
  input := input
  output := #[]
  flushes := 0

/-- Append bytes to the input. -/
def pushInput (buffer : Buffer) (bytes : List UInt8) : Buffer :=
  { buffer with input := buffer.input ++ bytes }

instance : Console Buffer where
  keyAvailable buffer := (!buffer.input.isEmpty, buffer)
  readChar buffer :=
    match buffer.input with
    | [] => (.error .inputExhausted, buffer)
    | byte :: rest => (.ok byte, { buffer with input := rest })
  writeChar byte buffer := (.ok (), { buffer with output := buffer.output.push byte })
  flush buffer := (.ok (), { buffer with flushes := buffer.flushes + 1 })

end Buffer

end Lc3
