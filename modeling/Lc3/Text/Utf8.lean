/-!
# Reading UTF-8

Bytes are read as UTF-8 text.  Each longest sequence of bytes that begins a
character and does not complete it is replaced by U+FFFD, and so is each byte
that begins none.
-/

namespace Lc3.Text.Utf8

/-- The character in the place of bytes that are not UTF-8. -/
def replacement : Char := Char.ofNat 0xFFFD

/-- The bytes from `low` to `high`. -/
structure ByteRange where
  low : UInt8
  high : UInt8

/-- Whether a byte lies in the range. -/
def ByteRange.contains (range : ByteRange) (byte : UInt8) : Bool :=
  range.low ≤ byte && byte ≤ range.high

/-- The bytes that continue a character. -/
def continuation : ByteRange := ⟨0x80, 0xBF⟩

/-- The bits that the first byte of a longer character gives to it, and the
bytes that have to follow. -/
def lead? (byte : UInt8) : Option (Nat × List ByteRange) :=
  if 0xC2 ≤ byte && byte ≤ 0xDF then some (byte.toNat % 0x20, [continuation])
  else if byte == 0xE0 then some (0, [⟨0xA0, 0xBF⟩, continuation])
  else if byte == 0xED then some (0xD, [⟨0x80, 0x9F⟩, continuation])
  else if 0xE1 ≤ byte && byte ≤ 0xEF then
    some (byte.toNat % 0x10, [continuation, continuation])
  else if byte == 0xF0 then some (0, [⟨0x90, 0xBF⟩, continuation, continuation])
  else if 0xF1 ≤ byte && byte ≤ 0xF3 then
    some (byte.toNat % 8, [continuation, continuation, continuation])
  else if byte == 0xF4 then some (4, [⟨0x80, 0x8F⟩, continuation, continuation])
  else none

/-- The text read so far, and what is expected of a character that is not
complete. -/
structure Reader where
  text : String
  /-- The bits of the incomplete character and the bytes that have to follow;
  none of these between two characters. -/
  code : Nat
  expected : List ByteRange

/-- Nothing has been read. -/
def Reader.start : Reader := ⟨"", 0, []⟩

/-- Read a byte that begins a character. -/
def Reader.first (text : String) (byte : UInt8) : Reader :=
  if byte < 0x80 then ⟨text.push (Char.ofNat byte.toNat), 0, []⟩
  else match lead? byte with
    | some (code, expected) => ⟨text, code, expected⟩
    | none => ⟨text.push replacement, 0, []⟩

/-- Read one more byte. -/
def Reader.next (reader : Reader) (byte : UInt8) : Reader :=
  match reader with
  | ⟨text, _, []⟩ => Reader.first text byte
  | ⟨text, code, range :: rest⟩ =>
      if range.contains byte then
        let code := code * 0x40 + byte.toNat % 0x40
        if rest.isEmpty then ⟨text.push (Char.ofNat code), 0, []⟩ else ⟨text, code, rest⟩
      else Reader.first (text.push replacement) byte

/-- The text when no more bytes follow. -/
def Reader.finish (reader : Reader) : String :=
  if reader.expected.isEmpty then reader.text else reader.text.push replacement

/-- The text of a byte sequence. -/
def decode (bytes : Array UInt8) : String :=
  (bytes.foldl Reader.next .start).finish

end Lc3.Text.Utf8
