import Lc3.LoadError
import Lc3.Memory

/-!
# Program images

An image is an origin and the words to be placed from there on; it always fits
into memory.  Its file is a sequence of big-endian words, the origin first.
-/

namespace Lc3

/-- The words of a program and the address of the first one. -/
structure Image where
  origin : Word
  words : List Word
  fits : origin.toNat + words.length ≤ 65536

namespace Image

/-- The image of these words, unless it would not fit into memory. -/
def ofWords (origin : Word) (words : List Word) : Except LoadError Image :=
  if fits : origin.toNat + words.length ≤ 65536 then .ok ⟨origin, words, fits⟩
  else .error (.tooLarge origin words.length)

/-- The big-endian words of a byte sequence of even length, after those already
decoded. -/
def decodeWords (decoded : Array Word) : List UInt8 → Array Word
  | high :: low :: rest => decodeWords (decoded.push (Word.ofBytes high low)) rest
  | _ => decoded

theorem decodeWords_flatMap (decoded : Array Word) (words : List Word) :
    decodeWords decoded (words.flatMap fun w => [w.highByte, w.lowByte]) =
      decoded ++ words := by
  induction words generalizing decoded with
  | nil => simp [decodeWords]
  | cons w rest ih => simp [decodeWords, ih]

/-- Decode the content of an image file. -/
def ofBytes (bytes : List UInt8) : Except LoadError Image :=
  if bytes.length % 2 = 1 then .error (.misaligned bytes.length)
  else
    match (decodeWords #[] bytes).toList with
    | [] => .error .missingOrigin
    | origin :: words => ofWords origin words

/-- The content of the image's file. -/
def toBytes (image : Image) : List UInt8 :=
  (image.origin :: image.words).flatMap fun w => [w.highByte, w.lowByte]

/-- Memory with the image's words in place. -/
def placeInto (image : Image) (mem : Memory) : Memory :=
  mem.writeAll image.origin image.words

end Image

end Lc3
