import Lc3.Image.Basic

/-!
# Image streams

A stream delivers its bytes in pieces.  An interrupted delivery is tried again;
an empty piece is the end of the stream, and a failure ends it early.  What is
read from a stream depends only on the bytes before its end.
-/

namespace Lc3

/-- What one read from a stream gives. -/
inductive Delivery
  | bytes (piece : List UInt8)
  /-- Nothing came, but the stream goes on. -/
  | interrupted
  | failed (cause : SystemError)

/-- A stream as the sequence of its deliveries; it ends after the last one. -/
abbrev ByteStream := List Delivery

namespace ByteStream

/-- All bytes up to the end of the stream, after those already read. -/
def collect (pieces : Array UInt8) : ByteStream → Except SystemError (Array UInt8)
  | [] => .ok pieces
  | .bytes [] :: _ => .ok pieces
  | .bytes piece :: rest => collect (pieces ++ piece) rest
  | .interrupted :: rest => collect pieces rest
  | .failed cause :: _ => .error cause

/-- All bytes up to the end of the stream. -/
def readToEnd (stream : ByteStream) : Except SystemError (List UInt8) :=
  (collect #[] stream).map Array.toList

/-- A stream of these bytes in pieces of `size` bytes, the last piece possibly
shorter.  Pieces of no bytes are the end of the stream at once. -/
def ofBytes (size : Nat) (bytes : List UInt8) : ByteStream :=
  let content := bytes.toArray
  (List.range ((content.size + size - 1) / size)).map fun i =>
    .bytes (content.extract (i * size) ((i + 1) * size)).toList

end ByteStream

/-- Decode the image that a stream delivers. -/
def Image.ofStream (stream : ByteStream) : Except LoadError Image :=
  match stream.readToEnd with
  | .error cause => .error (.unread cause)
  | .ok bytes => ofBytes bytes

end Lc3
