import Lc3.Image.Basic
import Lc3.Record

/-!
# Image files

An image file is opened by its path, from what reading the path gave.
-/

namespace Lc3.Image

/-- The image in the file at `path`, of which `content` was read. -/
def ofFile (path : String) (content : Except SystemError (List UInt8)) :
    Except LoadError Image :=
  match content with
  | .error cause => .error (.unopened path cause)
  | .ok bytes => ofBytes bytes

/-- What is logged about reading an image file. -/
def readRecord (path : String) (image : Image) : Record :=
  .imageRead path image.words.length image.origin

end Lc3.Image
