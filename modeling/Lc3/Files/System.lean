/-!
# File systems

What the machine's files are asked for: whether a path leads somewhere, what a
directory holds and what a file contains.  Answers come from the monad `m`, so
that a tree of files held as a value and the files of a real system are used
alike.
-/

namespace Lc3

/-- Why a file or a stream could not be read. -/
inductive SystemError
  | notFound
  | notADirectory
  | isADirectory
  /-- A path or one of its components is longer than the system allows. -/
  | nameTooLong
  /-- A path contains the character that ends paths for the system. -/
  | nulInName
  /-- Another failure with this text. -/
  | other (text : String)
  deriving DecidableEq

/-- The text of the failure. -/
def SystemError.message : SystemError → String
  | notFound => "No such file or directory (os error 2)"
  | notADirectory => "Not a directory (os error 20)"
  | isADirectory => "Is a directory (os error 21)"
  | nameTooLong => "File name too long (os error 36)"
  | nulInName => "file name contained an unexpected NUL byte"
  | other text => text

/-- What a directory tells about one of its entries. -/
structure DirectoryEntry where
  name : String
  isDirectory : Bool

/-- The questions that can be asked about paths. -/
structure FileSystem (m : Type → Type) where
  /-- Whether the path leads to a file or a directory. -/
  present : String → m Bool
  isDirectory : String → m Bool
  /-- The entries of a directory, in any order. -/
  entries : String → m (Except SystemError (List DirectoryEntry))
  /-- The content of a file. -/
  read : String → m (Except SystemError (List UInt8))

namespace Path

/-- A path of so many bytes is too long. -/
def lengthLimit : Nat := 4096

/-- No component has more bytes than this. -/
def greatestNameLength : Nat := 255

/-- What is wrong with the path as a whole, before any of it is looked up. -/
def defect? (path : String) : Option SystemError :=
  if path.toList.contains '\x00' then some .nulInName
  else if path.isEmpty then some .notFound
  else if lengthLimit ≤ path.utf8ByteSize then some .nameTooLong
  else none

/-- Whether a component is too long to be looked up. -/
def isNameTooLong (name : String) : Bool := greatestNameLength < name.utf8ByteSize

/-- The path of `name` in the directory at `path`. -/
def join (path name : String) : String :=
  if path.isEmpty || path.endsWith "/" then path ++ name else path ++ "/" ++ name

/-- Whether the path is `.`, possibly with further `.` components or slashes. -/
def isCurrent (path : String) : Bool :=
  match path.toList.splitOn '/' with
  | first :: rest => first == ['.'] && rest.all fun part => part.isEmpty || part == ['.']
  | [] => false

end Path

end Lc3
