import Lc3.Files.Tree

/-!
# Stores of files

A store is a tree of files together with the directory in it where relative
paths begin.  Absolute paths begin at the top, and nothing lies above that.
-/

namespace Lc3

/-- A tree of files with a current directory. -/
structure FileStore where
  /-- The topmost directory. -/
  top : FileTree
  /-- The names that lead from the top to the current directory. -/
  current : List String

namespace FileStore

/-- Whether a path component stays where it is. -/
def isInPlace (part : String) : Bool := part == "" || part == "."

/-- The names at which a path begins. -/
def startNames (store : FileStore) (path : String) : List String :=
  if path.startsWith "/" then [] else store.current

section Writing

/-- Follow path components from the place with these names, and make the
directories on the way.  Gives the tree and the names of the place reached. -/
def makeWay (top : FileTree) (names : List String) : List String → FileTree × List String
  | [] => (top, names)
  | part :: rest =>
      if isInPlace part then makeWay top names rest
      else if part == ".." then makeWay top names.dropLast rest
      else
        let below := names ++ [part]
        makeWay (top.makeDirectoryAt below) below rest

/-- Make a directory and those on the way to it. -/
def makeDirectory (store : FileStore) (path : String) : FileStore :=
  let (top, _) := makeWay store.top (store.startNames path) (path.splitOn "/")
  { store with top := top }

/-- Write a file and make the directories on the way to it. -/
def writeFile (store : FileStore) (path : String) (bytes : List UInt8) : FileStore :=
  let parts := path.splitOn "/"
  let (top, names) := makeWay store.top (store.startNames path) parts.dropLast
  { store with top := top.writeFileAt bytes (names ++ [parts.getLastD ""]) }

end Writing

/-- A place in a tree: what is there, and the directories that lead to it, the
nearest one first. -/
structure Place where
  here : FileTree
  above : List FileTree

/-- The directory that holds the place.  The top holds itself. -/
def Place.parent (place : Place) : Place :=
  match place.above with
  | [] => place
  | nearest :: others => ⟨nearest, others⟩

/-- Find an entry of a directory. -/
def lookUp (entries : List (String × FileTree)) (name : String) :
    Except SystemError FileTree :=
  if Path.isNameTooLong name then .error .nameTooLong
  else match entries.lookup name with
    | some tree => .ok tree
    | none => .error .notFound

/-- Follow path components from a place. -/
def Place.follow (place : Place) : List String → Except SystemError Place
  | [] => .ok place
  | part :: rest =>
      match place.here with
      | .file _ => .error .notADirectory
      | .directory entries =>
          if isInPlace part then place.follow rest
          else if part == ".." then place.parent.follow rest
          else match lookUp entries part with
            | .ok tree => Place.follow ⟨tree, place.here :: place.above⟩ rest
            | .error error => .error error

/-- What a path leads to. -/
def resolve (store : FileStore) (path : String) : Except SystemError FileTree :=
  match Path.defect? path with
  | some defect => .error defect
  | none => do
      let start ← Place.follow ⟨store.top, []⟩ (store.startNames path)
      let place ← start.follow (path.splitOn "/")
      pure place.here

/-- The content of the file at a path. -/
def read (store : FileStore) (path : String) : Except SystemError (List UInt8) := do
  match ← store.resolve path with
  | .file bytes => .ok bytes
  | .directory _ => .error .isADirectory

/-- The store as a file system. -/
def fileSystem (store : FileStore) : FileSystem Id where
  present path := (store.resolve path).isOk
  isDirectory path :=
    match store.resolve path with
    | .ok tree => tree.isDirectory
    | .error _ => false
  entries path :=
    match store.resolve path with
    | .ok (.directory entries) => .ok (entries.map fun (name, tree) => ⟨name, tree.isDirectory⟩)
    | .ok (.file _) => .error .notADirectory
    | .error error => .error error
  read path := store.read path

end FileStore

end Lc3
