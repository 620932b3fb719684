import Lc3.Files.System

/-!
# Trees of files

A tree of files held as a value.  Its operations take the names that lead from
the top to a place in it; paths are the matter of the store that holds a tree.
-/

namespace Lc3

/-- A file with its content or a directory with its named entries. -/
inductive FileTree
  | file (bytes : List UInt8)
  | directory (entries : List (String × FileTree))

namespace FileTree

/-- An empty directory. -/
def empty : FileTree := directory []

/-- The entries of a directory; none for a file. -/
def entries : FileTree → List (String × FileTree)
  | file _ => []
  | directory entries => entries

/-- Replace the entry of a name, or add it at the end. -/
def setEntry (entries : List (String × FileTree)) (name : String) (tree : FileTree) :
    List (String × FileTree) :=
  if entries.any (·.1 == name) then
    entries.map fun entry => if entry.1 == name then (name, tree) else entry
  else entries ++ [(name, tree)]

/-- Change what the names lead to.  The directories on the way are made, and
where nothing is at the end, an empty directory is changed. -/
def alterAt (tree : FileTree) (change : FileTree → FileTree) : List String → FileTree
  | [] => change tree
  | name :: rest =>
      let below := (tree.entries.lookup name).getD empty
      directory (setEntry tree.entries name (below.alterAt change rest))

/-- Make a directory where the names lead.  One that is there already keeps its
entries. -/
def makeDirectoryAt (tree : FileTree) (names : List String) : FileTree := tree.alterAt id names

/-- Write a file where the names lead. -/
def writeFileAt (tree : FileTree) (bytes : List UInt8) (names : List String) : FileTree :=
  tree.alterAt (fun _ => file bytes) names

/-- Whether the tree is a directory. -/
def isDirectory : FileTree → Bool
  | file _ => false
  | directory _ => true

mutual

/-- The number of directories on the longest way down. -/
def depth : FileTree → Nat
  | file _ => 0
  | directory entries => depthOfEntries entries + 1

/-- The greatest depth among entries. -/
def depthOfEntries : List (String × FileTree) → Nat
  | [] => 0
  | (_, tree) :: rest => max tree.depth (depthOfEntries rest)

end

end FileTree

end Lc3
