import Lc3.Files.System
import Lc3.Glob.Pattern

/-!
# Searching a file system

A glob is a path of name patterns.  Searching it gives the paths that match, in
the order of their names within each directory.  A component without wildcards
is looked up and not searched for; `**` stands for any number of directories.
-/

namespace Lc3

/-- A path of name patterns. -/
structure Glob where
  /-- Where the search begins. -/
  root : String
  components : List Glob.Pattern
  /-- Whether only directories match. -/
  wantsDirectory : Bool

namespace Glob

/-- A path that was to be searched and could not be read. -/
structure Unreadable where
  path : String
  cause : SystemError

/-- A path that was found, with what is known about it. -/
structure Found where
  path : String
  isDirectory : Bool

/-- A path on the way to the end of a glob. -/
inductive Candidate
  /-- All components are matched. -/
  | complete (found : Found)
  /-- A directory entry, of which the components from its name on are not yet
  matched. -/
  | entry (found : Found) (name : String) (components : List Pattern)

/-- Split at slashes; a slash at the end opens no further component. -/
def splitComponents (text : String) : List String :=
  let parts := text.splitOn "/"
  if parts.getLast? = some "" then parts.dropLast else parts

/-- The glob that a text denotes.  The whole text has to be a pattern, and then
each of its components. -/
def parse (text : String) : Except PatternError Glob := do
  let _ ← Pattern.parse text
  let isAbsolute := text.startsWith "/"
  let relative := if isAbsolute then (text.drop 1).toString else text
  let components ← (splitComponents relative).mapM Pattern.parse
  pure
    { root := if isAbsolute then "/" else "."
      components := components
      wantsDirectory := text.endsWith "/" }

section Search

variable {m : Type → Type} [Monad m] (files : FileSystem m)

/-- The path of a directory's entry.  Entries of the current directory are
named without it. -/
def entryPath (directory name : String) : String :=
  if Path.isCurrent directory then name else Path.join directory name

/-- Ask what a path leads to. -/
def inspect (path : String) : m Found := do
  let isDirectory ← files.isDirectory path
  pure ⟨path, isDirectory⟩

/-- The candidates that the components give below a path.  A directory's own
names `.` and `..` are candidates only for a pattern that begins with a dot,
and come first then. -/
def candidates : List Pattern → Found → m (List (Except Unreadable Candidate))
  | [], found => pure [.ok (.complete found)]
  | pattern :: rest, found =>
      match pattern.literalName? with
      | some name => do
          let next := entryPath found.path name
          let leads ←
            if name = "." ∨ name = ".." then pure found.isDirectory else files.present next
          if leads then candidates rest (← inspect files next) else pure []
      | none => do
          if found.isDirectory then
            match ← files.entries found.path with
            | .error cause => pure [.error ⟨found.path, cause⟩]
            | .ok entries => do
                let special (name : String) : m (List (Except Unreadable Candidate)) := do
                  if pattern.head? = some (.literal '.') && pattern.matchesName name then
                    candidates rest (← inspect files (Path.join found.path name))
                  else pure []
                let parent ← special ".."
                let self ← special "."
                let sorted := entries.mergeSort fun a b => decide (a.name ≤ b.name)
                let children := sorted.map fun entry =>
                  .ok (.entry ⟨entryPath found.path entry.name, entry.isDirectory⟩ entry.name
                    (pattern :: rest))
                pure (parent ++ self ++ children)
          else pure []

/-- Match an entry's name and go on below it. -/
def matchEntry (found : Found) (name : String) :
    List Pattern → m (List (Except Unreadable Candidate))
  | [] => pure []
  | pattern :: rest =>
      if pattern.matchesName name then candidates files rest found else pure []

/-- The candidates that a directory entry gives.  If the next component is `**`,
a directory is searched with it again, after its own match. -/
def expandEntry (found : Found) (name : String) (components : List Pattern) :
    m (List (Except Unreadable Candidate)) := do
  let anyDepth : Pattern := [.anyDepth]
  let rest := components.dropWhile (· == anyDepth)
  if rest.length = components.length then matchEntry files found name components
  else
    let here ←
      match rest with
      | [] => pure (if found.isDirectory then [.ok (.complete found)] else [])
      | _ => matchEntry files found name rest
    let below ← if found.isDirectory then candidates files (anyDepth :: rest) found else pure []
    pure (here ++ below)

/-- The matches that a candidate leads to, through at most `limit` entries. -/
def visit (wantsDirectory : Bool) :
    Nat → Except Unreadable Candidate → m (List (Except Unreadable String))
  | _, .error unreadable => pure [.error unreadable]
  | _, .ok (.complete found) =>
      pure (if found.isDirectory || !wantsDirectory then [.ok found.path] else [])
  | 0, .ok (.entry ..) => pure []
  | limit + 1, .ok (.entry found name components) => do
      let next ← expandEntry files found name components
      let paths ← next.mapM (visit wantsDirectory limit)
      pure paths.flatten

/-- The matches of a glob, where no directory lies deeper than `depth`. -/
def search (depth : Nat) (glob : Glob) : m (List (Except Unreadable String)) := do
  let first ← candidates files glob.components (← inspect files glob.root)
  let limit := (depth + 1) * (glob.components.length + 1)
  let paths ← first.mapM (visit files glob.wantsDirectory limit)
  pure paths.flatten

end Search

end Glob

end Lc3
