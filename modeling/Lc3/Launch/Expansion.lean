import Lc3.Glob.Search
import Lc3.LoadError

/-!
# Expansion of image arguments

An argument with a wildcard is a glob and stands for its matches; any other
argument stands for itself.  The arguments are expanded from left to right, and
the first failing one decides the error.  What a glob matches is given as a
function, so that the file system is not a matter of this module.
-/

namespace Lc3.Launch

/-- What a glob's text gives: its matches in order, each a path or a path that
could not be read. -/
abbrev Matches := String → Except Glob.PatternError (List (Except Glob.Unreadable String))

/-- Whether an argument is a glob. -/
def isPattern (argument : String) : Bool :=
  argument.toList.any fun c => c == '*' || c == '?' || c == '['

/-- The path of a match. -/
def pathOfMatch : Except Glob.Unreadable String → Except LoadError String
  | .ok path => .ok path
  | .error unreadable => .error (.unopened unreadable.path unreadable.cause)

/-- The paths that one argument stands for. -/
def expandArgument (globbed : Matches) (argument : String) : Except LoadError (List String) :=
  if isPattern argument then
    match globbed argument with
    | .error cause => .error (.invalidPattern argument cause)
    | .ok [] => .error (.noMatch argument)
    | .ok found => found.mapM pathOfMatch
  else .ok [argument]

/-- The paths that all arguments stand for, in order. -/
def expand (globbed : Matches) : List String → Except LoadError (List String)
  | [] => .ok []
  | argument :: rest => do
      let paths ← expandArgument globbed argument
      let others ← expand globbed rest
      pure (paths ++ others)

end Lc3.Launch
