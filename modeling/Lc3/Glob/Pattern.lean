/-!
# Name patterns

A pattern matches one name.  `?` stands for any character, `*` for any sequence
of characters, a bracketed class for one character in it or, after `!`, not in
it.  `**` must fill a whole path component.  All other characters, the
backslash included, stand for themselves.
-/

namespace Lc3.Glob

/-- Why a text is not a pattern, with the position of a character. -/
inductive PatternError
  /-- A bracket that opens no complete class. -/
  | invalidRange (position : Nat)
  /-- More than two stars in a row. -/
  | tooManyStars (position : Nat)
  /-- Two stars beside other characters in a path component. -/
  | starsInComponent (position : Nat)
  deriving DecidableEq

namespace PatternError

/-- The number of characters before the error. -/
def position : PatternError → Nat
  | invalidRange position => position
  | tooManyStars position => position
  | starsInComponent position => position

/-- What is wrong at the position. -/
def reason : PatternError → String
  | invalidRange _ => "invalid range pattern"
  | tooManyStars _ => "wildcards are either regular \x60*\x60 or recursive \x60**\x60"
  | starsInComponent _ => "recursive wildcards must form a single path component"

/-- The error in one line. -/
def message (error : PatternError) : String :=
  "Pattern syntax error near position " ++ Nat.repr error.position ++ ": " ++ error.reason

end PatternError

/-- The characters from `first` to `last`; a single character if they agree. -/
structure CharRange where
  first : Char
  last : Char
  deriving DecidableEq

/-- Whether a character lies in the range. -/
def CharRange.contains (range : CharRange) (c : Char) : Bool :=
  range.first ≤ c && c ≤ range.last

/-- An element of a pattern. -/
inductive Token
  | literal (c : Char)
  | anyChar
  | anySequence
  /-- Two stars: any number of directories. -/
  | anyDepth
  | oneOf (ranges : List CharRange)
  | noneOf (ranges : List CharRange)
  deriving DecidableEq

/-- The character that the token stands for, if it is a literal. -/
def Token.literal? : Token → Option Char
  | .literal c => some c
  | _ => none

/-- A parsed pattern. -/
abbrev Pattern := List Token

/-- The ranges of a class: `a-b` is a range wherever three characters are left,
and any other character stands for itself. -/
def classRanges : List Char → List CharRange
  | a :: '-' :: b :: rest => ⟨a, b⟩ :: classRanges rest
  | a :: rest => ⟨a, a⟩ :: classRanges rest
  | [] => []

/-- Split a class from the text after its bracket.  The first character belongs
to the class even if it is a closing bracket. -/
def splitClass : List Char → Option (List Char × List Char)
  | [] => none
  | first :: rest =>
      match rest.span (· != ']') with
      | (_, []) => none
      | (inside, _ :: after) => some (first :: inside, after)

/-- Read one bracketed class from the text after its opening bracket. -/
def readClass : List Char → Option (Token × List Char)
  | '!' :: rest => (splitClass rest).map fun (inside, after) =>
      (.noneOf (classRanges inside), after)
  | text => (splitClass text).map fun (inside, after) =>
      (.oneOf (classRanges inside), after)

namespace Pattern

/-- Read `stars` stars at `position`, where `previous` is the character before
them.  Two stars take the slash after them along. -/
def readStars (position : Nat) (previous : Option Char) (stars : Nat) (after : List Char) :
    Except PatternError (Token × List Char) :=
  if stars = 1 then .ok (.anySequence, after)
  else if stars > 2 then .error (.tooManyStars (position + 2))
  else if previous.isNone || previous == some '/' then
    match after with
    | [] => .ok (.anyDepth, [])
    | '/' :: rest => .ok (.anyDepth, rest)
    | _ => .error (.starsInComponent (position + 2))
  else .error (.starsInComponent (position - 1))

/-- Read the first token of the text `c :: rest` at `position`. -/
def readToken (position : Nat) (previous : Option Char) (c : Char) (rest : List Char) :
    Except PatternError (Token × List Char) :=
  match c with
  | '?' => .ok (.anyChar, rest)
  | '*' =>
      let after := rest.dropWhile (· == '*')
      readStars position previous (rest.length + 1 - after.length) after
  | '[' =>
      match readClass rest with
      | some (token, after) => .ok (token, after)
      | none => .error (.invalidRange position)
  | c => .ok (.literal c, rest)

/-- Read the tokens of the last part of a text of `total` characters, at most
`limit` of them.  Each token takes one character or more. -/
def readTokens (total : Nat) (previous : Option Char) (text : List Char) :
    Nat → Except PatternError Pattern
  | 0 => .ok []
  | limit + 1 =>
      match text with
      | [] => .ok []
      | c :: rest => do
          let (token, after) ← readToken (total - text.length) previous c rest
          let last := text[text.length - after.length - 1]?
          let tokens ← readTokens total last after limit
          pure (token :: tokens)

/-- The pattern that a text denotes. -/
def parse (text : String) : Except PatternError Pattern :=
  let chars := text.toList
  readTokens chars.length none chars chars.length

/-- All suffixes of a list, the longest first. -/
def suffixes : List Char → List (List Char)
  | [] => [[]]
  | c :: rest => (c :: rest) :: suffixes rest

/-- What can be left of a name after one more token, where `rests` is what was
left before it.  All of these are suffixes of the name, the longest first. -/
def after (rests : List (List Char)) (token : Token) : List (List Char) :=
  let one (accepts : Char → Bool) := rests.filterMap fun
    | [] => none
    | c :: rest => if accepts c then some rest else none
  match token with
  | .literal c => one (· == c)
  | .anyChar => one fun _ => true
  | .oneOf ranges => one fun c => ranges.any (·.contains c)
  | .noneOf ranges => one fun c => !ranges.any (·.contains c)
  | .anySequence | .anyDepth => (rests.head?.map suffixes).getD []

/-- Whether the pattern matches the whole name. -/
def matchesName (pattern : Pattern) (name : String) : Bool :=
  (pattern.foldl after [name.toList]).any List.isEmpty

/-- The only name that the pattern matches, if it consists of literals. -/
def literalName? (pattern : Pattern) : Option String :=
  (pattern.mapM Token.literal?).map String.ofList

end Pattern

end Lc3.Glob
