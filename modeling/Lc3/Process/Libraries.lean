import Lc3.Process.CommandLine

/-!
# The libraries of the process

The process reads its own command line, and lays out its messages and reports with
colours that the environment and the kinds of its streams decide.  It keeps no log.
-/

namespace Lc3.Process

open Launch (Colour)

/-- A text with blanks before it up to the given width. -/
def alignRight (width : Nat) (text : String) : String :=
  String.ofList (List.replicate (width - text.length) ' ') ++ text

/-- The style of a colour. -/
def styleOf : Colour → String
  | .green => "32"
  | .red => "31"

/-- A word aligned to the right, in a colour if colours are shown. -/
def paint (isColoured : Bool) (colour : Colour) (width : Nat) (word : String) : String :=
  let aligned := alignRight width word
  if isColoured then styled (styleOf colour) aligned else aligned

/-- How a failure is reported. -/
inductive ReportStyle
  | plain
  | coloured
  /-- In sentences, with the code at the end. -/
  | narrated
  deriving DecidableEq

/-- A line that tells something which may be absent. -/
def optionalLine (label : String) (text : Option String) : List String :=
  (text.map (label ++ ·)).toList

/-- The report about a failure. -/
def report (style : ReportStyle) (diagnostic : Diagnostic) : String :=
  let headed (code : String) : List String :=
    [code, "", "  " ++ diagnostic.message]
      ++ optionalLine "  caused by: " diagnostic.cause
      ++ optionalLine "  help: " diagnostic.help
  String.intercalate "\n" <|
    match style with
    | .plain => headed diagnostic.code
    | .coloured => headed (styled "31" diagnostic.code)
    | .narrated =>
        [diagnostic.message]
          ++ optionalLine "Caused by: " diagnostic.cause
          ++ optionalLine "diagnostic help: " diagnostic.help
          ++ ["diagnostic code: " ++ diagnostic.code]

/-- How failures are reported in an environment. -/
def ColourVariables.reportStyle (vars : ColourVariables) (stderrIsTerminal : Bool) : ReportStyle :=
  if vars.isNarrated then .narrated
  else if vars.reportColoured stderrIsTerminal then .coloured
  else .plain

/-- The libraries in an environment given by names and values. -/
def libraries (lookup : String → Option String) (stdoutIsTerminal stderrIsTerminal : Bool) :
    Launch.Libraries :=
  let vars := ColourVariables.ofLookup lookup
  { parse := fun arguments =>
      (readArguments arguments).mapError (Answer.ending (vars.helpStyled stdoutIsTerminal))
    paint := paint (vars.statusColoured stdoutIsTerminal)
    render := fun failure => report (vars.reportStyle stderrIsTerminal) failure.diagnostic
    logger := none }

end Lc3.Process
