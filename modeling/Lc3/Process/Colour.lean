/-!
# Colours

The environment and the kind of a stream decide which texts are coloured.  There
are three kinds of text with a rule each: status lines, reports about failures,
and the help text.  Every rule lets the environment force colours on a stream
that is no terminal.
-/

namespace Lc3.Process

/-- The variables that decide about colours; absent ones are unset. -/
structure ColourVariables where
  /-- The value of `CLICOLOR`. -/
  colour : Option String
  /-- The value of `CLICOLOR_FORCE`. -/
  forceColour : Option String
  /-- The value of `NO_COLOR`. -/
  noColour : Option String
  /-- The value of `FORCE_COLOR`. -/
  forceLevel : Option String
  /-- The value of `NO_GRAPHICS`. -/
  noGraphics : Option String
  /-- The value of `IGNORE_IS_TERMINAL`. -/
  assumeTerminal : Option String
  /-- The value of `TERM`. -/
  terminal : Option String
  /-- The value of `TERM_PROGRAM`. -/
  terminalProgram : Option String
  /-- The value of `COLORTERM`. -/
  terminalColours : Option String
  /-- The value of `CI`. -/
  integration : Option String
  /-- Whether the variables of a service for continuous integration are there. -/
  onService : Bool

namespace ColourVariables

/-- Variables that services for continuous integration set. -/
def serviceNames : List String :=
  ["CI_NAME", "GITHUB_ACTION", "GITLAB_CI", "NETLIFY", "TRAVIS", "CODEBUILD_SRC_DIR",
    "BUILDER_OUTPUT", "GITLAB_DEPLOYMENT", "NOW_GITHUB_DEPLOYMENT", "NOW_BUILDER",
    "BITBUCKET_DEPLOYMENT", "GERRIT_PROJECT", "SYSTEM_TEAMFOUNDATIONCOLLECTIONURI",
    "BITRISE_IO", "BUDDY_WORKSPACE_ID", "BUILDKITE", "CIRRUS_CI", "APPVEYOR", "CIRCLECI",
    "SEMAPHORE", "DRONE", "DSARI", "TDDIUM", "STRIDER", "TASKCLUSTER_ROOT_URL",
    "JENKINS_URL", "bamboo.buildKey", "GO_PIPELINE_NAME", "HUDSON_URL", "WERCKER",
    "MAGNUM", "NEVERCODE", "RENDER", "SAIL_CI", "SHIPPABLE"]

/-- Whether the value of `NODE` is a program that only a service keeps there. -/
def isServiceProgram (path : String) : Bool := path.endsWith "//heroku/node/bin/node"

/-- The names of all variables that decide about colours. -/
def names : List String :=
  ["CLICOLOR", "CLICOLOR_FORCE", "NO_COLOR", "FORCE_COLOR", "NO_GRAPHICS",
    "IGNORE_IS_TERMINAL", "TERM", "TERM_PROGRAM", "COLORTERM", "CI", "NODE"]
    ++ serviceNames

/-- The variables in an environment given by names and values. -/
def ofLookup (lookup : String → Option String) : ColourVariables where
  colour := lookup "CLICOLOR"
  forceColour := lookup "CLICOLOR_FORCE"
  noColour := lookup "NO_COLOR"
  forceLevel := lookup "FORCE_COLOR"
  noGraphics := lookup "NO_GRAPHICS"
  assumeTerminal := lookup "IGNORE_IS_TERMINAL"
  terminal := lookup "TERM"
  terminalProgram := lookup "TERM_PROGRAM"
  terminalColours := lookup "COLORTERM"
  integration := lookup "CI"
  onService := (serviceNames.any fun name => (lookup name).isSome)
    || (lookup "NODE").any isServiceProgram

end ColourVariables

/-- Whether a variable is set to anything but zero. -/
def isEnabled (value : Option String) : Bool :=
  match value with
  | none => false
  | some text => text != "0"

/-- Whether a variable is set to a text that is not empty. -/
def isNonempty (value : Option String) : Bool :=
  match value with
  | none => false
  | some text => !text.isEmpty

/-- Whether a forced level of colours is above zero.  A text that is no number
counts as a level above zero. -/
def isPositiveLevel (text : String) : Bool :=
  match text with
  | "true" => true
  | "" => true
  | "false" => false
  | text =>
      let digits := match text.toList with
        | '+' :: rest => rest
        | digits => digits
      digits.isEmpty || digits.any (· != '0')

namespace ColourVariables

/-- Whether status lines are coloured.  Forcing colours wins over refusing them,
and without either they are for terminals. -/
def statusColoured (vars : ColourVariables) (isTerminal : Bool) : Bool :=
  if isEnabled vars.forceColour then true
  else if vars.noColour.isSome then false
  else isTerminal && vars.colour != some "0"

/-- Whether colours are forced for reports: a forced level decides, and without
one forced colours do. -/
def reportForced (vars : ColourVariables) : Bool :=
  match vars.forceLevel with
  | some level => isPositiveLevel level
  | none => isEnabled vars.forceColour

/-- Whether the environment makes a process on an integration service likely. -/
def isIntegrated (vars : ColourVariables) : Bool :=
  vars.integration.any (["true", "1", "woodpecker"].contains ·) || vars.onService

/-- Whether the terminal is one that shows no colours. -/
def isDumb (vars : ColourVariables) : Bool := vars.terminal == some "dumb"

/-- Whether the environment tells of a terminal, or of something else that shows
colours. -/
def showsColours (vars : ColourVariables) : Bool :=
  vars.terminal.isSome
    || vars.terminalColours.isSome
    || vars.terminalProgram == some "iTerm.app"
    || vars.terminalProgram == some "Apple_Terminal"
    || isEnabled vars.colour
    || vars.isIntegrated

/-- Whether reports are coloured.  Forcing colours wins over refusing them, and
without either they are for terminals that show them. -/
def reportColoured (vars : ColourVariables) (isTerminal : Bool) : Bool :=
  if vars.reportForced then true
  else if isEnabled vars.noColour || vars.isDumb then false
  else (isTerminal || isEnabled vars.assumeTerminal) && vars.showsColours

/-- Whether reports are told in plain sentences. -/
def isNarrated (vars : ColourVariables) : Bool := isEnabled vars.noGraphics

/-- Whether the help text is styled.  Refusing colours wins over forcing them,
and without either they are for terminals. -/
def helpStyled (vars : ColourVariables) (isTerminal : Bool) : Bool :=
  if isNonempty vars.noColour then false
  else if isNonempty vars.forceColour then true
  else if vars.colour == some "0" then false
  else isTerminal
    && ((vars.terminal.isSome && !vars.isDumb) || vars.colour.isSome || vars.integration.isSome)

end ColourVariables

/-- Text in a style, given by the number of the style. -/
def styled (style text : String) : String :=
  "\x1b[" ++ style ++ "m" ++ text ++ "\x1b[0m"

end Lc3.Process
