import Lc3.Launch.Batch
import Lc3.Process.Colour

/-!
# Command line arguments

The command line names the images and may ask for minimal output, for the help
text or for the version.  Arguments are read from left to right, and the first
one that ends the reading decides.
-/

namespace Lc3.Process

open Launch (Arguments Ending bytesOf)

/-- What a command line is answered with if it asks for no batch. -/
inductive Answer
  | help
  | version
  /-- The arguments cannot be understood. -/
  | misuse
  deriving DecidableEq

/-- The arguments read so far; the last image comes first. -/
structure Reading where
  images : List String
  minimal : Bool

namespace Reading

/-- Add an image. -/
def addImage (reading : Reading) (image : String) : Except Answer Reading :=
  if image.isEmpty then .error .misuse
  else .ok { reading with images := image :: reading.images }

/-- Ask for minimal output, which can be done once. -/
def askMinimal (reading : Reading) : Except Answer Reading :=
  if reading.minimal then .error .misuse else .ok { reading with minimal := true }

/-- Read a cluster of options of one letter each. -/
def shortOptions (reading : Reading) : List Char → Except Answer Reading
  | [] => .ok reading
  | 'h' :: _ => .error .help
  | 'V' :: _ => .error .version
  | 'm' :: rest => do
      let reading ← reading.askMinimal
      reading.shortOptions rest
  | _ => .error .misuse

/-- Read one argument that may be an option. -/
def argument (reading : Reading) (text : String) : Except Answer Reading :=
  match text.toList with
  | '-' :: '-' :: name =>
      if name = "minimal".toList then reading.askMinimal
      else if name = "help".toList then .error .help
      else if name = "version".toList then .error .version
      else .error .misuse
  | '-' :: c :: letters => reading.shortOptions (c :: letters)
  | _ => reading.addImage text

/-- Read arguments in order.  After two dashes alone all are images. -/
def arguments (reading : Reading) : List String → Except Answer Reading
  | [] => .ok reading
  | "--" :: rest => rest.foldlM addImage reading
  | text :: rest => do
      let reading ← reading.argument text
      reading.arguments rest

end Reading

/-- What the arguments ask for.  There has to be an image. -/
def readArguments (arguments : List String) : Except Answer Arguments := do
  let reading ← (Reading.mk [] false).arguments arguments
  if reading.images.isEmpty then .error .misuse
  else .ok ⟨reading.images.reverse, reading.minimal⟩

/-- The help text.  Its headings and the words to be typed may be styled. -/
def helpText (isStyled : Bool) : String :=
  let word (text : String) : String := if isStyled then styled "1" text else text
  let heading (text : String) : String :=
    if isStyled then "\x1b[1m" ++ styled "4" text else text
  String.intercalate "\n"
    [ "Lcvm runs binary LC3 program images on a virtual LC3 machine",
      "",
      heading "Usage:" ++ " " ++ word "lcvm" ++ " [OPTIONS] <IMAGES>...",
      "",
      heading "Arguments:",
      "  <IMAGES>...  \x60.obj\x60 images to load in order, then run from x3000. "
        ++ "Glob patterns are expanded",
      "",
      heading "Options:",
      "  " ++ word "-m" ++ ", " ++ word "--minimal"
        ++ "  Produce minimal output, suited for blackbox tests",
      "  " ++ word "-h" ++ ", " ++ word "--help" ++ "     Print help",
      "  " ++ word "-V" ++ ", " ++ word "--version" ++ "  Print version",
      "" ]

/-- The version text. -/
def versionText : String := "lcvm 0.1.0\n"

/-- What is said about arguments that cannot be understood. -/
def misuseText : String := "error: invalid arguments\n\n"
  ++ "Usage: lcvm [OPTIONS] <IMAGES>...\n\nFor more information, try '--help'.\n"

/-- The exit status after arguments that cannot be understood. -/
def misuseStatus : Nat := 2

/-- The ending of a process that writes a text and is done. -/
def saying (text : String) : Ending where
  exitStatus := 0
  stdout := bytesOf text
  stderr := ""

/-- How an answer ends the process; the help text may be styled. -/
def Answer.ending (isStyled : Bool) : Answer → Ending
  | help => saying (helpText isStyled)
  | version => saying versionText
  | misuse =>
      { exitStatus := misuseStatus
        stdout := #[]
        stderr := misuseText }

end Lc3.Process
