import Lc3.Diagnostic
import Lc3.Files.System
import Lc3.Glob.Pattern
import Lc3.Text.Numeral

/-!
# Load errors

Why a program image could not be placed into memory.  The machine does not
start then.
-/

namespace Lc3

/-- Why no image could be loaded. -/
inductive LoadError
  /-- The image file could not be opened or read. -/
  | unopened (path : String) (cause : SystemError)
  /-- The image stream failed. -/
  | unread (cause : SystemError)
  /-- There is no word to give the origin. -/
  | missingOrigin
  /-- The image ends within a word. -/
  | misaligned (length : Nat)
  /-- The last word would lie past the end of memory. -/
  | tooLarge (origin : Word) (words : Nat)
  /-- An argument is not a glob. -/
  | invalidPattern (pattern : String) (cause : Glob.PatternError)
  /-- A glob has no matches. -/
  | noMatch (pattern : String)
  deriving DecidableEq

namespace LoadError

/-- The error in one line, without its cause. -/
def message : LoadError → String
  | unopened path _ => "Failed to open image " ++ path
  | unread _ => "Failed to read image stream"
  | missingOrigin => "Image is empty"
  | misaligned length =>
      "Image is not aligned to 16 bits (" ++ Text.decimal length ++ " bytes)"
  | tooLarge origin words =>
      "Image of " ++ Text.decimal words ++ " words at origin 0x" ++ Text.hexWord origin
        ++ " does not fit in memory"
  | invalidPattern pattern _ => "Invalid image pattern \x60" ++ pattern ++ "\x60"
  | noMatch pattern => "No image matches \x60" ++ pattern ++ "\x60"

/-- The code of the error's kind. -/
def code : LoadError → String
  | unopened .. => "load::open"
  | unread _ => "load::read"
  | missingOrigin => "load::no_orig"
  | misaligned _ => "load::misaligned"
  | tooLarge .. => "load::too_large"
  | invalidPattern .. => "load::pattern"
  | noMatch _ => "load::no_match"

/-- What may help against the error. -/
def help : LoadError → Option String
  | unopened .. => some "check that the file exists and is readable"
  | unread _ => none
  | missingOrigin => some "an image must start with a 16-bit origin address"
  | misaligned _ => some "images are made of big-endian 16-bit words"
  | tooLarge .. => some "the last word would be placed past address 0xffff"
  | invalidPattern .. => none
  | noMatch _ => some "check the pattern and current directory"

/-- The text of the cause outside the machine. -/
def cause : LoadError → Option String
  | unopened _ cause => some cause.message
  | unread cause => some cause.message
  | invalidPattern _ cause => some cause.message
  | _ => none

/-- The report about a load error. -/
def diagnostic (error : LoadError) : Diagnostic where
  message := error.message
  code := error.code
  help := error.help
  cause := error.cause

end LoadError

end Lc3
