/-!
# Diagnostics

A failure that ends a session is reported with a message, a code that names its
kind, sometimes a hint, and the text of the cause if it lies outside the
machine.
-/

namespace Lc3

/-- What is reported about a failure. -/
structure Diagnostic where
  message : String
  code : String
  help : Option String
  cause : Option String

end Lc3
