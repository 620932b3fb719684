import Lc3.Files.Store
import Lc3.Process.Libraries

/-!
# Launching from a store of files

A store of files answers what a launch asks of the file system, so that the process
can be run on pipes alone.
-/

namespace Lc3

namespace FileStore

/-- The matches of a glob in the store. -/
def globbed (store : FileStore) : Launch.Matches := fun pattern => do
  let glob ← Glob.parse pattern
  pure (glob.search store.fileSystem store.top.depth)

/-- The store as the files of a launch. -/
def files (store : FileStore) : Launch.Files where
  globbed := store.globbed
  read := store.read

end FileStore

/-- Carry out a command line with the libraries of the process, on piped streams and
within `limit` steps. -/
def Launch.runCommand (limit : Nat) (lookup : String → Option String) (files : Launch.Files)
    (arguments : List String) (stdin : List UInt8) : Option Launch.Ending :=
  carryOut (Process.libraries lookup false false) limit lookup files arguments stdin

end Lc3
