import Lc3.Process.Libraries

/-!
# The command line

The process reads its arguments, its environment and the image files, and then
runs the machine on its own streams, with each byte read only when the program
asks for it.  All decisions are made by the modules that this one imports.
-/

namespace Lc3.Process

/-- A failure of the operating system, given by its number if that tells more
than its kind.  The number may come negated. -/
def systemError (error : IO.Error) : SystemError :=
  let ofNumber (code : UInt32) : SystemError :=
    if code = 20 ∨ code + 20 = 0 then .notADirectory
    else if code = 21 ∨ code + 21 = 0 then .isADirectory
    else if code = 36 ∨ code + 36 = 0 then .nameTooLong
    else .other error.toString
  match error with
  | .noFileOrDirectory .. => .notFound
  | .inappropriateType _ code _ => ofNumber code
  | .invalidArgument _ code _ => ofNumber code
  | _ => .other error.toString

/-- Carry out an action and keep its failure. -/
def attempt {α ε : Type} (failure : IO.Error → ε) (action : IO α) : IO (Except ε α) := do
  try pure (.ok (← action))
  catch error => pure (.error (failure error))

/-- What a path leads to from the current directory, if it can be looked up. -/
def metadata? (path : String) : IO (Option IO.FS.Metadata) := do
  if (Path.defect? path).isSome then pure none
  else
    try pure (some (← ((← IO.currentDir) / path).metadata))
    catch _ => pure none

/-- The entries of the directory at a path. -/
def entriesAt (path : String) : IO (List DirectoryEntry) := do
  let found ← ((← IO.currentDir) / path).readDir
  found.toList.mapM fun entry => do pure ⟨entry.fileName, ← entry.path.isDir⟩

/-- Carry out an action for a path that has no defect, and keep its failure. -/
def onPath {α : Type} (path : String) (action : IO α) : IO (Except SystemError α) :=
  match Path.defect? path with
  | some defect => pure (.error defect)
  | none => attempt systemError action

/-- The files of the process, with paths from its current directory. -/
def fileSystem : FileSystem IO where
  present path := do pure (← metadata? path).isSome
  isDirectory path := do pure ((← metadata? path).any (·.type == .dir))
  entries path := onPath path (entriesAt path)
  read path := onPath path do pure (← IO.FS.readBinFile path).toList

/-- No path has more components than this. -/
def greatestDepth : Nat := 4096

/-- The matches of the arguments that are globs. -/
def matchArguments (arguments : List String) : IO Launch.Matches := do
  let table ← (arguments.filter Launch.isPattern).mapM fun argument => do
    match Glob.parse argument with
    | .error error => pure (argument, .error error)
    | .ok glob => pure (argument, .ok (← glob.search fileSystem greatestDepth))
  pure fun argument => (table.lookup argument).getD (.ok [])

/-- What the arguments need of the file system. -/
def filesFor (arguments : List String) : IO Launch.Files := do
  let globbed ← matchArguments arguments
  let paths := (Launch.expand globbed arguments).toOption.getD []
  let contents ← paths.mapM fun path => do pure (path, ← fileSystem.read path)
  pure
    { globbed := globbed
      read := fun path => (contents.lookup path).getD (.error .notFound) }

/-- A failure of one of the streams. -/
def streamError (error : IO.Error) : ConsoleError := .failure error.toString

/-- Take a byte from the standard input if the lookahead wants one. -/
def lookAhead (ahead : Lookahead) : IO (Except ConsoleError Lookahead) :=
  if ahead.wantsByte then
    attempt streamError do
      let piece ← (← IO.getStdin).read 1
      pure (ahead.receive piece.data[0]?)
  else pure (.ok ahead)

/-- Hold a dialogue with the standard streams. -/
def hold {α : Type} (ahead : Lookahead) : Dialogue α → IO (α × Lookahead)
  | .done result => pure (result, ahead)
  | .keyAvailable next => do
      let ahead := ((← lookAhead ahead).toOption).getD ahead
      hold ahead (next ahead.pending.isSome)
  | .readChar next => do
      match ← lookAhead ahead with
      | .ok ahead =>
          let (answer, ahead) := ahead.take
          hold ahead (next answer)
      | .error error => hold ahead (next (.error error))
  | .writeChar byte next => do
      let answer ← attempt streamError ((← IO.getStdout).write ⟨#[byte]⟩)
      hold ahead (next answer)
  | .flush next => do
      let answer ← attempt streamError (← IO.getStdout).flush
      hold ahead (next answer)

/-- Run a session on the standard streams until it halts or faults. -/
partial def run (session : Session Lookahead) : IO (Except Fault Unit × Log) := do
  let (⟨machine, result, records⟩, ahead) ← hold session.console session.machine.step
  let session : Session Lookahead :=
    { machine := machine
      console := ahead
      log := session.log.addAll records }
  match result with
  | .ok .running => run session
  | .ok .halted => pure (.ok (), session.log.add (.haltedAt machine.registers.pc))
  | .error fault => pure (.error fault, session.log)

/-- Write bytes to the standard output at once. -/
def say (bytes : Array UInt8) : IO Unit := do
  let stdout ← IO.getStdout
  stdout.write ⟨bytes⟩
  stdout.flush

/-- Write what is left to be written, and give the exit status. -/
def finish (ending : Launch.Ending) : IO UInt32 := do
  say ending.stdout
  IO.eprint ending.stderr
  pure (UInt32.ofNat ending.exitStatus)

/-- Run a batch on the standard streams. -/
def runBatch (batch : Launch.Batch) : IO UInt32 := do
  say (Launch.bytesOf batch.output)
  let session := batch.session Lookahead.start
  let (result, log) ← run (session.note (.runningFrom session.machine.registers.pc))
  finish (batch.closing log result)

/-- The value of each variable that matters. -/
def environment : IO (String → Option String) := do
  let names := ["LCVM_MINIMAL", "LCVM_POLL_MS"] ++ ColourVariables.names
  let table ← names.mapM fun name => do pure (name, ← IO.getEnv name)
  pure fun name => (table.lookup name).join

end Lc3.Process

/-- Carry out the command line. -/
def main (arguments : List String) : IO UInt32 := do
  let lookup ← Lc3.Process.environment
  let libraries := Lc3.Process.libraries lookup
    (← (← IO.getStdout).isTty) (← (← IO.getStderr).isTty)
  match libraries.parse arguments with
  | .error ending => Lc3.Process.finish ending
  | .ok arguments =>
      let files ← Lc3.Process.filesFor arguments.images
      match Lc3.Launch.ready libraries lookup files arguments with
      | .error ending => Lc3.Process.finish ending
      | .ok batch => Lc3.Process.runBatch batch
