import ScalaLexer.Command.Run

/-!
# The command

Finds out where the arguments lead, reads the sources and prints what the
library says about them.
-/

namespace ScalaLexer.Command

/-- The reason for an error of the file system, as it is printed. -/
def reasonOf : IO.Error → String
  | .noFileOrDirectory .. => PathError.notFound.message
  | .inappropriateType .. => PathError.notADirectory.message
  | error => toString error

/-- The tree that these names lead to. -/
partial def survey (place : List String) : IO (FileTree Unit) := do
  match ← (← IO.FS.realPath (Path.ofNames place)).readDir.toBaseIO with
  | .error _ => return .file ()
  | .ok entries =>
    let trees ← entries.toList.mapM fun entry =>
      return (entry.fileName, ← survey (place ++ [entry.fileName]))
    return .directory trees

/-- Finds out where an argument leads.  Why it leads nowhere is told by the
attempt to read it. -/
def locate (argument : String) : IO (Target Unit) := do
  match ← (IO.FS.realPath argument).toBaseIO with
  | .ok path =>
    let place := Path.names (toString path)
    return ⟨argument, .ok (place, ← survey place)⟩
  | .error unresolved =>
    match ← (IO.FS.readBinFile argument).toBaseIO with
    | .ok _ => return ⟨argument, .error (reasonOf unresolved)⟩
    | .error error => return ⟨argument, .error (reasonOf error)⟩

/-- Does a job. -/
def carryOut (printTokens : Bool) (job : Job Unit) : IO (Done Unit) :=
  match job with
  | .lost argument reason => return ⟨job, .ofLost argument reason⟩
  | .source found => do
    match ← (IO.FS.readBinFile found.path).toBaseIO with
    | .error error => return ⟨job, .ofUnreadable found.path (reasonOf error)⟩
    | .ok bytes => return ⟨job, .ofSource printTokens ⟨found.place, bytes.toList⟩⟩

/-- Prints the lines of an outcome. -/
def print (outcome : Outcome) : IO UInt32 := do
  outcome.output.forM IO.println
  outcome.errors.forM IO.eprintln
  return UInt32.ofNat outcome.exitCode

end ScalaLexer.Command

open ScalaLexer.Command in
/-- Runs the command on the arguments. -/
def main (arguments : List String) : IO UInt32 := do
  match (Request.ofArguments arguments).options with
  | .error outcome => print outcome
  | .ok options =>
    let targets ← options.paths.mapM locate
    let jobs := targets.flatMap (Target.jobs options.extension)
    print (.of (upToCrash (← jobs.mapM (carryOut options.tokens))))
