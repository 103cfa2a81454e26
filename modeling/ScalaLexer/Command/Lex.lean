import ScalaLexer.Command.Options
import ScalaLexer.Diagnostic.Report
import ScalaLexer.Files.Resolve
import ScalaLexer.Files.Sources
import ScalaLexer.Lexer.Drain

/-!
# Lexing files

There is a job for every path that leads nowhere and for every source that was found,
and what a job prints is a block.  A block depends on nothing but its own path or source.
The jobs are done in order.  A report that breaks off takes the program with it, so the
jobs behind it are never done; otherwise the run fails if one of its jobs does.
-/

namespace ScalaLexer.Command

variable [Unicode.Repertoire]

/-- How a job ends. -/
inductive Verdict where
  | passed
  | failed
  /-- The program ends in the middle of the job. -/
  | crashed
  deriving Repr, DecidableEq

/-- What is printed about one path or source. -/
structure Block where
  /-- Lines on standard output. -/
  output : List String
  /-- Lines on standard error, without what a crash says of itself. -/
  errors : List String
  verdict : Verdict
  deriving Repr, DecidableEq

namespace Block

/-- The line that says why a source failed. -/
def failure (path reason : String) : String :=
  "Failed processing " ++ path ++ " with error " ++ reason

/-- The block of an argument that leads nowhere. -/
def ofLost (argument reason : String) : Block :=
  ⟨[argument ++ ": " ++ reason], [], .failed⟩

/-- The block of a source that cannot be read at all. -/
def ofUnreadable (path reason : String) : Block :=
  ⟨[failure path reason], [], .failed⟩

/-- The block of a source that is no text, which is reported first. -/
def ofUndecodable (source : Found (List UInt8)) (diagnostic : Diagnostic) : Block :=
  let content := Utf8.decodeLossy source.contents
  let report := diagnostic.report source.path content
  if diagnostic.breaksOff content then ⟨[], report, .crashed⟩
  else ⟨[failure source.path diagnostic.render], report, .failed⟩

/-- The block of a source.  Its tokens are printed only if all of it can be read,
and the first error token is the reason for a failure. -/
def ofSource (printTokens : Bool) (source : Found (List UInt8)) : Block :=
  match (Lexer.ofBytes source.contents source.name).tokens.result with
  | .error diagnostic => ofUndecodable source diagnostic
  | .ok tokens =>
    let listing := if printTokens then tokens.map Token.render else []
    match tokens.find? Token.isError with
    | some token => ⟨listing ++ [failure source.path token.render], [], .failed⟩
    | none => ⟨listing, [], .passed⟩

end Block

/-! ## From arguments to jobs -/

/-- Where an argument leads: to the tree at the end of these names, or nowhere for some
reason. -/
structure Target (α : Type) where
  argument : String
  found : Except String (List String × FileTree α)

/-- What there is to do for an argument. -/
inductive Job (α : Type) where
  /-- To say that it leads nowhere. -/
  | lost (argument reason : String)
  /-- To lex a source. -/
  | source (found : Found α)

/-- The jobs of an argument, in the order of the sources it leads to. -/
def Target.jobs {α : Type} (extension : String) (target : Target α) : List (Job α) :=
  match target.found with
  | .error reason => [.lost target.argument reason]
  | .ok (place, tree) => (tree.sources extension place).map .source

/-- The source of a job, if it has one. -/
def Job.source? {α : Type} : Job α → Option (Found α)
  | .lost _ _ => none
  | .source found => some found

/-- The block that a job ends in. -/
def Job.block (printTokens : Bool) : Job (List UInt8) → Block
  | .lost argument reason => .ofLost argument reason
  | .source found => .ofSource printTokens found

/-- Where an argument leads in a file system. -/
def target {α : Type} (system : FileSystem α) (argument : String) : Target α :=
  ⟨argument, (system.resolve argument).mapError PathError.message⟩

/-- The jobs of a run, one argument after the other. -/
def agenda {α : Type} (system : FileSystem α) (options : Options) : List (Job α) :=
  options.paths.flatMap fun argument => (target system argument).jobs options.extension

/-! ## A run -/

/-- A job that was done, with what it printed. -/
structure Done (α : Type) where
  job : Job α
  block : Block

/-- What comes to be done: nothing is done behind a crash. -/
def upToCrash {α : Type} : List (Done α) → List (Done α)
  | [] => []
  | done :: later => if done.block.verdict = .crashed then [done] else done :: upToCrash later

/-- What a run does, in order. -/
def run (system : FileSystem (List UInt8)) (options : Options) : List (Done (List UInt8)) :=
  upToCrash ((agenda system options).map fun job => ⟨job, job.block options.tokens⟩)

/-- The sources among what was done. -/
def lexed {α : Type} (record : List (Done α)) : List (Found α) :=
  record.filterMap fun done => done.job.source?

/-- The outcome of a run. -/
structure Outcome where
  output : List String
  errors : List String
  exitCode : Nat
  deriving Repr, DecidableEq

/-- What is seen of a run from outside. -/
def Outcome.of {α : Type} (record : List (Done α)) : Outcome :=
  { output := record.flatMap fun done => done.block.output
    errors := record.flatMap fun done => done.block.errors
    exitCode :=
      if record.any fun done => done.block.verdict = .crashed then 101
      else if record.any fun done => done.block.verdict = .failed then 1
      else 0 }

end ScalaLexer.Command
