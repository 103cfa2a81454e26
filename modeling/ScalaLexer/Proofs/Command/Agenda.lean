import ScalaLexer.Proofs.Command.Block
import ScalaLexer.Proofs.Files.Resolve
import ScalaLexer.Proofs.Files.Walk
import ScalaLexer.Unicode.Release

/-!
# What a run does

Which files a run lexes is said in two steps.

* `Agenda` is the list of jobs that the arguments ask for.  An argument that leads nowhere
  is to be reported, and that is all.  Any other one leads to a file or a directory, and
  there is a job for every file that a walk from there meets.  There is one such list, and
  it is the one that the program makes (`Agenda.eq`).
* `WorkedOff` says how far a run comes with its list.  It does the jobs in order, and it
  does all of them unless one of them ends the program.

`lexed_in_order` puts the two together.
-/

namespace ScalaLexer.Command

/-! ## The jobs of a run -/

section Agenda

variable {α : Type} {system : FileSystem α} {extension argument : String} {options : Options}
  {jobs jobs' : List (Job α)}

/-- The jobs that an argument leads to: to say that it leads nowhere, or to lex the files
that a walk meets from where it leads. -/
inductive Leads (system : FileSystem α) (extension argument : String) : List (Job α) → Prop
  | lost {error : PathError} : system.Route argument (.error error) →
      Leads system extension argument [.lost argument error.message]
  | walk {names : List String} {tree : FileTree α} {visits : List (Visit α)} :
      system.Route argument (.ok names) → system.root.Holds names tree →
      tree.Walk extension (names.getLastD "") visits →
      Leads system extension argument (visits.map fun visit => .source (visit.foundAt names))

/-- The jobs of a run: those of its arguments, one argument after the other. -/
def Agenda (system : FileSystem α) (options : Options) (jobs : List (Job α)) : Prop :=
  ∃ group : String → List (Job α),
    (∀ argument ∈ options.paths, Leads system options.extension argument (group argument)) ∧
      jobs = options.paths.flatMap group

theorem Leads.unique (hroot : system.root.UniqueNames)
    (h : Leads system extension argument jobs) (h' : Leads system extension argument jobs') :
    jobs = jobs' := by
  cases h with
  | lost hroute =>
      cases h' with
      | lost hroute' =>
          cases hroute.unique hroot hroute'
          rfl
      | walk hroute' => cases hroute.unique hroot hroute'
  | walk hroute hholds hwalk =>
      cases h' with
      | lost hroute' => cases hroute.unique hroot hroute'
      | walk hroute' hholds' hwalk' =>
          cases hroute.unique hroot hroute'
          cases hholds.unique hroot hholds'
          rw [hwalk.unique hwalk']

/-- The program finds these jobs for an argument. -/
theorem leads_target (hroot : system.root.UniqueNames) (extension argument : String) :
    Leads system extension argument ((target system argument).jobs extension) := by
  have hroute := system.route_resolve argument
  rw [target, Target.jobs]
  cases hresolve : system.resolve argument with
  | error error =>
      rw [hresolve] at hroute
      exact .lost hroute
  | ok found =>
      obtain ⟨names, tree⟩ := found
      rw [hresolve] at hroute
      have hholds := FileSystem.holds_of_resolve hresolve
      obtain ⟨visits, hwalk, hsources⟩ :=
        FileTree.exists_walk extension names (hholds.uniqueNames hroot)
      dsimp only [Except.mapError]
      rw [hsources, List.map_map]
      exact .walk hroute hholds hwalk

theorem agenda_holds (hroot : system.root.UniqueNames) (options : Options) :
    Agenda system options (agenda system options) :=
  ⟨_, fun argument _ => leads_target hroot options.extension argument, rfl⟩

/-- There is one list of jobs, and it is the one that is worked through. -/
theorem Agenda.eq (hroot : system.root.UniqueNames) (h : Agenda system options jobs) :
    jobs = agenda system options := by
  obtain ⟨group, hgroup, rfl⟩ := h
  exact List.flatMap_congr fun argument hargument =>
    (hgroup argument hargument).unique hroot (leads_target hroot options.extension argument)

end Agenda

/-! ## How far a run comes -/

variable {system : FileSystem (List UInt8)} {options : Options}
  {jobs : List (Job (List UInt8))}

/-- These jobs were done: all of them, or those up to the first one that ends the
program. -/
structure WorkedOff (jobs done : List (Job (List UInt8))) : Prop where
  begins : done <+: jobs
  survived : ∀ job ∈ done.dropLast, ¬ job.Crashes
  ends : done = jobs ∨ ∃ job, done.getLast? = some job ∧ job.Crashes

theorem WorkedOff.eq_of_survived {done : List (Job (List UInt8))} (h : WorkedOff jobs done)
    (hsurvived : ∀ job ∈ done, ¬ job.Crashes) : done = jobs := by
  refine h.ends.resolve_right ?_
  rintro ⟨job, hlast, hcrashes⟩
  exact hsurvived job (List.mem_of_getLast? hlast) hcrashes

/-- The first job is done in any case. -/
theorem WorkedOff.head_mem {job : Job (List UInt8)} {done : List (Job (List UInt8))}
    (h : WorkedOff (job :: jobs) done) : job ∈ done := by
  cases done with
  | nil =>
      rcases h.ends with hnone | ⟨_, hlast, _⟩
      · cases hnone
      · cases hlast
  | cons first done =>
      obtain ⟨rfl, _⟩ := List.cons_prefix_cons.mp h.begins
      exact List.mem_cons_self

section

variable [Unicode.Repertoire]

/-- The record of the jobs, as far as they come to be done. -/
def recordOf (printTokens : Bool) (jobs : List (Job (List UInt8))) : List (Done (List UInt8)) :=
  upToCrash (jobs.map fun job => ⟨job, job.block printTokens⟩)

theorem recordOf_cons (printTokens : Bool) (job : Job (List UInt8))
    (jobs : List (Job (List UInt8))) :
    recordOf printTokens (job :: jobs) =
      if (job.block printTokens).verdict = .crashed then [⟨job, job.block printTokens⟩]
      else ⟨job, job.block printTokens⟩ :: recordOf printTokens jobs :=
  rfl

theorem block_of_mem_recordOf {printTokens : Bool} {done : Done (List UInt8)}
    (h : done ∈ recordOf printTokens jobs) : done.block = done.job.block printTokens := by
  induction jobs with
  | nil => cases h
  | cons job jobs ih =>
      rw [recordOf_cons] at h
      split at h
      · rw [List.mem_singleton.mp h]
      · rcases List.mem_cons.mp h with rfl | hlater
        · rfl
        · exact ih hlater

theorem workedOff_recordOf (printTokens : Bool) (jobs : List (Job (List UInt8))) :
    WorkedOff jobs ((recordOf printTokens jobs).map Done.job) := by
  induction jobs with
  | nil => exact ⟨List.nil_prefix, nofun, .inl rfl⟩
  | cons job jobs ih =>
      have hcrashes := (shows_block printTokens job).crashed_iff
      rw [recordOf_cons]
      split
      · next hcrashed =>
          exact ⟨List.prefix_append [job] jobs, nofun, .inr ⟨job, rfl, hcrashes.mp hcrashed⟩⟩
      · next hsurvived =>
          rw [List.map_cons]
          generalize (recordOf printTokens jobs).map Done.job = done at ih ⊢
          obtain ⟨hbegins, hearlier, hends⟩ := ih
          refine ⟨List.cons_prefix_cons.mpr ⟨rfl, hbegins⟩, fun other hother => ?_, ?_⟩
          · cases done with
            | nil => cases hother
            | cons next done =>
                rw [List.dropLast_cons_cons] at hother
                rcases List.mem_cons.mp hother with rfl | hlater
                · exact mt hcrashes.mpr hsurvived
                · exact hearlier other hlater
          · refine hends.imp (congrArg (job :: ·)) ?_
            rintro ⟨last, hlast, hcrash⟩
            exact ⟨last, by rw [List.getLast?_cons, hlast]; rfl, hcrash⟩

theorem run_eq_recordOf (hroot : system.root.UniqueNames) (h : Agenda system options jobs) :
    run system options = recordOf options.tokens jobs := by
  rw [h.eq hroot, run, recordOf]

/-- A run lexes the files that its arguments ask for, one argument after the other, in the
order in which a walk meets them.  It lexes all of them unless the report on one of them
breaks off; then that one is the last. -/
theorem lexed_in_order (hroot : system.root.UniqueNames) (options : Options) :
    ∃ jobs done, Agenda system options jobs ∧ WorkedOff jobs done ∧
      lexed (run system options) = done.filterMap Job.source? := by
  refine ⟨_, _, agenda_holds hroot options, workedOff_recordOf options.tokens _, ?_⟩
  rw [lexed, List.filterMap_map]
  rfl

end

/-- Arguments that overlap, one that leads nowhere, one from the root and one of a hidden
name. -/
theorem lexed_in_order_overlapping :
    let system : FileSystem (List UInt8) := .mounting (.ofFiles [("src/b.scala", [0x62]),
      ("src/.git/c.scala", [0x63]), ("src/a.scala/d.scala", [0x64])]) ["home"]
    let options : Options :=
      ⟨["src", "gone", "/home/src/a.scala", "../home/src/.git"], "scala", false, false⟩
    system.root.UniqueNames ∧
      ∃ jobs done, Agenda system options jobs ∧ WorkedOff jobs done ∧
        lexed (run system options) = done.filterMap Job.source? := by
  intro system options
  have hroot : system.root.UniqueNames :=
    FileSystem.uniqueNames_mounting (FileTree.ofFiles_uniqueNames _) _
  exact ⟨hroot, lexed_in_order hroot options⟩

/-- A directory with two files in it, where one works. -/
def twoFiles (first second : List UInt8) : FileSystem (List UInt8) :=
  .mounting (.directory [("a.scala", .file first), ("b.scala", .file second)]) ["src"]

theorem twoFiles_uniqueNames (first second : List UInt8) :
    (twoFiles first second).root.UniqueNames :=
  FileSystem.uniqueNames_mounting
    (FileTree.ofFiles_uniqueNames [("a.scala", first), ("b.scala", second)]) _

theorem agenda_twoFiles (first second : List UInt8) (printTokens verbose : Bool) :
    agenda (twoFiles first second) ⟨["a.scala", "b.scala"], "scala", printTokens, verbose⟩ =
      [.source ⟨["src", "a.scala"], first⟩, .source ⟨["src", "b.scala"], second⟩] := by
  have hfirst : (twoFiles first second).resolve "a.scala" =
      .ok (["src", "a.scala"], .file first) := rfl
  have hsecond : (twoFiles first second).resolve "b.scala" =
      .ok (["src", "b.scala"], .file second) := rfl
  have hextension : FileName.extension? "a.scala" = some "scala" ∧
      FileName.extension? "b.scala" = some "scala" := by decide
  simp [agenda, target, Target.jobs, hfirst, hsecond, Except.mapError, FileTree.sources, hextension]

/-- The file behind one with a long broken line is not lexed. -/
theorem lexed_in_order_cutShort :
    ¬ ∀ (system : FileSystem (List UInt8)) (options : Options) (jobs : List (Job (List UInt8))),
      system.root.UniqueNames → Agenda system options jobs →
        lexed (run system options) = jobs.filterMap Job.source? := by
  intro hclaim
  let system := twoFiles (brokenLine 65535) [0x29]
  let options : Options := ⟨["a.scala", "b.scala"], "scala", false, false⟩
  have hroot : system.root.UniqueNames := twoFiles_uniqueNames _ _
  have hagenda := agenda_holds hroot options
  have hlexed := hclaim system options _ hroot hagenda
  have hshows := shows_block false (.source ⟨["src", "a.scala"], brokenLine 65535⟩)
  have hcrash := hshows.crashed_iff.mpr (crashes_brokenLine (le_refl _) (by decide) _)
  rw [run_eq_recordOf hroot hagenda, agenda_twoFiles, recordOf_cons, if_pos hcrash] at hlexed
  cases hlexed

end ScalaLexer.Command
