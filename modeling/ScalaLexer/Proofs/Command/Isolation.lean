import ScalaLexer.Proofs.Command.Agenda
import ScalaLexer.Proofs.Files.Contents
import ScalaLexer.Unicode.Release

/-!
# Failures in a run

A run does one job after the other and prints a block for each.  Two things are said
here about failures among them.

* **They are all counted.**  What the block of a job is depends on what is wrong with the
  job (`Shows`), and the run fails if and only if something is wrong with one of them
  (`Reports`).
* **They stay among themselves.**  Which jobs there are does not depend on what is in
  the files (`Agenda.map`).  When one file is rewritten, all jobs but that of the file
  are the same as before (`Agenda.rewritten`), and so are their blocks.

`failures_isolated` puts the two together.  The failure that they do not hold for is the one
that ends the program.
-/

namespace ScalaLexer.Command

/-! ## Jobs on other contents -/

section Jobs

variable {α β : Type} {extension argument : String} {system system' : FileSystem α}
  {options : Options} {jobs : List (Job α)} {job : Job α} {place : List String}

/-- The same job on other contents. -/
def Job.map (f : α → β) : Job α → Job β
  | .lost argument reason => .lost argument reason
  | .source found => .source ⟨found.place, f found.contents⟩

/-- Which jobs there are does not depend on what is in the files. -/
theorem Leads.map (f : α → β) (h : Leads system extension argument jobs) :
    Leads (system.map f) extension argument (jobs.map (Job.map f)) := by
  cases h with
  | lost hroute => exact .lost (hroute.map f)
  | walk hroute hholds hwalk =>
      have h := Leads.walk (hroute.map f) (hholds.map f) (hwalk.map f)
      rw [List.map_map] at h ⊢
      exact h

theorem Agenda.map (f : α → β) (h : Agenda system options jobs) :
    Agenda (system.map f) options (jobs.map (Job.map f)) := by
  obtain ⟨group, hgroup, rfl⟩ := h
  exact ⟨fun argument => (group argument).map (Job.map f),
    fun argument hargument => (hgroup argument hargument).map f, List.map_flatMap⟩

/-- A job is about an argument that leads nowhere or about a file of the file system. -/
theorem Agenda.of_mem (h : Agenda system options jobs) (hjob : job ∈ jobs) :
    (∃ argument reason, job = .lost argument reason) ∨
      ∃ place contents, system.root.Holds place (.file contents) ∧
        job = .source ⟨place, contents⟩ := by
  obtain ⟨group, hgroup, rfl⟩ := h
  obtain ⟨argument, hargument, hjob⟩ := List.mem_flatMap.mp hjob
  have hleads := hgroup argument hargument
  generalize group argument = jobs at hleads hjob
  cases hleads with
  | lost => exact .inl ⟨_, _, List.mem_singleton.mp hjob⟩
  | walk _ hholds hwalk =>
      obtain ⟨visit, hvisit, rfl⟩ := List.mem_map.mp hjob
      exact .inr ⟨_, _, hholds.append ((hwalk.mem visit).mp hvisit).1, rfl⟩

/-- The second job is the first one, unless the first one is to lex the file at this
place.  Then the second one is to lex it with something else in it. -/
inductive SameApartFrom (place : List String) : Job α → Job α → Prop
  | same (job : Job α) : SameApartFrom place job job
  | rewritten (old new : α) :
      SameApartFrom place (.source ⟨place, old⟩) (.source ⟨place, new⟩)

/-- When one file is rewritten, all jobs but that of the file stay the same. -/
theorem Agenda.rewritten (hroot : system.root.UniqueNames) (h : Agenda system options jobs)
    (hrewritten : FileSystem.Rewritten place system system') :
    system'.root.UniqueNames ∧ ∃ jobs', Agenda system' options jobs' ∧
      List.Forall₂ (SameApartFrom place) jobs jobs' := by
  obtain ⟨pairing, rfl, rfl, hpairing⟩ := hrewritten.exists_pairing
  have hpairs := agenda_holds (FileTree.UniqueNames.of_map hroot) options
  obtain rfl := (h.eq hroot).trans ((hpairs.map Prod.fst).eq hroot).symm
  refine ⟨(FileTree.UniqueNames.of_map hroot).map _, _, hpairs.map Prod.snd, ?_⟩
  rw [List.forall₂_map_left_iff, List.forall₂_map_right_iff, List.forall₂_same]
  intro job hjob
  rcases hpairs.of_mem hjob with
    ⟨argument, reason, rfl⟩ | ⟨names, ⟨old, new⟩, hholds, rfl⟩
  · exact .same _
  · rcases hpairing names old new hholds with rfl | rfl
    · exact .same _
    · exact .rewritten old new

end Jobs

/-! ## The outcome of a run -/

variable {system system' : FileSystem (List UInt8)} {options : Options}
  {jobs : List (Job (List UInt8))} {place : List String}

section

variable [Unicode.Repertoire]

/-- The outcome is that of a run that set out to do these jobs.  It did them in order and
printed their blocks one after the other, each as its job asks for.  The exit code tells
whether one of the jobs failed, unless one of them ended the program.  The log is no part of
an outcome. -/
structure Reports (printTokens : Bool) (jobs : List (Job (List UInt8))) (outcome : Outcome) :
    Prop where
  shows : ∀ job ∈ jobs, Shows printTokens job (job.block printTokens)
  printed : ∃ done, WorkedOff jobs done ∧
    outcome.output = done.flatMap (fun job => (job.block printTokens).output) ∧
    outcome.errors = done.flatMap (fun job => (job.block printTokens).errors)
  crashed : (∃ job ∈ jobs, job.Crashes) → outcome.exitCode = 101
  failed : (∀ job ∈ jobs, ¬ job.Crashes) → (∃ job ∈ jobs, job.Fails) → outcome.exitCode = 1
  passed : (∀ job ∈ jobs, ¬ job.Fails) → outcome.exitCode = 0

/-- The record of jobs that were all done. -/
def recordAll (printTokens : Bool) (done : List (Job (List UInt8))) : List (Done (List UInt8)) :=
  done.map fun job => ⟨job, job.block printTokens⟩

theorem recordAll_of_recordOf (printTokens : Bool) (jobs : List (Job (List UInt8))) :
    recordAll printTokens ((recordOf printTokens jobs).map Done.job) =
      recordOf printTokens jobs := by
  rw [recordAll, List.map_map]
  refine (List.map_congr_left fun done hdone => ?_).trans (List.map_id _)
  rw [Function.comp_apply, ← block_of_mem_recordOf hdone]
  rfl

theorem any_crashed_iff (printTokens : Bool) :
    ((recordAll printTokens jobs).any fun done => done.block.verdict = .crashed) = true ↔
      ∃ job ∈ jobs, job.Crashes := by
  rw [recordAll, List.any_map, List.any_eq_true]
  refine exists_congr fun job => and_congr_right fun _ => ?_
  exact decide_eq_true_iff.trans (shows_block printTokens job).crashed_iff

theorem any_failed_iff (printTokens : Bool) :
    ((recordAll printTokens jobs).any fun done => done.block.verdict = .failed) = true ↔
      ∃ job ∈ jobs, job.Fails ∧ ¬ job.Crashes := by
  rw [recordAll, List.any_map, List.any_eq_true]
  refine exists_congr fun job => and_congr_right fun _ => ?_
  exact decide_eq_true_iff.trans (shows_block printTokens job).failed_iff

theorem reports_recordOf (printTokens : Bool) (jobs : List (Job (List UInt8))) :
    Reports printTokens jobs (.of (recordOf printTokens jobs)) := by
  have hworked := workedOff_recordOf printTokens jobs
  rw [← recordAll_of_recordOf]
  generalize (recordOf printTokens jobs).map Done.job = done at hworked ⊢
  refine ⟨fun job _ => shows_block _ job, ⟨done, hworked, List.flatMap_map .., List.flatMap_map ..⟩,
    fun hcrashes => ?_, fun hsurvived hfails => ?_, fun hpasses => ?_⟩
  · have hcrashed : ∃ job ∈ done, job.Crashes := by
      by_contra hnone
      have hall : ∀ job ∈ done, ¬ job.Crashes := fun job hjob hcrash => hnone ⟨job, hjob, hcrash⟩
      exact hnone (hworked.eq_of_survived hall ▸ hcrashes)
    exact if_pos ((any_crashed_iff printTokens).mpr hcrashed)
  · obtain rfl := hworked.eq_of_survived fun job hjob => hsurvived job (hworked.begins.subset hjob)
    obtain ⟨job, hjob, hfail⟩ := hfails
    have hcrashed := mt (any_crashed_iff printTokens).mp
      fun ⟨job, hjob, hcrash⟩ => hsurvived job hjob hcrash
    exact (if_neg hcrashed).trans
      (if_pos ((any_failed_iff printTokens).mpr ⟨job, hjob, hfail, hsurvived job hjob⟩))
  · have hdone : ∀ job ∈ done, ¬ job.Fails := fun job hjob =>
      hpasses job (hworked.begins.subset hjob)
    have hcrashed := mt (any_crashed_iff printTokens).mp
      fun ⟨job, hjob, hcrash⟩ => hdone job hjob hcrash.fails
    have hfailed := mt (any_failed_iff printTokens).mp
      fun ⟨job, hjob, hfail, _⟩ => hdone job hjob hfail
    exact (if_neg hcrashed).trans (if_neg hfailed)

/-- Failures are counted and stay among themselves.  A run has a list of jobs, fixed by
its arguments and by which files there are.  It prints the blocks of the jobs in their
order, and it fails if and only if one of the jobs does.  If one file is rewritten, no
other job changes, and so no other block does. -/
theorem failures_isolated (hroot : system.root.UniqueNames) (options : Options) :
    ∃ jobs, Agenda system options jobs ∧
      Reports options.tokens jobs (.of (run system options)) ∧
      ∀ place system', FileSystem.Rewritten place system system' →
        ∃ jobs', Agenda system' options jobs' ∧
          Reports options.tokens jobs' (.of (run system' options)) ∧
          List.Forall₂ (SameApartFrom place) jobs jobs' := by
  have hagenda := agenda_holds hroot options
  refine ⟨_, hagenda, ?_, fun place system' hrewritten => ?_⟩
  · rw [run_eq_recordOf hroot hagenda]
    exact reports_recordOf _ _
  · obtain ⟨hroot', jobs', hagenda', hsame⟩ := hagenda.rewritten hroot hrewritten
    rw [run_eq_recordOf hroot' hagenda']
    exact ⟨jobs', hagenda', reports_recordOf _ _, hsame⟩

end

/-- Every kind of failure beside a file without one, which is then rewritten to fail. -/
theorem failures_isolated_mixed :
    let system (good : UInt8) : FileSystem (List UInt8) := .mounting (.directory [("src", .directory
      [("a.scala", .file [0x7D]), ("b.scala", .file [good]), ("c.scala", .file [0xFF])])]) ["home"]
    let options : Options := ⟨["src", "gone", "/home/src/c.scala"], "scala", true, false⟩
    (system 0x62).root.UniqueNames ∧
      FileSystem.Rewritten ["home", "src", "b.scala"] (system 0x62) (system 0x29) ∧
      ∃ jobs, Agenda (system 0x62) options jobs ∧
        Reports true jobs (.of (run (system 0x62) options)) ∧
        ∃ jobs', Agenda (system 0x29) options jobs' ∧
          Reports true jobs' (.of (run (system 0x29) options)) ∧
          List.Forall₂ (SameApartFrom ["home", "src", "b.scala"]) jobs jobs' := by
  intro system options
  have hroot : (system 0x62).root.UniqueNames :=
    FileSystem.uniqueNames_mounting (FileTree.ofFiles_uniqueNames
      [("src/a.scala", [0x7D]), ("src/b.scala", [0x62]), ("src/c.scala", [0xFF])]) _
  have hrewritten : FileSystem.Rewritten ["home", "src", "b.scala"] (system 0x62) (system 0x29) :=
    ⟨.directory [] [] (.directory [] []
      (.directory [("a.scala", .file [0x7D])] [("c.scala", .file [0xFF])]
        (.file [0x62] [0x29]))), rfl⟩
  obtain ⟨jobs, hagenda, hreports, hisolated⟩ := failures_isolated hroot options
  exact ⟨hroot, hrewritten, jobs, hagenda, hreports, hisolated _ _ hrewritten⟩

/-- With a long broken line the exit code is neither that of a failure nor that of a
success. -/
theorem failures_isolated_crashed :
    ¬ ∀ (system : FileSystem (List UInt8)) (options : Options), system.root.UniqueNames →
      (Outcome.of (run system options)).exitCode = 0 ∨
        (Outcome.of (run system options)).exitCode = 1 := by
  intro hclaim
  let options : Options := ⟨["a.scala", "b.scala"], "scala", true, false⟩
  have hroot := twoFiles_uniqueNames (brokenLine 65535) [0x62]
  have hagenda := agenda_holds hroot options
  have hreports := reports_recordOf options.tokens
    (agenda (twoFiles (brokenLine 65535) [0x62]) options)
  rw [← run_eq_recordOf hroot hagenda] at hreports
  have hcode := hclaim _ options hroot
  rw [hreports.crashed ⟨_, by rw [agenda_twoFiles]; exact List.mem_cons_self,
    crashes_brokenLine (le_refl _) (by decide) _⟩] at hcode
  exact absurd hcode (by decide)

end ScalaLexer.Command
