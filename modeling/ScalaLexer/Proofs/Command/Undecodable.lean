import ScalaLexer.Proofs.Command.Isolation
import ScalaLexer.Unicode.Release

/-!
# What a run reports of files that are no texts

The reports of a run are those of the jobs that it did, one after the other.  That of a
file that is no text shows the line of the first malformed byte
(`Diagnostic.report_malformed`), and it has a caret unless it breaks off
(`undecodable_reported`).
-/

namespace ScalaLexer.Command

variable {system : FileSystem (List UInt8)} {source : Found (List UInt8)}
  {valid : List Char} {byte : UInt8}

theorem errors_block [Unicode.Repertoire] (printTokens : Bool)
    (hstops : Utf8.StopsAt source.contents valid byte) :
    ((Job.source source).block printTokens).errors =
      (decodingFailure source valid byte).report source.path
        (Utf8.decodeLossy source.contents) := by
  rw [block_of_stopsAt printTokens hstops, Block.ofUndecodable]
  split <;> rfl

/-- The report of an undecodable file shows the right line.  What a run reports are the
reports of the jobs that it did, one after the other.  For every file among them that is no
text, the report goes on behind the path with the number and the text of the line in which
the first malformed byte stands.  The number is one more than there are line feeds before
that byte; the text is the lossy decoding of that line alone, without the indent and without
the white space at its end.  Below it stands a caret, unless too many bytes are in front of
it. -/
theorem undecodable_reported [Unicode.Repertoire] (hroot : system.root.UniqueNames)
    (options : Options) :
    ∃ jobs done, Agenda system options jobs ∧ WorkedOff jobs done ∧
      (Outcome.of (run system options)).errors =
        done.flatMap (fun job => (job.block options.tokens).errors) ∧
      ∀ source, .source source ∈ done → source.contents.length < UInt32.size →
        (∀ text, Utf8.encode text ≠ source.contents) →
        Diagnostic.ReportsMalformed source.path source.contents
          ((Job.source source).block options.tokens).errors := by
  have hagenda := agenda_holds hroot options
  obtain ⟨done, hworked, _, herrors⟩ :=
    (reports_recordOf options.tokens (agenda system options)).printed
  rw [← run_eq_recordOf hroot hagenda] at herrors
  refine ⟨_, done, hagenda, hworked, herrors, fun source _ hshort hinvalid => ?_⟩
  obtain ⟨valid, byte, hstops⟩ := Utf8.exists_stopsAt hinvalid
  rw [errors_block options.tokens hstops]
  exact Diagnostic.report_malformed source.name source.path hstops
    (hstops.length_lt.trans hshort)

/-- A character is cut off behind the indent of the second line. -/
theorem undecodable_reported_cut :
    let contents : List UInt8 := [0x61, 0x0A, 0x09, 0x62, 0xE2, 0x82, 0x20, 0x0A, 0x63]
    let system := twoFiles contents [0x62]
    let options : Options := ⟨["a.scala", "b.scala"], "scala", false, false⟩
    let source : Found (List UInt8) := ⟨["src", "a.scala"], contents⟩
    system.root.UniqueNames ∧
      ∃ jobs done, Agenda system options jobs ∧ WorkedOff jobs done ∧
        (Outcome.of (run system options)).errors =
          done.flatMap (fun job => (job.block options.tokens).errors) ∧
        .source source ∈ done ∧ source.contents.length < UInt32.size ∧
        (∀ text, Utf8.encode text ≠ source.contents) ∧
        Diagnostic.ReportsMalformed source.path source.contents
          ((Job.source source).block options.tokens).errors := by
  intro contents system options source
  have hroot : system.root.UniqueNames := twoFiles_uniqueNames _ _
  obtain ⟨jobs, done, hagenda, hworked, herrors, hall⟩ := undecodable_reported hroot options
  have hinvalid : ∀ text, Utf8.encode text ≠ contents := by
    intro text htext
    have hnone := Utf8.decode_malformed_eq_none_iff.mpr ⟨text, htext⟩
    exact absurd hnone (by decide)
  have hmem : .source source ∈ done := by
    rw [hagenda.eq hroot, agenda_twoFiles] at hworked
    exact hworked.head_mem
  exact ⟨hroot, jobs, done, hagenda, hworked, herrors, hmem, by decide, hinvalid,
    hall source hmem (by decide) hinvalid⟩

/-- The report on a long broken line has no caret. -/
theorem undecodable_reported_brokenOff :
    ¬ ∀ (system : FileSystem (List UInt8)) (options : Options) (source : Found (List UInt8))
        (block : Block), system.root.UniqueNames → ⟨.source source, block⟩ ∈ run system options →
      source.contents.length < UInt32.size → (∀ text, Utf8.encode text ≠ source.contents) →
        block.errors.length = 5 := by
  intro hclaim
  let options : Options := ⟨["a.scala", "b.scala"], "scala", false, false⟩
  let source : Found (List UInt8) := ⟨["src", "a.scala"], brokenLine 65535⟩
  have hroot := twoFiles_uniqueNames (brokenLine 65535) [0x62]
  have hstops : Utf8.StopsAt source.contents _ _ := stopsAt_brokenLine 65535
  have hcrashes : (Job.source source).Crashes := crashes_brokenLine (le_refl _) (by decide) _
  have hrun : ⟨.source source, (Job.source source).block false⟩ ∈
      run (twoFiles (brokenLine 65535) [0x62]) options := by
    have hcrash := (shows_block false (.source source)).crashed_iff.mpr hcrashes
    rw [run_eq_recordOf hroot (agenda_holds hroot options), agenda_twoFiles, recordOf_cons,
      if_pos hcrash]
    exact List.mem_singleton_self _
  have hlength : source.contents.length < UInt32.size := by
    rw [length_brokenLine]
    decide
  have hrows := hclaim _ options source _ hroot hrun hlength hstops.ne_encode
  rw [errors_block false hstops,
    Diagnostic.length_report_of_breaksOff _ ((crashes_iff hstops).mp hcrashes)] at hrows
  exact absurd hrows (by decide)

end ScalaLexer.Command
