import ScalaLexer.Command.Lex
import ScalaLexer.Proofs.Diagnostic.Malformed
import ScalaLexer.Proofs.Lexer.Exhaustion

/-!
# What a job prints

What is printed about a job can be said by what is wrong with it.  There are five cases:

* an argument leads nowhere;
* a file is no text, and the report on it is printed in full;
* a file is no text, and the report on it breaks off, which ends the program;
* a file is a text with an error token in its stream;
* nothing is wrong.

`Shows` lists them with the lines that are printed, and `shows_block` finds the block of
every job on the list.  The list speaks of the bytes of a file and of the tokens that a
lexer is exhausted of, not of how a block is put together.
-/

namespace ScalaLexer.Command

/-! ## What ends the program -/

/-- The job ends the program: the file is no text, and the place where it stops being one
is too far to the right on its line. -/
inductive Job.Crashes : Job (List UInt8) → Prop
  | report {source : Found (List UInt8)} {valid content : List Char} {byte : UInt8} :
      Utf8.StopsAt source.contents valid byte → Utf8.Lossy source.contents content →
      Diagnostic.TooWide content ((Utf8.encode valid).length % UInt32.size) →
      Crashes (.source source)

/-- The failure to decode a file. -/
def decodingFailure (source : Found (List UInt8)) (valid : List Char) (byte : UInt8) : Diagnostic :=
  ⟨.invalidEncoding byte, ⟨.ofNat (Utf8.encode valid).length, source.name⟩⟩

theorem crashes_iff {source : Found (List UInt8)} {valid : List Char} {byte : UInt8}
    (hstops : Utf8.StopsAt source.contents valid byte) :
    (Job.source source).Crashes ↔
      (decodingFailure source valid byte).breaksOff (Utf8.decodeLossy source.contents) = true := by
  rw [Diagnostic.breaksOff_iff]
  constructor
  · rintro ⟨hstops', hlossy, hwide⟩
    obtain ⟨rfl, rfl⟩ := hstops.unique hstops'
    rw [Utf8.lossy_iff.mp hlossy]
    exact hwide
  · exact fun hwide => .report hstops (Utf8.lossy_iff.mpr rfl) hwide

/-- A line of so many letters and a byte that stands in no text. -/
def brokenLine (letters : Nat) : List UInt8 :=
  List.replicate letters 0x61 ++ [0xFF]

theorem length_brokenLine (letters : Nat) : (brokenLine letters).length = letters + 1 := by
  simp [brokenLine]

theorem brokenLine_eq (letters : Nat) :
    brokenLine letters = Utf8.encode (List.replicate letters 'a') ++ [0xFF] := by
  have hletters : List.replicate letters 0x61 = Utf8.encode (List.replicate letters 'a') := by
    induction letters with
    | zero => rfl
    | succ letters ih =>
        rw [List.replicate_succ, List.replicate_succ, Utf8.encode_cons, ← ih]
        rfl
  rw [brokenLine, hletters]

theorem stopsAt_brokenLine (letters : Nat) :
    Utf8.StopsAt (brokenLine letters) (List.replicate letters 'a') 0xFF := by
  rw [brokenLine_eq]
  exact .of_malformed _ (.noLead (by decide))

theorem byteLength_letters (letters : Nat) :
    Utf8.byteLength (List.replicate letters 'a') = letters := by
  have hsingle : ∀ c ∈ List.replicate letters 'a', c.utf8Size = 1 := fun c hc => by
    rw [List.eq_of_mem_replicate hc]
    rfl
  rw [Utf8.byteLength_eq_length_iff.mpr hsingle, List.length_replicate]

/-- A line that is long enough ends the program. -/
theorem crashes_brokenLine {letters : Nat} (hlong : 65535 ≤ letters)
    (hshort : letters < UInt32.size) (place : List String) :
    (Job.source ⟨place, brokenLine letters⟩).Crashes := by
  have hcut : CutAtMalformed [] (List.replicate letters 'a') [0xFF] [] :=
    ⟨.inl rfl, by simp, .noLead (by decide), by decide, .inl rfl⟩
  have hletters : (List.replicate letters 'a').dropWhile Diagnostic.isIndent =
      List.replicate letters 'a' := by
    rw [List.dropWhile_replicate]
    rfl
  have hwide := Diagnostic.tooWide_of_cut hcut (by rwa [hletters, byteLength_letters])
  rw [List.nil_append, List.append_nil, ← brokenLine_eq, Utf8.length_encode,
    byteLength_letters] at hwide
  refine .report (stopsAt_brokenLine letters) (Utf8.lossy_iff.mpr rfl) ?_
  rwa [Utf8.length_encode, byteLength_letters, Nat.mod_eq_of_lt hshort]

/-! ## What is printed -/

/-- The lines of a stream, if they are asked for. -/
def listing (printTokens : Bool) (tokens : List Token) : List String :=
  if printTokens then
    tokens.map fun token => "(" ++ token.kind.name ++ " " ++ token.value ++ ")"
  else []

variable [Unicode.Repertoire]

/-- The job fails: the argument leads nowhere, or the file is not the encoding of a text,
or there is an error token in its stream. -/
inductive Job.Fails : Job (List UInt8) → Prop
  | lost (argument reason : String) : Fails (.lost argument reason)
  | undecodable {source : Found (List UInt8)} :
      (∀ text, Utf8.encode text ≠ source.contents) → Fails (.source source)
  | errorToken {source : Found (List UInt8)} {tokens : List Token} {token : Token}
      {failure : Option Diagnostic} {final : Lexer} :
      (Lexer.ofBytes source.contents source.name).Exhausts tokens failure final →
      token ∈ tokens → token.isError = true → Fails (.source source)

theorem Job.Crashes.fails {job : Job (List UInt8)} (h : job.Crashes) : job.Fails := by
  obtain ⟨hstops, _, _⟩ := h
  exact .undecodable hstops.ne_encode

/-- What is printed about a job.  A file that is no text shows where it stops being one
and none of its tokens.  A text shows all of its tokens, if they are asked for, and
behind them the first error token, if there is one. -/
inductive Shows (printTokens : Bool) : Job (List UInt8) → Block → Prop
  | lost (argument reason : String) :
      Shows printTokens (.lost argument reason) ⟨[argument ++ ": " ++ reason], [], .failed⟩
  | undecodable {source : Found (List UInt8)} {valid : List Char} {byte : UInt8}
      (errors : List String) :
      Utf8.StopsAt source.contents valid byte → ¬ (Job.source source).Crashes →
      Shows printTokens (.source source)
        { output := ["Failed processing " ++ source.path ++ " with error " ++
            ("invalid UTF-8 sequence starting with byte 0x" ++
              String.ofList [Nat.digitChar (byte.toNat / 16), Nat.digitChar (byte.toNat % 16)] ++
              " at " ++ source.name ++ ":" ++ Nat.repr ((Utf8.encode valid).length % UInt32.size))]
          errors
          verdict := .failed }
  | crash {source : Found (List UInt8)} (errors : List String) :
      (Job.source source).Crashes → Shows printTokens (.source source) ⟨[], errors, .crashed⟩
  | errorToken {source : Found (List UInt8)} {text : List Char} {before behind : List Token}
      {token : Token} {final : Lexer} :
      source.contents = Utf8.encode text →
      (Lexer.ofBytes source.contents source.name).Exhausts (before ++ token :: behind) none
        final →
      (∀ earlier ∈ before, earlier.kind ≠ .error) → token.kind = .error →
      Shows printTokens (.source source)
        { output := listing printTokens (before ++ token :: behind) ++
            ["Failed processing " ++ source.path ++ " with error " ++
              ("(ERROR " ++ token.value ++ ")")]
          errors := []
          verdict := .failed }
  | clean {source : Found (List UInt8)} {text : List Char} {tokens : List Token}
      {final : Lexer} :
      source.contents = Utf8.encode text →
      (Lexer.ofBytes source.contents source.name).Exhausts tokens none final →
      (∀ token ∈ tokens, token.kind ≠ .error) →
      Shows printTokens (.source source) ⟨listing printTokens tokens, [], .passed⟩

/-! ## The block of a job -/

theorem block_of_stopsAt (printTokens : Bool) {source : Found (List UInt8)} {valid : List Char}
    {byte : UInt8} (hstops : Utf8.StopsAt source.contents valid byte) :
    (Job.source source).block printTokens =
      .ofUndecodable source (decodingFailure source valid byte) := by
  obtain ⟨tokens, failure, final, h⟩ :=
    Lexer.exists_exhausts (Lexer.ofBytes source.contents source.name)
  have hresult := h.tokens_eq.1
  rcases h.failure_of_ofBytes with ⟨_, text, htext⟩ | ⟨valid', byte', rest, hsource, hlongest, rfl⟩
  · exact absurd htext (hstops.ne_encode text)
  · obtain ⟨rfl, rfl⟩ := hstops.unique ⟨⟨rest, hsource⟩, hlongest⟩
    rw [Job.block, Block.ofSource, hresult]
    rfl

omit [Unicode.Repertoire] in
theorem isError_eq_false_iff {token : Token} : token.isError = false ↔ token.kind ≠ .error := by
  simp [Token.isError]

/-- The block of every job is what is printed about it. -/
theorem shows_block (printTokens : Bool) (job : Job (List UInt8)) :
    Shows printTokens job (job.block printTokens) := by
  cases job with
  | lost argument reason => exact .lost argument reason
  | source source =>
      obtain ⟨tokens, failure, final, h⟩ :=
        Lexer.exists_exhausts (Lexer.ofBytes source.contents source.name)
      rcases h.failure_of_ofBytes with ⟨rfl, text, htext⟩ |
        ⟨valid, byte, rest, hsource, hlongest, _⟩
      · have hresult := h.tokens_eq.1
        rw [Job.block, Block.ofSource, hresult]
        dsimp only [Lexer.outcome]
        cases herror : tokens.find? Token.isError with
        | some token =>
            obtain ⟨htoken, before, behind, rfl, hbefore⟩ :=
              List.find?_eq_some_iff_append.mp herror
            have hkind : token.kind = .error := of_decide_eq_true htoken
            dsimp only
            rw [Token.render, hkind]
            exact .errorToken htext.symm h
              (fun earlier hearlier =>
                isError_eq_false_iff.mp ((Bool.not_eq_true' _).mp (hbefore earlier hearlier)))
              hkind
        | none =>
            exact .clean htext.symm h fun token htoken => isError_eq_false_iff.mp
              (Bool.eq_false_iff.mpr (List.find?_eq_none.mp herror token htoken))
      · have hstops : Utf8.StopsAt source.contents valid byte := ⟨⟨rest, hsource⟩, hlongest⟩
        rw [block_of_stopsAt printTokens hstops, Block.ofUndecodable]
        split
        · next hbreaks => exact .crash _ ((crashes_iff hstops).mpr hbreaks)
        · next hbreaks => exact .undecodable _ hstops (mt (crashes_iff hstops).mp hbreaks)

variable {printTokens : Bool} {job : Job (List UInt8)} {block : Block}

/-- A block tells of a crash if and only if its job crashes. -/
theorem Shows.crashed_iff (h : Shows printTokens job block) :
    block.verdict = .crashed ↔ job.Crashes := by
  cases h with
  | lost argument reason => exact ⟨nofun, nofun⟩
  | undecodable _ _ hcrashes => exact ⟨nofun, fun h => absurd h hcrashes⟩
  | crash _ hcrashes => exact ⟨fun _ => hcrashes, fun _ => rfl⟩
  | errorToken htext =>
      refine ⟨nofun, fun hcrashes => ?_⟩
      obtain ⟨hstops, _, _⟩ := hcrashes
      exact absurd htext.symm (hstops.ne_encode _)
  | clean htext =>
      refine ⟨nofun, fun hcrashes => ?_⟩
      obtain ⟨hstops, _, _⟩ := hcrashes
      exact absurd htext.symm (hstops.ne_encode _)

/-- A block is marked as passed if and only if its job does not fail. -/
theorem Shows.passed_iff (h : Shows printTokens job block) :
    block.verdict = .passed ↔ ¬ job.Fails := by
  cases h with
  | lost argument reason => exact ⟨nofun, fun h => absurd (.lost argument reason) h⟩
  | undecodable _ hstops _ =>
      exact ⟨nofun, fun h => absurd (.undecodable hstops.ne_encode) h⟩
  | crash _ hcrashes => exact ⟨nofun, fun h => absurd hcrashes.fails h⟩
  | errorToken _ h _ hkind =>
      have hfails : (Job.source _).Fails :=
        .errorToken h List.mem_append_cons_self (decide_eq_true hkind)
      exact ⟨nofun, fun hpasses => absurd hfails hpasses⟩
  | clean htext h hclean =>
      refine ⟨fun _ hfails => ?_, fun _ => rfl⟩
      cases hfails with
      | undecodable hinvalid => exact absurd htext.symm (hinvalid _)
      | errorToken h' htoken herror =>
          obtain ⟨rfl, _⟩ := h.unique h'
          exact hclean _ htoken (of_decide_eq_true herror)

/-- The third verdict is what the other two leave. -/
theorem Shows.failed_iff (h : Shows printTokens job block) :
    block.verdict = .failed ↔ job.Fails ∧ ¬ job.Crashes := by
  rw [← h.crashed_iff, ← not_not (a := job.Fails), ← h.passed_iff]
  cases block.verdict <;> decide

end ScalaLexer.Command
