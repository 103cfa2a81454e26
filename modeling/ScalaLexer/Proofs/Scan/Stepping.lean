import ScalaLexer.Proofs.Scan.CodePoint
import ScalaLexer.Proofs.Scan.Comment

/-!
# Looking and reading, character by character

`Scan.peek` and `Scan.readWhile` look at all the text ahead at once.  Both can be done by
single steps.

* To look `n` characters ahead is to read on a copy of the cursor, one character at a time
  (`peek_eq_look`), or to decode from offset to offset without a cursor
  (`answer_readNth_eq_decodeNth`).  Whatever fails on the way fails the look.
* To read a run of characters is to read one, to take it back if it is not wanted, and to
  begin again if it is (`repeats_readWhile`).  `RunsTo` says where that ends: in front of
  the first character that is not wanted, at the end of the source, or at a malformed byte
  that comes before.
-/

namespace ScalaLexer

/-- To read nothing moves nothing. -/
theorem Cursor.advance_nil (cursor : Cursor) : cursor.advance [] cursor.ahead = cursor := by
  simp [Cursor.advance]

namespace Scan

variable {source : List UInt8} {cursor : Cursor}

/-! ## Looking -/

/-- The character that is read last when `n` are read before it. -/
def readNth : Nat → Scan (Option Char)
  | 0 => next
  | n + 1 => do
    let _ ← next
    readNth n

/-- What the scan answers, without the place where it leaves the cursor. -/
def answer {α : Type} (scan : Scan α) (cursor : Cursor) : Except Fault α :=
  match scan cursor with
  | .ok value _ => .ok value
  | .error fault _ => .error fault

/-- Answers and leaves the cursor as it is. -/
def look {α : Type} (found : Cursor → Except Fault α) : Scan α := fun cursor =>
  match found cursor with
  | .ok value => .ok value cursor
  | .error fault => .error fault cursor

/-- Decodes one character after the other, `n` of them before the one that is asked for. -/
def decodeNth (source : List UInt8) : Nat → Nat → Except Fault (Option Char)
  | 0, offset => (decodeAt source offset).map (Option.map Prod.fst)
  | n + 1, offset =>
    match decodeAt source offset with
    | .error fault => .error fault
    | .ok none => .ok none
    | .ok (some (_, width)) => decodeNth source n (offset + width)

theorem answer_bind_of_ok {α β : Type} {scan : Scan α} {next : α → Scan β} {value : α}
    {between : Cursor} (h : scan cursor = .ok value between) :
    answer (scan >>= next) cursor = answer (next value) between := by
  rw [answer, bind_of_ok h, answer]

theorem next_of_malformed {byte : UInt8} (hahead : cursor.ahead = [])
    (hmalformed : cursor.malformed = some byte) :
    next cursor = .error ⟨byte, cursor.pos⟩ cursor := by
  simp only [next, hahead, atEnd, hmalformed]

/-- At the end of the source nothing is read, however often one tries. -/
theorem answer_readNth_of_end (hahead : cursor.ahead = []) (hvalid : cursor.malformed = none)
    (n : Nat) : answer (readNth n) cursor = .ok none := by
  induction n generalizing cursor with
  | zero => rw [readNth, answer, next_of_nil hvalid hahead]
  | succ n ih =>
      rw [readNth, answer_bind_of_ok (next_of_nil hvalid hahead)]
      exact ih hahead hvalid

/-- In front of a malformed byte the first reading fails. -/
theorem answer_readNth_of_malformed {byte : UInt8} (hahead : cursor.ahead = [])
    (hmalformed : cursor.malformed = some byte) (n : Nat) :
    answer (readNth n) cursor = .error ⟨byte, cursor.pos⟩ := by
  have hnext := next_of_malformed hahead hmalformed
  cases n with
  | zero => rw [readNth, answer, hnext]
  | succ n => simp only [readNth, answer, bind, EStateM.bind, hnext]

/-- What is read one by one is what stands ahead: where the text ends, so does the
reading, and the malformed byte is met if there is one. -/
theorem answer_readNth (n : Nat) (cursor : Cursor) :
    answer (readNth n) cursor =
      match cursor.ahead[n]?, cursor.malformed with
      | some c, _ => .ok (some c)
      | none, some byte => .error ⟨byte, cursor.limit⟩
      | none, none => .ok none := by
  induction n generalizing cursor with
  | zero =>
      cases hahead : cursor.ahead with
      | cons c rest =>
          rw [readNth, answer, next_of_cons hahead]
          rfl
      | nil =>
          cases hmalformed : cursor.malformed with
          | none => exact answer_readNth_of_end hahead hmalformed 0
          | some byte =>
              rw [answer_readNth_of_malformed hahead hmalformed, Cursor.limit, hahead]
              rfl
  | succ n ih =>
      cases hahead : cursor.ahead with
      | cons c rest =>
          have hreads : cursor.Reads [c] (cursor.advance [c] rest) := .of_advance hahead
          rw [readNth, answer_bind_of_ok (next_of_cons hahead), ih, hreads.limit]
          rfl
      | nil =>
          cases hmalformed : cursor.malformed with
          | none => exact answer_readNth_of_end hahead hmalformed (n + 1)
          | some byte =>
              rw [answer_readNth_of_malformed hahead hmalformed, Cursor.limit, hahead]
              rfl

/-- To look `n` characters ahead is to read them and one more on a copy of the cursor. -/
theorem peek_eq_look (n : Nat) : peek n = look (answer (readNth n)) := by
  funext cursor
  rw [look, answer_readNth, peek]
  cases cursor.ahead[n]? with
  | some c => rfl
  | none =>
      cases cursor.malformed with
      | some byte => rfl
      | none => rfl

/-- Reading one by one finds what is decoded from offset to offset. -/
theorem answer_readNth_eq_decodeNth (hfollows : cursor.Follows source) (n : Nat) :
    answer (readNth n) cursor = decodeNth source n cursor.pos := by
  induction n generalizing cursor with
  | zero =>
      rw [readNth, decodeNth, answer, next_eq_nextAt hfollows, nextAt]
      rcases decodeAt source cursor.pos with fault | _ | ⟨c, width⟩ <;> rfl
  | succ n ih =>
      rw [decodeNth]
      cases hahead : cursor.ahead with
      | cons c rest =>
          rw [readNth, answer_bind_of_ok (next_of_cons hahead),
            ih ((Cursor.Moves.advance hahead).follows hfollows),
            hfollows.decodeAt_of_cons hahead]
          simp [Cursor.advance]
      | nil =>
          cases hmalformed : cursor.malformed with
          | none =>
              rw [hfollows.decodeAt_of_end hahead hmalformed]
              exact answer_readNth_of_end hahead hmalformed (n + 1)
          | some byte =>
              rw [hfollows.decodeAt_of_malformed hahead hmalformed]
              exact answer_readNth_of_malformed hahead hmalformed (n + 1)

/-! ## Reading a run -/

/-- Reads a character, and takes it back unless it is in the class. -/
def tryNext (isMember : Char → Bool) : Scan Bool := do
  if (← next).any isMember then
    return true
  else
    modify Cursor.backup
    return false

/-- Runs the scan again and again until it answers no or fails. -/
inductive Repeats (scan : Scan Bool) : Cursor → EStateM.Result Fault Cursor Unit → Prop
  | stop {cursor after : Cursor} : scan cursor = .ok false after →
      Repeats scan cursor (.ok () after)
  | fail {cursor after : Cursor} {fault : Fault} : scan cursor = .error fault after →
      Repeats scan cursor (.error fault after)
  | again {cursor between : Cursor} {outcome : EStateM.Result Fault Cursor Unit} :
      scan cursor = .ok true between → Repeats scan between outcome → Repeats scan cursor outcome

theorem Repeats.unique {scan : Scan Bool} {outcome outcome' : EStateM.Result Fault Cursor Unit}
    (h : Repeats scan cursor outcome) (h' : Repeats scan cursor outcome') : outcome = outcome' := by
  induction h with
  | stop hstop =>
      cases h' with
      | stop hstop' =>
          cases hstop.symm.trans hstop'
          rfl
      | fail hfail => cases hstop.symm.trans hfail
      | again hagain => cases hstop.symm.trans hagain
  | fail hfail =>
      cases h' with
      | stop hstop => cases hfail.symm.trans hstop
      | fail hfail' =>
          cases hfail.symm.trans hfail'
          rfl
      | again hagain => cases hfail.symm.trans hagain
  | again hagain _ ih =>
      cases h' with
      | stop hstop => cases hagain.symm.trans hstop
      | fail hfail => cases hagain.symm.trans hfail
      | again hagain' hrest =>
          cases hagain.symm.trans hagain'
          exact ih hrest

theorem readPart_of_split {split : List Char → List Char × List Char} {run rest : List Char}
    (hsplit : split cursor.ahead = (run, rest)) :
    readPart split cursor =
      if rest.isEmpty then atEnd () (cursor.advance run rest)
      else .ok () (cursor.advance run rest).settle := by
  simp only [readPart, hsplit]

/-- A character of the class is read first, and the run goes on behind it. -/
theorem readWhile_of_member {isMember : Char → Bool} {c : Char} {rest : List Char}
    (hahead : cursor.ahead = c :: rest) (hmember : isMember c = true) :
    readWhile isMember cursor = readWhile isMember (cursor.advance [c] rest) := by
  have hspan : cursor.ahead.span isMember =
      ([c] ++ (rest.span isMember).1, (rest.span isMember).2) := by
    simp [hahead, List.span_eq_takeWhile_dropWhile, hmember]
  have hbehind : (cursor.advance [c] rest).ahead.span isMember =
      ((rest.span isMember).1, (rest.span isMember).2) := rfl
  unfold readWhile
  rw [readPart_of_split hspan, readPart_of_split hbehind, Cursor.advance_advance]

/-- In front of a character that is not in the class the run is empty. -/
theorem readWhile_of_stop {isMember : Char → Bool} {c : Char} {rest : List Char}
    (hahead : cursor.ahead = c :: rest) (hmember : isMember c = false) :
    readWhile isMember cursor = .ok () cursor.settle := by
  have hspan : cursor.ahead.span isMember = ([], c :: rest) := by
    simp [hahead, List.span_eq_takeWhile_dropWhile, hmember]
  rw [readWhile, readPart_of_split hspan, ← hahead, Cursor.advance_nil]
  simp [hahead]

/-- Where no character is ahead there is nothing but the end. -/
theorem readWhile_of_nil {isMember : Char → Bool} (hahead : cursor.ahead = []) :
    readWhile isMember cursor = atEnd () cursor := by
  have hspan : cursor.ahead.span isMember = ([], []) := by
    rw [hahead]
    rfl
  have hstay := cursor.advance_nil
  rw [hahead] at hstay
  rw [readWhile, readPart_of_split hspan, hstay]
  rfl

theorem accept_of_not_member {isMember : Char → Bool} {c : Char} {rest : List Char}
    (hahead : cursor.ahead = c :: rest) (hmember : isMember c = false) :
    accept isMember cursor = .ok false cursor.settle := by
  simp [accept, hahead, hmember]

theorem accept_of_nil {isMember : Char → Bool} (hahead : cursor.ahead = []) :
    accept isMember cursor = atEnd false cursor := by
  simp only [accept, hahead]

/-- To read a run is to read character by character until one has to be taken back. -/
theorem repeats_readWhile (isMember : Char → Bool) (cursor : Cursor) :
    Repeats (tryNext isMember) cursor (readWhile isMember cursor) := by
  have htry : tryNext isMember = accept isMember := (accept_eq_backup isMember).symm
  rw [htry]
  induction htext : cursor.ahead generalizing cursor with
  | nil =>
      rw [readWhile_of_nil htext]
      cases hmalformed : cursor.malformed with
      | none =>
          rw [atEnd_of_valid hmalformed]
          exact .stop ((accept_of_nil htext).trans (atEnd_of_valid hmalformed))
      | some byte =>
          rw [atEnd_of_malformed hmalformed]
          exact .fail ((accept_of_nil htext).trans (atEnd_of_malformed hmalformed))
  | cons c rest ih =>
      cases hmember : isMember c with
      | true =>
          rw [readWhile_of_member htext hmember]
          exact .again (accept_of_member htext hmember) (ih _ rfl)
      | false =>
          rw [readWhile_of_stop htext hmember]
          exact .stop (accept_of_not_member htext hmember)

/-! ## Where a run ends -/

/-- From the cursor to the place `after` the characters `run` are read, all of them in the
class, and these are what the source has there. -/
structure ReadsRun (source : List UInt8) (isMember : Char → Bool) (cursor : Cursor)
    (run : List Char) (after : Cursor) : Prop where
  members : ∀ c ∈ run, isMember c = true
  bytes : Utf8.encode run <+: source.drop cursor.pos
  pos : after.pos = cursor.pos + Utf8.byteLength run
  pending : after.pending = cursor.pending ++ run
  start : after.start = cursor.start

/-- A run is as long as possible: a character that is not in the class stands behind it,
or the source ends there, or a malformed byte comes before either. -/
inductive RunsTo (source : List UInt8) (isMember : Char → Bool) (cursor : Cursor) :
    EStateM.Result Fault Cursor Unit → Prop
  | stopped {run : List Char} {c : Char} {width : Nat} {after : Cursor} :
      ReadsRun source isMember cursor run after →
      decodeAt source after.pos = .ok (some (c, width)) → isMember c = false →
      RunsTo source isMember cursor (.ok () after)
  | ended {run : List Char} {after : Cursor} : ReadsRun source isMember cursor run after →
      decodeAt source after.pos = .ok none → RunsTo source isMember cursor (.ok () after)
  | failed {run : List Char} {byte : UInt8} {after : Cursor} :
      ReadsRun source isMember cursor run after →
      decodeAt source after.pos = .error ⟨byte, after.pos⟩ →
      RunsTo source isMember cursor (.error ⟨byte, after.pos⟩ after)

theorem readsRun_of_reads {isMember : Char → Bool} {run : List Char} {after : Cursor}
    (hreads : cursor.Reads run after) (hfollows : cursor.Follows source)
    (hmembers : ∀ c ∈ run, isMember c = true) : ReadsRun source isMember cursor run after where
  members := hmembers
  bytes := by
    rw [Utf8.encode_prefix_iff, hfollows, hreads.ahead]
    exact List.prefix_append run after.ahead
  pos := hreads.pos
  pending := hreads.pending
  start := hreads.start

/-- A run that fails has read up to the malformed byte. -/
theorem readWhile_eq_error {isMember : Char → Bool} {fault : Fault} {after : Cursor}
    (h : readWhile isMember cursor = .error fault after) :
    cursor.Reads (cursor.ahead.takeWhile isMember) after ∧ after.ahead = [] ∧
      after.malformed = some fault.byte ∧ fault.offset = .ofNat after.pos := by
  have hspan := List.span_eq_takeWhile_dropWhile isMember cursor.ahead
  rw [readWhile, readPart_of_split hspan] at h
  split_ifs at h with hend
  obtain ⟨rfl, hbyte, hoffset⟩ := atEnd_eq_error h
  exact ⟨.of_advance List.takeWhile_append_dropWhile.symm, List.isEmpty_iff.mp hend, hbyte, hoffset⟩

theorem runsTo_readWhile (hfollows : cursor.Follows source) (isMember : Char → Bool) :
    RunsTo source isMember cursor (readWhile isMember cursor) := by
  have hmembers : ∀ c ∈ cursor.ahead.takeWhile isMember, isMember c = true :=
    fun c hc => List.mem_takeWhile_imp hc
  cases h : readWhile isMember cursor with
  | ok _ after =>
      have hreads := readWhile_eq_ok h
      have hrun := readsRun_of_reads hreads hfollows hmembers
      have hafter := ((Plain.readWhile isMember).travels.of_ok h).follows hfollows
      cases hahead : after.ahead with
      | cons c rest =>
          have hbehind : cursor.ahead.dropWhile isMember = c :: rest := by
            rw [← hahead]
            exact List.append_cancel_left
              (List.takeWhile_append_dropWhile.trans hreads.ahead)
          have hstop := head?_dropWhile_eq_false isMember cursor.ahead c (by rw [hbehind]; rfl)
          exact .stopped hrun (hafter.decodeAt_of_cons hahead) hstop
      | nil =>
          have hvalid := (readPart_finished h).2 hahead
          exact .ended hrun (hafter.decodeAt_of_end hahead hvalid)
  | error fault after =>
      obtain ⟨hreads, hahead, hmalformed, hoffset⟩ := readWhile_eq_error h
      obtain ⟨byte, _⟩ := fault
      obtain rfl : _ = UInt32.ofNat after.pos := hoffset
      have hafter := ((Plain.readWhile isMember).travels.of_error h).follows hfollows
      exact .failed (readsRun_of_reads hreads hfollows hmembers)
        (hafter.decodeAt_of_malformed hahead hmalformed)

/-- The run of the class is read by single steps, and it is as long as possible. -/
structure RunsMaximally (source : List UInt8) (cursor : Cursor) (isMember : Char → Bool) :
    Prop where
  steps : ∀ outcome, Repeats (tryNext isMember) cursor outcome ↔
    readWhile isMember cursor = outcome
  ends : RunsTo source isMember cursor (readWhile isMember cursor)

theorem runsMaximally (hfollows : cursor.Follows source) (isMember : Char → Bool) :
    RunsMaximally source cursor isMember := by
  have hrun := repeats_readWhile isMember cursor
  refine ⟨fun outcome => ⟨hrun.unique, ?_⟩, runsTo_readWhile hfollows isMember⟩
  rintro rfl
  exact hrun

/-- Looking agrees with reading, and runs are maximal.  From every place in a source, to
look `n` characters ahead leaves the cursor where it is and answers what the last of
`n + 1` readings on a copy answers: the character there, the first fault on the way, or
nothing if the source ends before.  A run of any class of characters, or of the
characters outside of it, is what single steps read of which the last one is taken back.
It goes up to the first character that does not belong to it or to the end of the source,
or it fails, right at a malformed byte that comes before. -/
theorem steps_agree (hfollows : cursor.Follows source) :
    (∀ n, peek n cursor = look (answer (readNth n)) cursor ∧
        answer (readNth n) cursor = decodeNth source n cursor.pos) ∧
      ∀ isMember : Char → Bool, RunsMaximally source cursor isMember ∧
        RunsMaximally source cursor (fun c => !isMember c) := by
  refine ⟨fun n => ⟨?_, answer_readNth_eq_decodeNth hfollows n⟩, fun isMember => ?_⟩
  · rw [peek_eq_look]
  · exact ⟨runsMaximally hfollows isMember, runsMaximally hfollows _⟩

/-- A letter of two bytes, and behind it a character that is cut off. -/
theorem steps_agree_truncated :
    let source : List UInt8 := [0x61, 0xC3, 0xA9, 0xE2, 0x82]
    let cursor := Cursor.ofOffsets source 0 0
    cursor.Follows source ∧
      peek 1 cursor = .ok (some 'é') cursor ∧ peek 2 cursor = .error ⟨0xE2, 3⟩ cursor ∧
        RunsTo source isLetter cursor (readWhile isLetter cursor) := by
  intro source cursor
  have hfollows : cursor.Follows source := Cursor.ofOffsets_follows source 0 0
  have hagree := steps_agree hfollows
  refine ⟨hfollows, (hagree.1 1).1.trans ?_, (hagree.1 2).1.trans ?_, (hagree.2 isLetter).1.ends⟩
  · rw [look, (hagree.1 1).2]
    rfl
  · rw [look, (hagree.1 2).2]
    rfl

end Scan

end ScalaLexer
