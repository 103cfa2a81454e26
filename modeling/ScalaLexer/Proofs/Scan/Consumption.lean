import ScalaLexer.Proofs.Scan.Locality
import ScalaLexer.Proofs.Scan.Routine

/-!
# What a scan reads of a text

In front of a text without malformed bytes a scan cannot fail.  `Scan.Consumes` says of a
scan what it reads there and what it answers, wherever the text stands and whatever is
pending.  A sequence of scans consumes what its parts do, one behind the other
(`Consumes.bind`), so what a scan consumes is read off its definition.

`Takes` and `TakesOne` say what it is to take all there is of a class of characters: as
many as there are, or one if there is one.

A lexeme is made of what is pending.  `Cursor.At` is a place where nothing is, and
`emit_of_reads` and `emitError_of_reads` say which lexeme is made of what was read from
there on.
-/

namespace ScalaLexer

/-! ## What a scan reads of a text -/

theorem Cursor.Reads.ahead_of_append {cursor after : Cursor} {run rest : List Char}
    (hreads : cursor.Reads run after) (hahead : cursor.ahead = run ++ rest) : after.ahead = rest :=
  List.append_cancel_left (hreads.ahead.symm.trans hahead)

namespace Scan

variable {α β : Type} {run more rest : List Char}

/-- In front of `rest` the scan reads `run` and answers with `value`. -/
def Consumes (scan : Scan α) (run rest : List Char) (value : α) : Prop :=
  ∀ cursor : Cursor, cursor.malformed = none → cursor.ahead = run ++ rest →
    ∃ after, scan cursor = .ok value after ∧ cursor.Reads run after

theorem Consumes.pure (value : α) (rest : List Char) :
    Consumes (Pure.pure value) [] rest value :=
  fun cursor _ _ => ⟨cursor, rfl, .refl cursor⟩

theorem Consumes.bind {scan : Scan α} {next : α → Scan β} {value : α} {result : β}
    (hfirst : Consumes scan run (more ++ rest) value)
    (hnext : Consumes (next value) more rest result) :
    Consumes (scan >>= next) (run ++ more) rest result := by
  intro cursor hvalid hahead
  rw [List.append_assoc] at hahead
  obtain ⟨between, hscan, hreads⟩ := hfirst cursor hvalid hahead
  obtain ⟨after, hresult, hmore⟩ :=
    hnext between (hreads.malformed.trans hvalid) (hreads.ahead_of_append hahead)
  exact ⟨after, (bind_of_ok hscan).trans hresult, hreads.trans hmore⟩

/-- A scan that only looks. -/
theorem Consumes.look {scan : Scan α} {next : α → Scan β} {value : α} {result : β}
    (hlook : Consumes scan [] (run ++ rest) value) (hnext : Consumes (next value) run rest result) :
    Consumes (scan >>= next) run rest result :=
  hlook.bind hnext

/-- A scan of which the answer is settled. -/
theorem Consumes.answer {scan : Scan α} {value : α} (h : Consumes scan run rest value)
    (result : β) : Consumes (scan >>= fun _ => Pure.pure result) run rest result := by
  intro cursor hvalid hahead
  obtain ⟨after, hscan, hreads⟩ := h cursor hvalid hahead
  exact ⟨after, bind_of_ok hscan, hreads⟩

/-- A text is read in one way only. -/
theorem Consumes.unique {scan : Scan α} {run' rest' : List Char} {value value' : α}
    (h : Consumes scan run rest value) (h' : Consumes scan run' rest' value')
    (htext : run ++ rest = run' ++ rest') : run = run' ∧ value = value' := by
  obtain ⟨after, hscan, hreads⟩ := h ⟨0, 0, 0, [], run ++ rest, none⟩ rfl rfl
  obtain ⟨after', hscan', hreads'⟩ := h' ⟨0, 0, 0, [], run ++ rest, none⟩ rfl htext
  cases hscan.symm.trans hscan'
  exact ⟨List.append_cancel_right (hreads.ahead.symm.trans hreads'.ahead), rfl⟩

theorem consumes_peek (n : Nat) (rest : List Char) : Consumes (peek n) [] rest rest[n]? :=
  fun cursor hvalid (hahead : cursor.ahead = rest) =>
    ⟨cursor, hahead ▸ peek_of_valid hvalid n, .refl cursor⟩

theorem consumes_next (c : Char) (rest : List Char) : Consumes next [c] rest (some c) :=
  fun _ _ hahead => ⟨_, next_of_cons hahead, .of_advance hahead⟩

end Scan

/-! ## Taking all there is -/

/-- `run` is all of the class that stands in front of `rest`. -/
structure Takes (isMember : Char → Bool) (run rest : List Char) : Prop where
  members : ∀ c ∈ run, isMember c = true
  stop : ∀ c ∈ rest.head?, isMember c = false

/-- The character of the class in front of `rest`, if there is one. -/
inductive TakesOne (isMember : Char → Bool) : List Char → List Char → Prop
  | found {c : Char} {rest : List Char} : isMember c = true → TakesOne isMember [c] rest
  | missing {rest : List Char} : (∀ c ∈ rest.head?, isMember c = false) →
      TakesOne isMember [] rest

section Taking

open Scan (Consumes)

variable {isMember : Char → Bool} {run rest : List Char}

theorem exists_takes (isMember : Char → Bool) (text : List Char) :
    ∃ run rest, text = run ++ rest ∧ Takes isMember run rest :=
  ⟨_, _, List.takeWhile_append_dropWhile.symm, fun _ hc => List.mem_takeWhile_imp hc,
    head?_dropWhile_eq_false isMember text⟩

/-- What begins with a character of the class is taken in part at least. -/
theorem exists_takes_cons {c : Char} (hmember : isMember c = true) (text : List Char) :
    ∃ run rest, c :: text = run ++ rest ∧ run ≠ [] ∧ Takes isMember run rest := by
  obtain ⟨run, rest, htext, htakes⟩ := exists_takes isMember (c :: text)
  refine ⟨run, rest, htext, ?_, htakes⟩
  rintro rfl
  have hstop := htakes.stop c (by rw [← List.nil_append rest, ← htext]; rfl)
  rw [hmember] at hstop
  cases hstop

theorem takes_iff_check :
    Takes isMember run rest ↔ run.all isMember = true ∧ rest.head?.any isMember = false := by
  rw [List.all_eq_true, Option.any_eq_false]
  exact ⟨fun h => ⟨h.members, h.stop⟩, fun h => ⟨h.1, h.2⟩⟩

instance : Decidable (Takes isMember run rest) :=
  decidable_of_iff _ takes_iff_check.symm

/-- Up to the next `c`, or to the end, all other characters are taken. -/
theorem takes_ne {c : Char} (hrun : c ∉ run) (hstop : ∀ d ∈ rest.head?, d = c) :
    Takes (· ≠ c) run rest where
  members := fun _ hd => decide_eq_true fun heq => hrun (heq ▸ hd)
  stop := fun d hd => decide_eq_false fun hne => hne (hstop d hd)

theorem exists_takesOne (isMember : Char → Bool) (text : List Char) :
    ∃ run rest, text = run ++ rest ∧ TakesOne isMember run rest := by
  cases text with
  | nil => exact ⟨[], [], rfl, .missing nofun⟩
  | cons c text =>
      cases hmember : isMember c with
      | true => exact ⟨[c], text, rfl, .found hmember⟩
      | false => exact ⟨[], c :: text, rfl, .missing (by rintro _ ⟨⟩; exact hmember)⟩

theorem Takes.span_eq (h : Takes isMember run rest) :
    (run ++ rest).span isMember = (run, rest) := by
  have htake := takeWhile_append_of_stop h.members h.stop
  have happend := Scan.span_append isMember (run ++ rest)
  rw [List.span_eq_takeWhile_dropWhile, htake] at happend ⊢
  exact Prod.ext rfl (List.append_cancel_left happend)

theorem Takes.consumes (h : Takes isMember run rest) :
    Consumes (Scan.readWhile isMember) run rest () := by
  intro cursor hvalid hahead
  have hread := Scan.readPart_of_valid hvalid (List.span isMember)
  rw [hahead, h.span_eq] at hread
  exact ⟨_, hread, (Cursor.Reads.of_advance hahead).settle⟩

/-- What the text begins with is taken if all of it is in the class. -/
theorem Takes.prefix_of_members {front : List Char} (h : Takes isMember run rest)
    (hfront : ∀ c ∈ front, isMember c = true) (hbegins : front <+: run ++ rest) :
    front <+: run := by
  obtain ⟨more, hmore⟩ := hbegins
  rw [← takeWhile_append_of_stop h.members h.stop, ← hmore, List.takeWhile_append_of_pos hfront]
  exact List.prefix_append ..

theorem consumes_accept {c : Char} (hmember : isMember c = true) (rest : List Char) :
    Consumes (Scan.accept isMember) [c] rest true :=
  fun _ _ hahead => ⟨_, Scan.accept_of_member hahead hmember, .of_advance hahead⟩

theorem consumes_accept_none (hstop : ∀ c ∈ rest.head?, isMember c = false) :
    Consumes (Scan.accept isMember) [] rest false := by
  intro cursor hvalid hahead
  obtain rfl : cursor.ahead = rest := hahead
  exact ⟨_, Scan.accept_of_stop hvalid hstop, .of_settle cursor⟩

theorem TakesOne.consumes (h : TakesOne isMember run rest) :
    Consumes (Scan.accept isMember) run rest (!run.isEmpty) := by
  cases h with
  | found hmember => exact consumes_accept hmember rest
  | missing hstop => exact consumes_accept_none hstop

end Taking

/-! ## Lexemes -/

/-- Nothing is pending at byte `pos`, and `text` stands from there up to the end of the
source. -/
structure Cursor.At (cursor : Cursor) (pos : Nat) (text : List Char) : Prop where
  idle : cursor.Idle
  pos : cursor.pos = pos
  ahead : cursor.ahead = text
  valid : cursor.malformed = none

theorem Cursor.At.of_drops {cursor after : Cursor} {pos : Nat} {run rest : List Char}
    (hplace : cursor.At pos (run ++ rest)) (hdrops : cursor.Drops run after) :
    after.At (pos + Utf8.byteLength run) rest where
  idle := hdrops.idle
  pos := by rw [hdrops.pos, hplace.pos]
  ahead := List.append_cancel_left (hdrops.ahead.symm.trans hplace.ahead)
  valid := hdrops.malformed.trans hplace.valid

theorem Cursor.At.pending_of_reads {cursor between : Cursor} {pos : Nat} {text run : List Char}
    (hplace : cursor.At pos text) (hreads : cursor.Reads run between) : between.pending = run := by
  rw [hreads.pending, hplace.idle.pending, List.nil_append]

/-- The same place in the source that ends in front of the malformed byte. -/
theorem Cursor.Idle.at_truncated {cursor : Cursor} (hidle : cursor.Idle) :
    cursor.truncated.At cursor.pos cursor.ahead :=
  ⟨⟨hidle.start, hidle.pending⟩, rfl, rfl, rfl⟩

namespace Lexeme

variable {cursor between : Cursor} {pos : Nat} {run rest : List Char}

theorem emit_of_reads (hplace : cursor.At pos (run ++ rest)) (hreads : cursor.Reads run between)
    (kind : TokenKind) (resume : Mode) :
    ∃ after, emit kind resume between =
        .ok ⟨kind, String.ofList run, pos, pos + Utf8.byteLength run, resume⟩ after ∧
      after.At (pos + Utf8.byteLength run) rest := by
  have hpending := hplace.pending_of_reads hreads
  have hstart : between.start = pos := by rw [hreads.start, hplace.idle.start, hplace.pos]
  have hstop : between.pos = pos + Utf8.byteLength run := by rw [hreads.pos, hplace.pos]
  refine ⟨_, ?_, hplace.of_drops hreads.release.settle⟩
  rw [emit, hpending, hstart, hstop]

/-- The error stands for what was read, which is nothing at the end of the text only. -/
theorem emitError_of_reads (hplace : cursor.At pos (run ++ rest))
    (hreads : cursor.Reads run between) (hend : run = [] → rest = []) (cause : Cause) :
    ∃ after, emitError cause between =
        .ok ⟨.error, cause.message, pos, pos + Utf8.byteLength run, .start⟩ after ∧
      after.At (pos + Utf8.byteLength run) rest := by
  have hstart : between.start = pos := by rw [hreads.start, hplace.idle.start, hplace.pos]
  have hstop : between.pos = pos + Utf8.byteLength run := by rw [hreads.pos, hplace.pos]
  rw [emitError_eq]
  by_cases hrun : run = []
  · obtain rfl := hend hrun
    subst hrun
    have hidle : between.pos ≤ between.start := by
      rw [hstart, hstop, Utf8.byteLength_nil, Nat.add_zero]
    have hnext := Scan.next_of_nil (hreads.malformed.trans hplace.valid)
      (hreads.ahead.symm.trans hplace.ahead)
    refine ⟨_, ?_, hplace.of_drops hreads.settle.release⟩
    rw [if_pos hidle, hnext, hstart, ← hstop]
    rfl
  · have hlength : Utf8.byteLength run ≠ 0 := fun hzero => hrun (Utf8.eq_nil_of_byteLength hzero)
    refine ⟨_, ?_, hplace.of_drops hreads.release⟩
    rw [if_neg (by omega), hstart, hstop]

end Lexeme

end ScalaLexer
