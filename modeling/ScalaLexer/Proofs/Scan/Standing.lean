import Mathlib.Logic.Relation
import ScalaLexer.Proofs.Scan.Routine
import ScalaLexer.Proofs.Scan.Trivia
import ScalaLexer.Proofs.Text.Utf8

/-!
# Where a cursor can stand

A cursor holds offsets and texts side by side, and every scan changes both.  It does
so by few means: it reads a part of the text ahead, comes to rest, or forgets what is
pending, all of it or all but its end.  `Cursor.Moves` lists them, and
`Cursor.Reaches` is what can be come to by moves.

* `Plain.travels`, `Routine.travels`, `Paired.travels` and `skipBlanks_travels`: a
  scan only moves, also when it fails half way.
* `Cursor.Stands` says how the offsets and the texts of a cursor fit the source.
  `Moves.stands`: a move keeps that up, so it holds of every place that is come to
  from the beginning (`Reaches.stands`).
* `Cursor.Sound` is what this says about the bytes: the offsets are in range and lie
  between two characters, and the bytes between them are the pending text.
* `Cursor.Follows` says that what is ahead is what the bytes from the offset on decode
  to.  A move keeps that up too (`Reaches.follows`), so the offset tells all about it.

A character that is not wanted can also be read and taken back.  `accept_eq_backup`
says that this is what `Scan.accept` comes to.
-/

namespace ScalaLexer

namespace Cursor

/-! ## Moves -/

/-- One thing that a reading does to a cursor. -/
inductive Moves (cursor : Cursor) : Cursor → Prop
  | advance {run rest : List Char} : cursor.ahead = run ++ rest →
      Moves cursor (cursor.advance run rest)
  | settle : Moves cursor cursor.settle
  | release : Moves cursor cursor.release
  | releaseBefore {front back : List Char} : cursor.pending = front ++ back →
      Moves cursor (cursor.releaseBefore back)

/-- The place is come to from the cursor. -/
abbrev Reaches : Cursor → Cursor → Prop :=
  Relation.ReflTransGen Moves

/-! ## Standing in a source -/

/-- The text of the source falls into what is in front of the pending characters,
these characters and what is ahead, and the offsets are where the parts meet. -/
structure Stands (source : List UInt8) (cursor : Cursor) : Prop where
  text : ∃ before, (Utf8.decode source).text = before ++ cursor.pending ++ cursor.ahead ∧
    cursor.start = Utf8.byteLength before
  pos : cursor.pos = cursor.start + Utf8.byteLength cursor.pending
  width : cursor.width ≤ cursor.pos

variable {source : List UInt8} {cursor place after : Cursor}

theorem ofOffsets_stands (source : List UInt8) : (ofOffsets source 0 0).Stands source :=
  ⟨⟨[], rfl, rfl⟩, rfl, Nat.le_refl 0⟩

/-- A move leads from one place in the source to another. -/
theorem Moves.stands (hmoves : cursor.Moves after) (hstands : cursor.Stands source) :
    after.Stands source := by
  obtain ⟨⟨before, htext, hstart⟩, hpos, hwidth⟩ := hstands
  cases hmoves with
  | @advance run rest hahead =>
      have hafter : (cursor.advance run rest).pos = cursor.pos + Utf8.byteLength run := rfl
      refine ⟨⟨before, by simp [htext, hahead, Cursor.advance], hstart⟩, ?_, ?_⟩
      · change cursor.pos + _ = cursor.start + Utf8.byteLength (cursor.pending ++ run)
        rw [hpos, Utf8.byteLength_append, Nat.add_assoc]
      · -- the last character of the run is part of it
        rw [hafter]
        change (run.getLast?.map Char.utf8Size).getD cursor.width ≤ _
        cases hlast : run.getLast? with
        | none => exact Nat.le_add_right_of_le hwidth
        | some c =>
            have hc := Utf8.utf8Size_le_byteLength (List.mem_of_getLast? hlast)
            exact Nat.le_add_left_of_le hc
  | settle => exact ⟨⟨before, htext, hstart⟩, hpos, Nat.zero_le _⟩
  | release =>
      refine ⟨⟨before ++ cursor.pending, by simp [htext, Cursor.release], ?_⟩, rfl, hwidth⟩
      rw [Utf8.byteLength_append, ← hstart]
      exact hpos
  | @releaseBefore front back hpending =>
      have hshorter : cursor.pos - Utf8.byteLength back = cursor.start + Utf8.byteLength front := by
        rw [hpos, hpending, Utf8.byteLength_append]
        omega
      refine ⟨⟨before ++ front, ?_, ?_⟩, ?_, hwidth⟩
      · rw [htext, hpending]
        simp [Cursor.releaseBefore]
      · rw [Utf8.byteLength_append, ← hstart]
        exact hshorter
      · change cursor.pos = cursor.pos - Utf8.byteLength back + Utf8.byteLength back
        rw [hshorter, hpos, hpending, Utf8.byteLength_append, Nat.add_assoc]

theorem Reaches.stands (hreaches : cursor.Reaches place) (hstands : cursor.Stands source) :
    place.Stands source := by
  induction hreaches with
  | refl => exact hstands
  | tail _ hmoves ih => exact hmoves.stands ih

/-! ## What this says about the bytes -/

/-- The offsets of a place are in range and lie between two characters, and the bytes
between them are the pending text and nothing but that. -/
structure Sound (source : List UInt8) (place : Cursor) : Prop where
  start_le_pos : place.start ≤ place.pos
  pos_le_text : place.pos ≤ Utf8.byteLength (Utf8.decode source).text
  text_le_length : Utf8.byteLength (Utf8.decode source).text ≤ source.length
  start_boundary : Utf8.IsBoundary source place.start
  pos_boundary : Utf8.IsBoundary source place.pos
  slice : (source.take place.pos).drop place.start = Utf8.encode place.pending
  lossless : Utf8.decodeLossy ((source.take place.pos).drop place.start) = place.pending
  /-- There is room to take the character read last back. -/
  width_le_pos : place.width ≤ place.pos

/-- The bytes of the source, part by part. -/
theorem Stands.exists_bytes (hstands : cursor.Stands source) :
    ∃ before rest,
      source = before ++ Utf8.encode cursor.pending ++ (Utf8.encode cursor.ahead ++ rest) ∧
      before.length = cursor.start ∧
      (before ++ Utf8.encode cursor.pending).length = cursor.pos := by
  obtain ⟨⟨before, htext, hstart⟩, hpos, _⟩ := hstands
  obtain ⟨rest, hsource, _⟩ := Utf8.exists_eq_encode_decode_append source
  refine ⟨Utf8.encode before, rest, ?_, ?_, ?_⟩
  · rw [hsource, htext]
    simp only [Utf8.encode_append, List.append_assoc]
  · rw [Utf8.length_encode, hstart]
  · rw [List.length_append, Utf8.length_encode, Utf8.length_encode, ← hstart, hpos]

/-- The bytes from the cursor on begin with the text ahead. -/
theorem Stands.encode_ahead_prefix (hstands : cursor.Stands source) :
    Utf8.encode cursor.ahead <+: source.drop cursor.pos := by
  obtain ⟨before, rest, hsource, _, hpos⟩ := hstands.exists_bytes
  rw [hsource, ← hpos, List.drop_left]
  exact List.prefix_append _ _

theorem Stands.slice (hstands : cursor.Stands source) :
    (source.take cursor.pos).drop cursor.start = Utf8.encode cursor.pending := by
  obtain ⟨before, rest, hsource, hstart, hpos⟩ := hstands.exists_bytes
  rw [hsource, ← hpos, List.take_left, ← hstart, List.drop_left]

theorem Stands.sound (hstands : cursor.Stands source) : cursor.Sound source := by
  have hslice := hstands.slice
  obtain ⟨⟨before, htext, hstart⟩, hpos, hwidth⟩ := hstands
  have hboundary : Utf8.IsBoundary source cursor.pos :=
    ⟨before ++ cursor.pending, ⟨cursor.ahead, htext.symm⟩, by
      rw [Utf8.byteLength_append, ← hstart, hpos]⟩
  exact {
    start_le_pos := hpos ▸ Nat.le_add_right _ _
    pos_le_text := hboundary.le
    text_le_length := Utf8.byteLength_decode_le source
    start_boundary := ⟨before, ⟨cursor.pending ++ cursor.ahead, by
      rw [htext, List.append_assoc]⟩, hstart.symm⟩
    pos_boundary := hboundary
    slice := hslice
    lossless := by rw [hslice, Utf8.decodeLossy_encode]
    width_le_pos := hwidth }

/-! ## What the offset tells -/

/-- What is ahead of the cursor is what the bytes from its offset on decode to. -/
def Follows (source : List UInt8) (cursor : Cursor) : Prop :=
  Utf8.decode (source.drop cursor.pos) = ⟨cursor.ahead, cursor.malformed⟩

theorem ofOffsets_follows (source : List UInt8) (start pos : Nat) :
    (ofOffsets source start pos).Follows source := rfl

theorem Moves.follows (hmoves : cursor.Moves after) (hfollows : cursor.Follows source) :
    after.Follows source := by
  cases hmoves with
  | @advance run rest hahead =>
      unfold Follows at hfollows
      rw [hahead] at hfollows
      have hrest := Utf8.decode_drop hfollows
      rwa [List.drop_drop] at hrest
  | settle => exact hfollows
  | release => exact hfollows
  | releaseBefore _ => exact hfollows

theorem Reaches.follows (hreaches : cursor.Reaches place) (hfollows : cursor.Follows source) :
    place.Follows source := by
  induction hreaches with
  | refl => exact hfollows
  | tail _ hmoves ih => exact hmoves.follows ih

/-! ## Taking a character back -/

/-- Takes back the character read last. -/
def backup (cursor : Cursor) : Cursor :=
  if cursor.width = 0 then cursor
  else
    { cursor with
      pos := cursor.pos - cursor.width
      width := 0
      pending := cursor.pending.dropLast
      ahead := cursor.pending.getLast?.toList ++ cursor.ahead }

theorem backup_advance {c : Char} {rest : List Char} (hahead : cursor.ahead = c :: rest) :
    (cursor.advance [c] rest).backup = cursor.settle := by
  have hwidth : (cursor.advance [c] rest).width = c.utf8Size := rfl
  rw [backup, hwidth, if_neg (Nat.ne_of_gt c.utf8Size_pos)]
  simp [advance, settle, hahead]

end Cursor

/-! ## Scans only move -/

namespace Scan

variable {α β : Type}

/-- To accept a character is to read it and to take it back if it is not wanted. -/
theorem accept_eq_backup (isMember : Char → Bool) :
    accept isMember = do
      if (← next).any isMember then
        return true
      else
        modify Cursor.backup
        return false := by
  funext cursor
  simp only [bind, EStateM.bind, next, accept]
  cases hahead : cursor.ahead with
  | nil =>
      unfold atEnd
      cases cursor.malformed with
      | some byte => rfl
      | none => rfl
  | cons c rest =>
      dsimp only
      cases hmember : isMember c with
      | true => simp [hmember, pure, EStateM.pure]
      | false =>
          simp only [Option.any_some, hmember]
          rw [← Cursor.backup_advance hahead]
          rfl

/-- Where the scan leaves the cursor, whether it succeeds or fails. -/
def stop (scan : Scan α) (cursor : Cursor) : Cursor :=
  match scan cursor with
  | .ok _ after => after
  | .error _ after => after

/-- The scan only moves the cursor, wherever it is and whatever comes of it. -/
def Travels (scan : Scan α) : Prop :=
  ∀ cursor : Cursor, cursor.Reaches (scan.stop cursor)

namespace Travels

variable {scan : Scan α} {cursor after : Cursor}

theorem of_ok {result : α} (htravels : Travels scan) (h : scan cursor = .ok result after) :
    cursor.Reaches after := by
  have hreaches := htravels cursor
  rwa [stop, h] at hreaches

theorem of_error {fault : Fault} (htravels : Travels scan)
    (h : scan cursor = .error fault after) : cursor.Reaches after := by
  have hreaches := htravels cursor
  rwa [stop, h] at hreaches

theorem pure (value : α) : Travels (Pure.pure value) := fun _ => .refl

theorem bind {next : α → Scan β} (hscan : Travels scan) (hnext : ∀ value, Travels (next value)) :
    Travels (scan >>= next) := by
  intro cursor
  simp only [stop, Bind.bind, EStateM.bind]
  cases h : scan cursor with
  | error fault after => exact hscan.of_error h
  | ok value between => exact (hscan.of_ok h).trans (hnext value between)

theorem get {next : Cursor → Scan α} (hnext : ∀ cursor, Travels (next cursor)) :
    Travels (MonadState.get >>= next) := fun cursor => hnext cursor cursor

theorem ite {condition : Prop} [Decidable condition] {yes no : Scan α} (hyes : Travels yes)
    (hno : Travels no) : Travels (if condition then yes else no) := by
  split
  · exact hyes
  · exact hno

theorem release : Travels Scan.release := fun _ => .single .release

theorem atEnd (result : α) : Travels (Scan.atEnd result) := by
  intro cursor
  unfold stop Scan.atEnd
  cases cursor.malformed with
  | none => exact .single .settle
  | some byte => exact .refl

end Travels

theorem Plain.travels {scan : Scan α} (hplain : Plain scan) : Travels scan := by
  induction hplain with
  | pure value => exact .pure value
  | bind _ _ ihscan ihnext => exact ihscan.bind ihnext
  | get _ _ ihnext => exact .get ihnext
  | next =>
      intro cursor
      unfold stop Scan.next
      cases hahead : cursor.ahead with
      | nil => exact Travels.atEnd none cursor
      | cons c rest => exact .single (.advance hahead)
  | peek n =>
      intro cursor
      unfold stop Scan.peek
      cases cursor.ahead[n]? with
      | some c => exact .refl
      | none => cases cursor.malformed <;> exact .refl
  | accept isMember =>
      intro cursor
      unfold stop Scan.accept
      cases hahead : cursor.ahead with
      | nil => exact Travels.atEnd false cursor
      | cons c rest =>
          dsimp only
          cases isMember c with
          | true => exact .single (.advance hahead)
          | false => exact .single .settle
  | @readPart cut happend =>
      intro cursor
      have hadvance : cursor.Reaches (cursor.advance (cut cursor.ahead).1 (cut cursor.ahead).2) :=
        .single (.advance (happend cursor.ahead).symm)
      unfold stop Scan.readPart
      dsimp only
      cases (cut cursor.ahead).2.isEmpty with
      | true => exact hadvance.trans (Travels.atEnd () _)
      | false => exact hadvance.tail .settle
  | readExactly n =>
      intro cursor
      have hadvance := Cursor.Moves.advance (List.take_append_drop n cursor.ahead).symm
      exact (Relation.ReflTransGen.single hadvance).tail .settle

theorem skip_travels : Travels skip :=
  Plain.next.travels.bind fun _ => .release

theorem skipWhile_travels (isMember : Char → Bool) : Travels (skipWhile isMember) :=
  (Plain.readWhile isMember).travels.bind fun _ => .release

end Scan

namespace Lexeme

open Scan (Travels Plain)

theorem emit_travels (kind : TokenKind) (resume : Mode) : Travels (emit kind resume) :=
  fun _ => (Relation.ReflTransGen.single .release).tail .settle

theorem emitError_travels (cause : Cause) : Travels (emitError cause) := by
  intro cursor
  rw [Scan.stop, emitError_eq]
  by_cases hpending : cursor.pos ≤ cursor.start
  · rw [if_pos hpending]
    cases hnext : Scan.next cursor with
    | error fault between => exact Plain.next.travels.of_error hnext
    | ok _ between => exact (Plain.next.travels.of_ok hnext).tail .release
  · rw [if_neg hpending]
    exact .single .release

theorem Routine.travels {routine : Scan Lexeme} (hroutine : Routine routine) :
    Travels routine := by
  induction hroutine with
  | emit kind resume => exact emit_travels kind resume
  | emitError cause => exact emitError_travels cause
  | bind hscan _ ih => exact hscan.travels.bind ih
  | get _ _ ih => exact .get ih
  | release _ ih => exact Travels.release.bind fun _ => ih
  | skip _ ih => exact Scan.skip_travels.bind fun _ => ih

theorem Paired.travels {paired : Scan (Lexeme × List Bracket)} (hpaired : Paired paired) :
    Travels paired := by
  induction hpaired with
  | keeping regions hroutine => exact hroutine.travels.bind fun _ => .pure _
  | bind hscan _ ih => exact hscan.travels.bind ih

end Lexeme

namespace Trivia

open Scan (Travels)

/-- The last comment ends where the trivia ends. -/
theorem lastComment?_isSuffix {depth : Nat} {text comment : List Char}
    (h : lastComment? depth text = some comment) : comment <:+ text := by
  fun_induction lastComment? depth text with
  | case1 text ih =>
      rcases Option.or_eq_some_iff.mp h with hlater | ⟨_, hhere⟩
      · exact (ih hlater).trans ⟨['/', '*'], rfl⟩
      · cases hhere
        exact List.suffix_refl _
  | case2 depth text ih => exact (ih h).trans ⟨['/', '*'], rfl⟩
  | case3 depth text ih => exact (ih h).trans ⟨['*', '/'], rfl⟩
  | case4 depth c text _ _ _ ih => exact (ih h).trans ⟨[c], rfl⟩
  | case5 => cases h

theorem skipBlanks_travels : Travels skipBlanks := by
  intro cursor
  have hread : Travels (Scan.readPart (split isBlank 0)) :=
    (Scan.Plain.readPart (split_append isBlank 0)).travels
  unfold Scan.stop skipBlanks
  cases h : Scan.readPart (split isBlank 0) cursor with
  | ok _ after => exact (hread.of_ok h).tail .release
  | error fault after =>
      cases hcomment : lastComment? 0 (split isBlank 0 cursor.ahead).1 with
      | none => exact hread.of_error h
      | some comment =>
          -- a reading that fails leaves all that it read pending
          have hpending : after.pending = cursor.pending ++ (split isBlank 0 cursor.ahead).1 :=
            congrArg Cursor.pending (Scan.readPart_eq_error h)
          obtain ⟨front, hfront⟩ := lastComment?_isSuffix hcomment
          rw [← hfront, ← List.append_assoc] at hpending
          exact (hread.of_error h).tail (.releaseBefore hpending)

end Trivia

end ScalaLexer
