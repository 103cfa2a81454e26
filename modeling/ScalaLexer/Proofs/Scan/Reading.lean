import Mathlib.Data.List.TakeDrop
import ScalaLexer.Scan.Literal

/-!
# What a scan does to the cursor

Nearly all scans only read and look: they are put together from the primitives of
`Cursor.lean`, know nothing of where they are, and leave all that they read
pending.  `Scan.Plain` is the class of these scans, closed under sequencing.  A
fact about every plain scan is then one induction with a case for each primitive,
and a new scan owes no more than a proof that it is plain.

Three such facts are here.

* `Scan.Plain.reads`: the characters between the old and the new cursor are
  pending, and nothing else changes.
* `Scan.Plain.fault`: a failure names the malformed byte and its offset, whatever
  the scan was about to do.
* `Scan.Plain.ok_truncated`: what succeeds in front of a malformed byte also
  succeeds where the source ends instead, with the same result.
-/

namespace ScalaLexer

namespace Cursor

/-- `after` is the cursor when `run` was read on top of what was pending. -/
structure Reads (cursor : Cursor) (run : List Char) (after : Cursor) : Prop where
  ahead : cursor.ahead = run ++ after.ahead
  pending : after.pending = cursor.pending ++ run
  start : after.start = cursor.start
  pos : after.pos = cursor.pos + Utf8.byteLength run
  malformed : after.malformed = cursor.malformed

namespace Reads

variable {cursor between after : Cursor} {run more : List Char}

theorem refl (cursor : Cursor) : cursor.Reads [] cursor :=
  ⟨rfl, by simp, rfl, by simp, rfl⟩

theorem trans (hfirst : cursor.Reads run between) (hsecond : between.Reads more after) :
    cursor.Reads (run ++ more) after where
  ahead := by rw [hfirst.ahead, hsecond.ahead, List.append_assoc]
  pending := by rw [hsecond.pending, hfirst.pending, List.append_assoc]
  start := by rw [hsecond.start, hfirst.start]
  pos := by rw [hsecond.pos, hfirst.pos, Utf8.byteLength_append, Nat.add_assoc]
  malformed := by rw [hsecond.malformed, hfirst.malformed]

theorem settle (hreads : cursor.Reads run after) : cursor.Reads run after.settle :=
  ⟨hreads.ahead, hreads.pending, hreads.start, hreads.pos, hreads.malformed⟩

theorem of_settle (cursor : Cursor) : cursor.Reads [] cursor.settle :=
  (refl cursor).settle

theorem of_advance (hahead : cursor.ahead = run ++ more) :
    cursor.Reads run (cursor.advance run more) :=
  ⟨hahead, rfl, rfl, rfl, rfl⟩

end Reads

/-- Nothing is pending. -/
structure Idle (cursor : Cursor) : Prop where
  start : cursor.start = cursor.pos
  pending : cursor.pending = []

/-- `after` is the cursor when `run` was read and forgotten, along with all that
was pending before. -/
structure Drops (cursor : Cursor) (run : List Char) (after : Cursor) : Prop where
  ahead : cursor.ahead = run ++ after.ahead
  pos : after.pos = cursor.pos + Utf8.byteLength run
  malformed : after.malformed = cursor.malformed
  idle : after.Idle

theorem Idle.drops {cursor : Cursor} (hidle : cursor.Idle) : cursor.Drops [] cursor :=
  ⟨rfl, by simp, rfl, hidle⟩

theorem Reads.release {cursor after : Cursor} {run : List Char} (hreads : cursor.Reads run after) :
    cursor.Drops run after.release :=
  ⟨hreads.ahead, hreads.pos, hreads.malformed, rfl, rfl⟩

theorem Drops.trans {cursor between after : Cursor} {run more : List Char}
    (hfirst : cursor.Drops run between) (hsecond : between.Drops more after) :
    cursor.Drops (run ++ more) after where
  ahead := by rw [hfirst.ahead, hsecond.ahead, List.append_assoc]
  pos := by rw [hsecond.pos, hfirst.pos, Utf8.byteLength_append, Nat.add_assoc]
  malformed := by rw [hsecond.malformed, hfirst.malformed]
  idle := hsecond.idle

/-- What is dropped behind the first part of a run. -/
theorem Drops.of_append {cursor between after : Cursor} {run more : List Char}
    (hall : cursor.Drops (run ++ more) after) (hfirst : cursor.Drops run between) :
    between.Drops more after where
  ahead := by
    have hahead := hfirst.ahead.symm.trans hall.ahead
    rwa [List.append_assoc, List.append_cancel_left_eq] at hahead
  pos := by rw [hall.pos, hfirst.pos, Utf8.byteLength_append, Nat.add_assoc]
  malformed := by rw [hall.malformed, hfirst.malformed]
  idle := hall.idle

theorem Drops.settle {cursor after : Cursor} {run : List Char} (hdrops : cursor.Drops run after) :
    cursor.Drops run after.settle :=
  ⟨hdrops.ahead, hdrops.pos, hdrops.malformed, hdrops.idle.start, hdrops.idle.pending⟩

/-- The offset at which the text ahead ends. -/
def limit (cursor : Cursor) : Nat :=
  cursor.pos + Utf8.byteLength cursor.ahead

theorem Reads.limit {cursor after : Cursor} {run : List Char} (hreads : cursor.Reads run after) :
    after.limit = cursor.limit := by
  rw [Cursor.limit, Cursor.limit, hreads.pos, hreads.ahead, Utf8.byteLength_append, Nat.add_assoc]

theorem Drops.limit {cursor after : Cursor} {run : List Char} (hdrops : cursor.Drops run after) :
    after.limit = cursor.limit := by
  rw [Cursor.limit, Cursor.limit, hdrops.pos, hdrops.ahead, Utf8.byteLength_append, Nat.add_assoc]

/-- The fault is that of the malformed byte behind the text ahead. -/
structure Blames (cursor : Cursor) (fault : Fault) : Prop where
  byte : cursor.malformed = some fault.byte
  offset : fault.offset = .ofNat cursor.limit

theorem Blames.of_drops {cursor between : Cursor} {run : List Char} {fault : Fault}
    (hblames : between.Blames fault) (hdrops : cursor.Drops run between) : cursor.Blames fault :=
  ⟨hdrops.malformed ▸ hblames.byte, hdrops.limit ▸ hblames.offset⟩

theorem Blames.of_reads {cursor between : Cursor} {run : List Char} {fault : Fault}
    (hblames : between.Blames fault) (hreads : cursor.Reads run between) : cursor.Blames fault :=
  ⟨hreads.malformed ▸ hblames.byte, hreads.limit ▸ hblames.offset⟩

/-- The same cursor where the source ends in front of the malformed byte. -/
def truncated (cursor : Cursor) : Cursor :=
  { cursor with malformed := none }

@[simp] theorem truncated_ahead (cursor : Cursor) : cursor.truncated.ahead = cursor.ahead := rfl

end Cursor

namespace Scan

variable {α β : Type} {cursor after : Cursor}

section Primitives

variable {fault : Fault}

/-! ## Sequencing -/

theorem bind_eq_ok {scan : Scan α} {next : α → Scan β} {result : β} :
    (scan >>= next) cursor = .ok result after ↔
      ∃ value between, scan cursor = .ok value between ∧ next value between = .ok result after := by
  simp only [bind, EStateM.bind]
  cases scan cursor with
  | error _ _ => simp
  | ok value between =>
      constructor
      · exact fun h => ⟨value, between, rfl, h⟩
      · rintro ⟨_, _, hscan, h⟩
        cases hscan
        exact h

theorem bind_eq_error {scan : Scan α} {next : α → Scan β} :
    (scan >>= next) cursor = .error fault after ↔
      scan cursor = .error fault after ∨
        ∃ value between, scan cursor = .ok value between ∧
          next value between = .error fault after := by
  simp only [bind, EStateM.bind]
  cases scan cursor with
  | error _ _ => simp
  | ok value between =>
      constructor
      · exact fun h => .inr ⟨value, between, rfl, h⟩
      · rintro (hscan | ⟨_, _, hscan, h⟩)
        · cases hscan
        · cases hscan
          exact h

theorem pure_eq_ok {value result : α} :
    (pure value : Scan α) cursor = .ok result after ↔ value = result ∧ cursor = after := by
  simp [pure, EStateM.pure]

/-! ## The primitives -/

theorem atEnd_eq_ok {value result : α} (h : atEnd value cursor = .ok result after) :
    result = value ∧ after = cursor.settle ∧ cursor.malformed = none := by
  unfold atEnd at h
  split at h
  · cases h
  · next hmalformed =>
      cases h
      exact ⟨rfl, rfl, hmalformed⟩

theorem atEnd_eq_error {value : α} (h : atEnd value cursor = .error fault after) :
    after = cursor ∧ cursor.malformed = some fault.byte ∧ fault.offset = .ofNat cursor.pos := by
  unfold atEnd at h
  split at h
  · next hmalformed =>
      cases h
      exact ⟨rfl, hmalformed, rfl⟩
  · cases h

/-- Looking answers with the character, and with nothing only at the end of the
source. -/
theorem peek_eq_ok {n : Nat} {found : Option Char} (h : peek n cursor = .ok found after) :
    after = cursor ∧ cursor.ahead[n]? = found ∧ (found = none → cursor.malformed = none) := by
  unfold peek at h
  split at h
  · next hfound =>
      cases h
      exact ⟨rfl, hfound, nofun⟩
  · next hnone =>
      split at h
      · cases h
      · next hmalformed =>
          cases h
          exact ⟨rfl, hnone, fun _ => hmalformed⟩

theorem startsWith_eq_ok {text : String} {found : Bool}
    (h : startsWith text cursor = .ok found after) :
    after = cursor ∧ (found = true ↔ text.toList <+: cursor.ahead) := by
  cases h
  exact ⟨rfl, List.isPrefixOf_iff_prefix⟩

theorem next_eq_ok {c : Char} {rest : List Char} {found : Option Char}
    (hahead : cursor.ahead = c :: rest) (h : next cursor = .ok found after) :
    found = some c ∧ cursor.Reads [c] after := by
  simp only [next, hahead] at h
  cases h
  exact ⟨rfl, .of_advance hahead⟩

/-- Reading a part reads exactly what the cut says. -/
theorem readPart_eq_ok {split : List Char → List Char × List Char}
    (happend : ∀ text, (split text).1 ++ (split text).2 = text)
    (h : readPart split cursor = .ok () after) : cursor.Reads (split cursor.ahead).1 after := by
  have hreads := Cursor.Reads.of_advance (happend cursor.ahead).symm
  simp only [readPart] at h
  split at h
  · obtain ⟨_, rfl, _⟩ := atEnd_eq_ok h
    exact hreads.settle
  · cases h
    exact hreads.settle

/-- A reading that fails has read its part. -/
theorem readPart_eq_error {split : List Char → List Char × List Char}
    (h : readPart split cursor = .error fault after) :
    after = cursor.advance (split cursor.ahead).1 (split cursor.ahead).2 := by
  simp only [readPart] at h
  split at h
  · exact (atEnd_eq_error h).1
  · cases h

/-- A part that was read is finished: no character can be taken back, and only the
end of the source can stand right behind it. -/
theorem readPart_finished {split : List Char → List Char × List Char}
    (h : readPart split cursor = .ok () after) :
    after.width = 0 ∧ (after.ahead = [] → after.malformed = none) := by
  simp only [readPart] at h
  split at h
  · obtain ⟨_, rfl, hmalformed⟩ := atEnd_eq_ok h
    exact ⟨rfl, fun _ => hmalformed⟩
  · next hrest =>
      cases h
      exact ⟨rfl, fun hnil => absurd (List.isEmpty_iff.mpr hnil) hrest⟩

theorem span_append (isMember : Char → Bool) (text : List Char) :
    (text.span isMember).1 ++ (text.span isMember).2 = text := by
  rw [List.span_eq_takeWhile_dropWhile]
  exact List.takeWhile_append_dropWhile

theorem readWhile_eq_ok {isMember : Char → Bool} (h : readWhile isMember cursor = .ok () after) :
    cursor.Reads (cursor.ahead.takeWhile isMember) after := by
  have hreads := readPart_eq_ok (span_append isMember) h
  rwa [List.span_eq_takeWhile_dropWhile] at hreads

theorem readExactly_eq_ok {n : Nat} (h : readExactly n cursor = .ok () after) :
    cursor.Reads (cursor.ahead.take n) after := by
  cases h
  exact (Cursor.Reads.of_advance (List.take_append_drop n cursor.ahead).symm).settle

/-- A character that is accepted stands ahead and is read. -/
theorem accept_eq_ok {isMember : Char → Bool} {accepted : Bool}
    (h : accept isMember cursor = .ok accepted after) :
    (accepted = true ∧ ∃ c, isMember c = true ∧ cursor.Reads [c] after) ∨
      (accepted = false ∧ (∀ c ∈ cursor.ahead.head?, isMember c = false) ∧
        cursor.Reads [] after) := by
  simp only [accept] at h
  split at h
  · next c rest hahead =>
      split at h
      · next hmember =>
          cases h
          exact .inl ⟨rfl, c, hmember, .of_advance hahead⟩
      · next hmember =>
          cases h
          refine .inr ⟨rfl, ?_, .of_settle cursor⟩
          simpa [hahead] using hmember
  · next hahead =>
      obtain ⟨rfl, rfl, _⟩ := atEnd_eq_ok h
      exact .inr ⟨rfl, by simp [hahead], .of_settle cursor⟩

end Primitives

/-! ## Plain scans -/

/-- A scan that reads and looks and does nothing else.  It sees the pending and
the coming characters, and not where it is. -/
inductive Plain : {α : Type} → Scan α → Prop
  | pure {α : Type} (value : α) : Plain (pure value)
  | bind {α β : Type} {scan : Scan α} {next : α → Scan β} :
      Plain scan → (∀ value, Plain (next value)) → Plain (scan >>= next)
  | get {α : Type} {next : Cursor → Scan α} : (∀ cursor, Plain (next cursor)) →
      (∀ cursor other : Cursor, cursor.pending = other.pending → cursor.ahead = other.ahead →
        next cursor = next other) → Plain (get >>= next)
  | next : Plain Scan.next
  | peek (n : Nat) : Plain (Scan.peek n)
  | accept (isMember : Char → Bool) : Plain (Scan.accept isMember)
  | readPart {split : List Char → List Char × List Char} :
      (∀ text, (split text).1 ++ (split text).2 = text) → Plain (Scan.readPart split)
  | readExactly (n : Nat) : Plain (Scan.readExactly n)

namespace Plain

variable {scan : Scan α} {result : α}

theorem ite {condition : Prop} [Decidable condition] {yes no : Scan α} (hyes : Plain yes)
    (hno : Plain no) : Plain (if condition then yes else no) := by
  split
  · exact hyes
  · exact hno

theorem readWhile (isMember : Char → Bool) : Plain (Scan.readWhile isMember) :=
  readPart (span_append isMember)

theorem startsWith (text : String) : Plain (Scan.startsWith text) :=
  @get _ (fun cursor => Pure.pure (text.toList.isPrefixOf cursor.ahead))
    (fun _ => .pure _) fun _ _ _ hahead => by rw [hahead]

theorem pending : Plain Scan.pending :=
  @get _ (fun cursor => Pure.pure (String.ofList cursor.pending))
    (fun _ => .pure _) fun _ _ hpending _ => by rw [hpending]

/-- All that happens is that characters are read. -/
theorem reads (hplain : Plain scan) (h : scan cursor = .ok result after) :
    ∃ run, cursor.Reads run after := by
  induction hplain generalizing cursor after with
  | pure value =>
      obtain ⟨_, rfl⟩ := pure_eq_ok.mp h
      exact ⟨[], .refl cursor⟩
  | bind _ _ ihscan ihnext =>
      obtain ⟨value, between, hscan, hnext⟩ := bind_eq_ok.mp h
      obtain ⟨run, hrun⟩ := ihscan hscan
      obtain ⟨more, hmore⟩ := ihnext value hnext
      exact ⟨run ++ more, hrun.trans hmore⟩
  | get _ _ ihnext => exact ihnext cursor h
  | next =>
      simp only [Scan.next] at h
      split at h
      · next hahead =>
          cases h
          exact ⟨_, .of_advance hahead⟩
      · obtain ⟨_, rfl, _⟩ := atEnd_eq_ok h
        exact ⟨[], .of_settle cursor⟩
  | peek n =>
      obtain ⟨rfl, _⟩ := peek_eq_ok h
      exact ⟨[], .refl after⟩
  | accept isMember =>
      rcases accept_eq_ok h with ⟨_, c, _, hreads⟩ | ⟨_, _, hreads⟩
      · exact ⟨[c], hreads⟩
      · exact ⟨[], hreads⟩
  | readPart happend => exact ⟨_, readPart_eq_ok happend h⟩
  | readExactly n => exact ⟨_, readExactly_eq_ok h⟩

/-- What fails, fails at the malformed byte. -/
theorem fault (hplain : Plain scan) {fault : Fault} (h : scan cursor = .error fault after) :
    cursor.Blames fault := by
  induction hplain generalizing cursor after with
  | pure value => cases h
  | bind hscan _ ihscan ihnext =>
      rcases bind_eq_error.mp h with hfail | ⟨value, between, hok, hfail⟩
      · exact ihscan hfail
      · obtain ⟨run, hreads⟩ := hscan.reads hok
        exact (ihnext value hfail).of_reads hreads
  | get _ _ ihnext => exact ihnext cursor h
  | next =>
      simp only [Scan.next] at h
      split at h
      · cases h
      · next hahead =>
          obtain ⟨_, hbyte, hoffset⟩ := atEnd_eq_error h
          exact ⟨hbyte, by simp [Cursor.limit, hahead, hoffset]⟩
  | peek n =>
      simp only [Scan.peek] at h
      split at h
      · cases h
      · split at h
        · next hbyte =>
            cases h
            exact ⟨hbyte, rfl⟩
        · cases h
  | accept isMember =>
      simp only [Scan.accept] at h
      split at h
      · split at h <;> cases h
      · next hahead =>
          obtain ⟨_, hbyte, hoffset⟩ := atEnd_eq_error h
          exact ⟨hbyte, by simp [Cursor.limit, hahead, hoffset]⟩
  | readPart happend =>
      simp only [Scan.readPart] at h
      split at h
      · next hend =>
          obtain ⟨_, hbyte, hoffset⟩ := atEnd_eq_error h
          have hreads := Cursor.Reads.of_advance (happend cursor.ahead).symm
          refine ⟨hbyte, hoffset.trans ?_⟩
          rw [← hreads.limit, Cursor.limit]
          simp [Cursor.advance, List.isEmpty_iff.mp hend]
      · cases h
  | readExactly n => cases h

theorem ok_truncated (hplain : Plain scan) (h : scan cursor = .ok result after) :
    scan cursor.truncated = .ok result after.truncated := by
  induction hplain generalizing cursor after with
  | pure value =>
      obtain ⟨rfl, rfl⟩ := pure_eq_ok.mp h
      rfl
  | bind _ _ ihscan ihnext =>
      obtain ⟨value, between, hscan, hnext⟩ := bind_eq_ok.mp h
      exact bind_eq_ok.mpr ⟨value, between.truncated, ihscan hscan, ihnext value hnext⟩
  | get _ hlocal ihnext =>
      -- the scan sees the pending and the coming characters only, and these are the same
      have hnext := ihnext cursor h
      rw [hlocal cursor cursor.truncated rfl rfl] at hnext
      exact hnext
  | next =>
      simp only [Scan.next, Cursor.truncated] at h ⊢
      split at h
      · cases h
        rfl
      · obtain ⟨rfl, rfl, _⟩ := atEnd_eq_ok h
        rfl
  | peek n =>
      obtain ⟨rfl, hfound, hnone⟩ := peek_eq_ok h
      simp only [Scan.peek, Cursor.truncated, hfound]
      cases result <;> rfl
  | accept isMember =>
      simp only [Scan.accept, Cursor.truncated] at h ⊢
      split at h
      · split at h
        · next hmember =>
            cases h
            rw [if_pos hmember]
            rfl
        · next hmember =>
            cases h
            rw [if_neg hmember]
            rfl
      · obtain ⟨rfl, rfl, _⟩ := atEnd_eq_ok h
        rfl
  | readPart happend =>
      simp only [Scan.readPart, Cursor.truncated_ahead] at h ⊢
      split at h
      · obtain ⟨rfl, rfl, _⟩ := atEnd_eq_ok h
        simp [*, atEnd, Cursor.advance, Cursor.truncated, Cursor.settle]
      · cases h
        simp [*, Cursor.advance, Cursor.truncated, Cursor.settle]
  | readExactly n =>
      cases h
      rfl

/-- A failure behind a plain scan is the failure of what comes next, or its own. -/
theorem bind_fault {next : α → Scan β} {fault : Fault} (hplain : Plain scan)
    (hnext : ∀ value between, next value between = .error fault after → between.Blames fault)
    (h : (scan >>= next) cursor = .error fault after) : cursor.Blames fault := by
  rcases bind_eq_error.mp h with hfail | ⟨value, between, hok, hfail⟩
  · exact hplain.fault hfail
  · obtain ⟨run, hreads⟩ := hplain.reads hok
    exact (hnext value between hfail).of_reads hreads

theorem bind_ok_truncated {next : α → Scan β} {result : β} (hplain : Plain scan)
    (hnext : ∀ value between, next value between = .ok result after →
      next value between.truncated = .ok result after.truncated)
    (h : (scan >>= next) cursor = .ok result after) :
    (scan >>= next) cursor.truncated = .ok result after.truncated := by
  obtain ⟨value, between, hok, hrest⟩ := bind_eq_ok.mp h
  exact bind_eq_ok.mpr ⟨value, _, hplain.ok_truncated hok, hnext value between hrest⟩

end Plain

/-! ## Skipping -/

/-- What is read by a plain scan and forgotten. -/
private theorem bind_release_eq_ok {scan : Scan α} :
    (do let _ ← scan; release) cursor = .ok () after ↔
      ∃ value between, scan cursor = .ok value between ∧ after = between.release := by
  constructor
  · intro h
    obtain ⟨value, between, hscan, hrelease⟩ := bind_eq_ok.mp h
    cases hrelease
    exact ⟨value, between, hscan, rfl⟩
  · rintro ⟨value, between, hscan, rfl⟩
    exact bind_eq_ok.mpr ⟨value, between, hscan, rfl⟩

private theorem bind_release_fault {scan : Scan α} {fault : Fault} (hplain : Plain scan)
    (h : (do let _ ← scan; release) cursor = .error fault after) : cursor.Blames fault := by
  refine hplain.bind_fault (fun _ _ hrelease => ?_) h
  cases hrelease

private theorem bind_release_ok_truncated {scan : Scan α} (hplain : Plain scan)
    (h : (do let _ ← scan; release) cursor = .ok () after) :
    (do let _ ← scan; release) cursor.truncated = .ok () after.truncated := by
  obtain ⟨value, between, hscan, rfl⟩ := bind_release_eq_ok.mp h
  exact bind_release_eq_ok.mpr ⟨value, _, hplain.ok_truncated hscan, rfl⟩

theorem skip_cons_eq_ok {c : Char} {rest : List Char} (hahead : cursor.ahead = c :: rest)
    (h : skip cursor = .ok () after) : cursor.Drops [c] after := by
  obtain ⟨found, between, hnext, rfl⟩ := bind_release_eq_ok.mp h
  exact (next_eq_ok hahead hnext).2.release

/-- The character is skipped if there is one. -/
theorem skip_eq_ok (h : skip cursor = .ok () after) :
    cursor.Drops (cursor.ahead.take 1) after := by
  cases hahead : cursor.ahead with
  | cons c rest => exact skip_cons_eq_ok hahead h
  | nil =>
      obtain ⟨found, between, hnext, rfl⟩ := bind_release_eq_ok.mp h
      simp only [next, hahead] at hnext
      obtain ⟨_, rfl, _⟩ := atEnd_eq_ok hnext
      exact (Cursor.Reads.of_settle cursor).release

theorem skip_fault {fault : Fault} (h : skip cursor = .error fault after) :
    cursor.Blames fault :=
  bind_release_fault .next h

theorem skip_ok_truncated (h : skip cursor = .ok () after) :
    skip cursor.truncated = .ok () after.truncated :=
  bind_release_ok_truncated .next h

theorem skipWhile_eq_ok {isMember : Char → Bool} (h : skipWhile isMember cursor = .ok () after) :
    cursor.Drops (cursor.ahead.takeWhile isMember) after := by
  obtain ⟨_, between, hread, rfl⟩ := bind_release_eq_ok.mp h
  exact (readWhile_eq_ok hread).release

theorem skipWhile_fault {isMember : Char → Bool} {fault : Fault}
    (h : skipWhile isMember cursor = .error fault after) : cursor.Blames fault :=
  bind_release_fault (.readWhile isMember) h

theorem skipWhile_ok_truncated {isMember : Char → Bool}
    (h : skipWhile isMember cursor = .ok () after) :
    skipWhile isMember cursor.truncated = .ok () after.truncated :=
  bind_release_ok_truncated (.readWhile isMember) h

end Scan

/-! ## The readings of a literal are plain -/

namespace Literal

open Scan (Plain)

theorem endsCleanly_plain : Plain endsCleanly :=
  .bind (.peek 0) fun _ => .ite (.bind .next fun _ => .pure _) (.pure _)

theorem exponentAndSuffix_plain : Plain exponentAndSuffix := by
  have hsuffix : Plain (do
      let _ ← Scan.accept (fun c => ['f', 'F', 'd', 'D'].contains c)
      endsCleanly) := .bind (.accept _) fun _ => endsCleanly_plain
  exact .bind (.accept _) fun _ =>
    .ite (.bind (.accept _) fun _ => .bind (.readWhile _) fun _ => hsuffix) hsuffix

theorem fraction_plain : Plain fraction :=
  .bind (.readWhile _) fun _ => exponentAndSuffix_plain

theorem wholePart_plain : Plain wholePart :=
  .bind (.accept _) fun _ =>
    .ite (.bind (.accept _) fun _ => .ite (.readWhile _) (.readWhile _)) (.readWhile _)

theorem behindWholePart_plain : Plain behindWholePart :=
  .bind (.accept _) fun _ => .ite endsCleanly_plain (.bind (.peek 0) fun _ =>
    .ite (.bind (.peek 1) fun _ => .ite (.bind .next fun _ => fraction_plain) (.pure _))
      exponentAndSuffix_plain)

theorem number_plain : Plain number :=
  .bind wholePart_plain fun _ => behindWholePart_plain

end Literal

end ScalaLexer
