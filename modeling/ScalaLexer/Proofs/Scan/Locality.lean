import ScalaLexer.Proofs.Scan.Agreement
import ScalaLexer.Proofs.Scan.Reading
import ScalaLexer.Proofs.Text.Utf8

/-!
# Scans that do not depend on what follows

A scan is local if it reads the same characters, with the same result, wherever it
stands and whatever follows them, as long as the text goes on alike (`Agrees`).
`Scan.LocalAt` says this of one run of a scan, so that what is known about the cursor
can be used.  It is closed under sequencing, and most scans are local because all
their parts are.

A number is the first example.  Its decimal point asks for one character more than
the others: the point belongs to the number only if a digit stands behind it.
-/

namespace ScalaLexer

/-! ## The same place in another text -/

/-- The second cursor stands `k` bytes further behind than the first one, with the
same text pending, and no byte is malformed. -/
structure Cursor.Shifted (k : Nat) (cursor cursor' : Cursor) : Prop where
  start : cursor'.start = cursor.start + k
  pos : cursor'.pos = cursor.pos + k
  pending : cursor'.pending = cursor.pending
  valid : cursor.malformed = none
  valid' : cursor'.malformed = none

namespace Cursor.Shifted

variable {k : Nat} {cursor cursor' : Cursor}

theorem refl (hvalid : cursor.malformed = none) : cursor.Shifted 0 cursor :=
  ⟨rfl, rfl, rfl, hvalid, hvalid⟩

theorem settle (h : cursor.Shifted k cursor') : cursor.settle.Shifted k cursor'.settle :=
  ⟨h.start, h.pos, h.pending, h.valid, h.valid'⟩

theorem settle_right (h : cursor.Shifted k cursor') : cursor.Shifted k cursor'.settle :=
  ⟨h.start, h.pos, h.pending, h.valid, h.valid'⟩

theorem release (h : cursor.Shifted k cursor') : cursor.release.Shifted k cursor'.release :=
  ⟨h.pos, h.pos, rfl, h.valid, h.valid'⟩

theorem advance (h : cursor.Shifted k cursor') (run rest rest' : List Char) :
    (cursor.advance run rest).Shifted k (cursor'.advance run rest') where
  start := h.start
  pos := by
    change cursor'.pos + _ = cursor.pos + _ + k
    rw [h.pos]
    omega
  pending := congrArg (· ++ run) h.pending
  valid := h.valid
  valid' := h.valid'

end Cursor.Shifted

/-! ## Scans of a text -/

namespace Scan

variable {α β : Type} {cursor after : Cursor}

/-! On a text without malformed bytes every primitive succeeds. -/

theorem bind_of_ok {scan : Scan α} {next : α → Scan β} {value : α} {between : Cursor}
    (h : scan cursor = .ok value between) : (scan >>= next) cursor = next value between := by
  simp only [bind, EStateM.bind, h]

theorem peek_of_valid (hvalid : cursor.malformed = none) (n : Nat) :
    peek n cursor = .ok cursor.ahead[n]? cursor := by
  unfold peek
  split
  · next hfound => rw [hfound]
  · next hnone => rw [hvalid, hnone]

theorem next_of_cons {c : Char} {rest : List Char} (hahead : cursor.ahead = c :: rest) :
    next cursor = .ok (some c) (cursor.advance [c] rest) := by
  rw [next, hahead]

theorem next_of_nil (hvalid : cursor.malformed = none) (hahead : cursor.ahead = []) :
    next cursor = .ok none cursor.settle := by
  simp only [next, hahead, atEnd, hvalid]

theorem accept_of_member {isMember : Char → Bool} {c : Char} {rest : List Char}
    (hahead : cursor.ahead = c :: rest) (hmember : isMember c = true) :
    accept isMember cursor = .ok true (cursor.advance [c] rest) := by
  simp only [accept, hahead, hmember, if_true]

theorem accept_of_stop {isMember : Char → Bool} (hvalid : cursor.malformed = none)
    (hstop : ∀ c ∈ cursor.ahead.head?, isMember c = false) :
    accept isMember cursor = .ok false cursor.settle := by
  unfold accept
  split
  · next c rest hahead =>
      rw [if_neg]
      simp [hstop c (by rw [hahead]; rfl)]
  · simp only [atEnd, hvalid]

theorem readPart_of_valid (hvalid : cursor.malformed = none)
    (cut : List Char → List Char × List Char) :
    readPart cut cursor =
      .ok () (cursor.advance (cut cursor.ahead).1 (cut cursor.ahead).2).settle := by
  have hafter : (cursor.advance (cut cursor.ahead).1 (cut cursor.ahead).2).malformed = none :=
    hvalid
  simp only [readPart]
  split
  · simp only [atEnd, hafter]
  · rfl

theorem readWhile_of_valid (hvalid : cursor.malformed = none) (isMember : Char → Bool) :
    readWhile isMember cursor =
      .ok () (cursor.advance (cursor.ahead.takeWhile isMember)
        (cursor.ahead.dropWhile isMember)).settle := by
  rw [readWhile, readPart_of_valid hvalid, List.span_eq_takeWhile_dropWhile]

theorem readExactly_of_append {run rest : List Char} {n : Nat}
    (hahead : cursor.ahead = run ++ rest) (hlength : run.length = n) :
    readExactly n cursor = .ok () (cursor.advance run rest).settle := by
  rw [readExactly, hahead, ← hlength, List.take_left, List.drop_left]

/-! ## Locality -/

/-- What is said about the result of a scan when another text follows: how it is
carried over to another place, and when it can be. -/
structure Transfer (α : Type) where
  shift : Nat → α → α
  Fits : α → List Char → List Char → Prop

/-- The result says nothing about the place. -/
def Transfer.same : Transfer α :=
  ⟨fun _ value => value, fun _ _ _ => True⟩

/-- What the scan reads at the cursor of a text it reads in front of every text that goes on
alike, with the same result. -/
def LocalAt (transfer : Transfer α) (scan : Scan α) (cursor : Cursor) : Prop :=
  cursor.malformed = none → ∀ after value, scan cursor = .ok value after →
    ∃ run, cursor.ahead = run ++ after.ahead ∧
      ∀ k cursor' rest', cursor.Shifted k cursor' → cursor'.ahead = run ++ rest' →
        Agrees after.ahead rest' → transfer.Fits value after.ahead rest' →
        ∃ after', scan cursor' = .ok (transfer.shift k value) after' ∧ after.Shifted k after' ∧
          after'.ahead = rest'

namespace LocalAt

variable {transfer : Transfer β} {scan : Scan α} {next : α → Scan β} {isMember : Char → Bool}

theorem bind (hscan : LocalAt .same scan cursor)
    (hnext : ∀ value between, scan cursor = .ok value between →
      LocalAt transfer (next value) between) :
    LocalAt transfer (scan >>= next) cursor := by
  intro hvalid after result h
  obtain ⟨value, between, hok, hrest⟩ := bind_eq_ok.mp h
  obtain ⟨run, hrun, hscan⟩ := hscan hvalid between value hok
  obtain ⟨_, _, hsame, _⟩ := hscan 0 cursor _ (.refl hvalid) hrun (.refl _) trivial
  obtain ⟨more, hmore, hnext⟩ := hnext value between hok hsame.valid after result hrest
  refine ⟨run ++ more, by rw [hrun, hmore, List.append_assoc], ?_⟩
  intro k cursor' rest' hshifted hahead hagrees hfits
  rw [List.append_assoc] at hahead
  have hbetween : Agrees between.ahead (more ++ rest') := hmore ▸ hagrees.append_left more
  obtain ⟨between', hok', hshifted', hahead'⟩ :=
    hscan k cursor' _ hshifted hahead hbetween trivial
  obtain ⟨after', hrest', hafter⟩ := hnext k between' rest' hshifted' hahead' hagrees hfits
  exact ⟨after', bind_eq_ok.mpr ⟨value, between', hok', hrest'⟩, hafter⟩

/-- A scan is local where it does the same as a local one, in both texts. -/
theorem congr {routine other : Scan β} (hother : LocalAt transfer other cursor)
    (hsame : cursor.malformed = none → routine cursor = other cursor)
    (hsame' : ∀ after value, routine cursor = .ok value after →
      ∀ run, cursor.ahead = run ++ after.ahead →
      ∀ k cursor' rest', cursor.Shifted k cursor' → cursor'.ahead = run ++ rest' →
        Agrees after.ahead rest' → transfer.Fits value after.ahead rest' →
        routine cursor' = other cursor') :
    LocalAt transfer routine cursor := by
  intro hvalid after value h
  obtain ⟨run, hrun, hlocal⟩ := hother hvalid after value (hsame hvalid ▸ h)
  refine ⟨run, hrun, fun k cursor' rest' hshifted hahead hagrees hfits => ?_⟩
  rw [hsame' after value h run hrun k cursor' rest' hshifted hahead hagrees hfits]
  exact hlocal k cursor' rest' hshifted hahead hagrees hfits

theorem pure (value : α) : LocalAt .same (Pure.pure value) cursor := by
  intro _ after result h
  obtain ⟨rfl, rfl⟩ := pure_eq_ok.mp h
  refine ⟨[], rfl, fun k cursor' rest' hshifted hahead _ _ => ?_⟩
  exact ⟨cursor', rfl, hshifted, hahead⟩

theorem ite {condition : Prop} [Decidable condition] {yes no : Scan β}
    (hyes : condition → LocalAt transfer yes cursor)
    (hno : ¬ condition → LocalAt transfer no cursor) :
    LocalAt transfer (if condition then yes else no) cursor := by
  split
  · next h => exact hyes h
  · next h => exact hno h

/-- A scan that looks at what is pending sees the same in the other text. -/
theorem get {next : Cursor → Scan β}
    (hpending : ∀ cursor', cursor'.pending = cursor.pending → next cursor' = next cursor)
    (h : LocalAt transfer (next cursor) cursor) : LocalAt transfer (get >>= next) cursor := by
  intro hvalid after result hok
  obtain ⟨run, hrun, hlocal⟩ := h hvalid after result hok
  refine ⟨run, hrun, fun k cursor' rest' hshifted hahead hagrees hfits => ?_⟩
  have hsame := hpending cursor' hshifted.pending
  obtain ⟨after', hafter⟩ := hlocal k cursor' rest' hshifted hahead hagrees hfits
  rw [← hsame] at hafter
  exact ⟨after', hafter⟩

theorem pending : LocalAt .same Scan.pending cursor := by
  intro _ after value h
  cases h
  refine ⟨[], rfl, fun k cursor' rest' hshifted hahead _ _ => ⟨cursor', ?_, hshifted, hahead⟩⟩
  rw [Scan.pending, hshifted.pending]
  rfl

theorem next_of_ne_nil (hne : cursor.ahead ≠ []) : LocalAt .same Scan.next cursor := by
  intro _ after value h
  obtain ⟨c, rest, hahead⟩ := List.exists_cons_of_ne_nil hne
  rw [next_of_cons hahead] at h
  cases h
  refine ⟨[c], hahead, fun k cursor' rest' hshifted hahead' _ _ => ?_⟩
  exact ⟨_, next_of_cons hahead', hshifted.advance [c] rest rest', rfl⟩

theorem readExactly {n : Nat} (hn : n ≤ cursor.ahead.length) :
    LocalAt .same (Scan.readExactly n) cursor := by
  intro _ after value h
  have htake : (cursor.ahead.take n).length = n := by rw [List.length_take]; omega
  cases h
  refine ⟨cursor.ahead.take n, (List.take_append_drop n cursor.ahead).symm, ?_⟩
  intro k cursor' rest' hshifted hahead _ _
  exact ⟨_, readExactly_of_append hahead htake, (hshifted.advance _ _ _).settle, rfl⟩

theorem release : LocalAt .same Scan.release cursor := by
  intro _ after result h
  cases h
  refine ⟨[], rfl, fun k cursor' rest' hshifted hahead _ _ => ?_⟩
  exact ⟨cursor'.release, rfl, hshifted.release, hahead⟩

theorem skip_of_ne_nil (hne : cursor.ahead ≠ []) : LocalAt .same Scan.skip cursor :=
  bind (next_of_ne_nil hne) fun _ _ _ => release

theorem readPart {cut : List Char → List Char × List Char}
    (happend : ∀ text, (cut text).1 ++ (cut text).2 = text)
    (hcut : ∀ rest', Agrees (cut cursor.ahead).2 rest' →
      cut ((cut cursor.ahead).1 ++ rest') = ((cut cursor.ahead).1, rest')) :
    LocalAt .same (Scan.readPart cut) cursor := by
  intro _ after value h
  have hreads := readPart_eq_ok happend h
  have hrest := ahead_of_readPart h
  refine ⟨(cut cursor.ahead).1, hreads.ahead, fun k cursor' rest' hshifted hahead hagrees _ => ?_⟩
  have hread := readPart_of_valid hshifted.valid cut
  have hread' := readPart_of_valid hshifted.valid' cut
  rw [hread] at h
  cases h
  rw [hahead, hcut rest' (hrest ▸ hagrees)] at hread'
  exact ⟨_, hread', (hshifted.advance _ _ _).settle, rfl⟩

theorem readWhile (hmember : Spaceless isMember) :
    LocalAt .same (Scan.readWhile isMember) cursor := by
  refine readPart (span_append isMember) fun rest' hagrees => ?_
  rw [List.span_eq_takeWhile_dropWhile] at hagrees ⊢
  have htake := hagrees.takeWhile_eq hmember
  have hsplit := List.takeWhile_append_dropWhile (p := isMember)
    (l := cursor.ahead.takeWhile isMember ++ rest')
  rw [htake] at hsplit
  rw [List.span_eq_takeWhile_dropWhile, htake, List.append_cancel_left hsplit]

theorem accept (hmember : Spaceless isMember) : LocalAt .same (Scan.accept isMember) cursor := by
  intro _ after value h
  rcases accept_eq_ok h with ⟨rfl, c, hc, hreads⟩ | ⟨rfl, hstop, hreads⟩
  · refine ⟨[c], hreads.ahead, fun k cursor' rest' hshifted hahead _ _ => ?_⟩
    have hafter : cursor.advance [c] after.ahead = after := by
      simpa using (accept_of_member hreads.ahead hc).symm.trans h
    have hmoved := hshifted.advance [c] after.ahead rest'
    rw [hafter] at hmoved
    exact ⟨_, accept_of_member hahead hc, hmoved, rfl⟩
  · refine ⟨[], hreads.ahead, fun k cursor' rest' hshifted hahead hagrees _ => ?_⟩
    rw [accept_of_stop hshifted.valid hstop] at h
    cases h
    refine ⟨_, accept_of_stop hshifted.valid' ?_, hshifted.settle, hahead⟩
    rw [hahead]
    exact hagrees.stops hmember hstop

/-- What is decided by the next character stays decided, if a character of the class
is then read. -/
theorem ite_peek {more : α → Scan β} {no : Scan β} (hmember : Spaceless isMember)
    (hscan : cursor.ahead ≠ [] → LocalAt .same scan cursor)
    (hmore : ∀ value between, scan cursor = .ok value between →
      LocalAt transfer (more value) between)
    (hreads : ∀ value between, (cursor.ahead.head?).any isMember = true →
      scan cursor = .ok value between → between.ahead.length < cursor.ahead.length)
    (hno : LocalAt transfer no cursor) :
    LocalAt transfer (do if (← peek 0).any isMember then scan >>= more else no) cursor := by
  intro hvalid after result h
  obtain ⟨c?, place, hpeek, h⟩ := bind_eq_ok.mp h
  obtain ⟨rfl, hc, _⟩ := peek_eq_ok hpeek
  rw [← List.head?_eq_getElem?] at hc
  subst hc
  cases hhead : (place.ahead.head?).any isMember with
  | true =>
      rw [if_pos hhead] at h
      obtain ⟨value, between, hok, hrest⟩ := bind_eq_ok.mp h
      have hne : place.ahead ≠ [] := by
        intro hnil
        rw [hnil] at hhead
        cases hhead
      obtain ⟨run, hrun, hlocal⟩ := (bind (hscan hne) hmore) hvalid after result h
      refine ⟨run, hrun, fun k cursor' rest' hshifted hahead hagrees hfits => ?_⟩
      obtain ⟨first, hfirst, hsame⟩ := hscan hne hvalid between value hok
      obtain ⟨_, _, hsame, _⟩ := hsame 0 place _ (.refl hvalid) hfirst (.refl _) trivial
      obtain ⟨more, hmoreAhead, _⟩ := hmore value between hok hsame.valid after result hrest
      have hshorter := hreads value between hhead hok
      cases run with
      | nil =>
          have hsame := congrArg List.length hrun
          have hlength := congrArg List.length hmoreAhead
          simp only [List.nil_append, List.length_append] at hsame hlength
          omega
      | cons first run =>
          obtain ⟨after', hafter⟩ := hlocal k cursor' rest' hshifted hahead hagrees hfits
          refine ⟨after', bind_eq_ok.mpr ⟨_, _, peek_of_valid hshifted.valid' 0, ?_⟩, hafter.2⟩
          have hfirst : (cursor'.ahead[0]?).any isMember = true := by
            rw [hrun] at hhead
            rw [hahead]
            exact hhead
          rw [if_pos hfirst]
          exact hafter.1
  | false =>
      rw [if_neg (by rw [hhead]; exact nofun)] at h
      obtain ⟨run, hrun, hlocal⟩ := hno hvalid after result h
      refine ⟨run, hrun, fun k cursor' rest' hshifted hahead hagrees hfits => ?_⟩
      obtain ⟨after', hafter⟩ := hlocal k cursor' rest' hshifted hahead hagrees hfits
      refine ⟨after', bind_eq_ok.mpr ⟨_, _, peek_of_valid hshifted.valid' 0, ?_⟩, hafter.2⟩
      have hstop : ∀ c ∈ cursor'.ahead.head?, isMember c = false := by
        rw [hahead]
        refine (hagrees.append_left run).stops hmember ?_
        rw [← hrun]
        exact any_head?_eq_false.mp hhead
      have hnone : ¬ (cursor'.ahead[0]?).any isMember = true := by
        rw [← List.head?_eq_getElem?, any_head?_eq_false.mpr hstop]
        exact nofun
      rw [if_neg hnone]
      exact hafter.1

end LocalAt

end Scan

/-! ## Numbers -/

namespace Literal

open Scan (LocalAt bind_eq_ok)

variable {cursor after : Cursor}

theorem endsCleanly_local : LocalAt .same endsCleanly cursor := by
  refine LocalAt.ite_peek spaceless_isAlphanumeric LocalAt.next_of_ne_nil
    (fun _ _ _ => .pure false) (fun value between hhead hnext => ?_) (.pure true)
  cases hahead : cursor.ahead with
  | nil =>
      rw [hahead] at hhead
      cases hhead
  | cons c rest =>
      obtain ⟨_, hreads⟩ := Scan.next_eq_ok hahead hnext
      have hlength := congrArg List.length (hahead.symm.trans hreads.ahead)
      simp only [List.length_cons, List.length_append, List.length_nil] at hlength ⊢
      omega

theorem exponentAndSuffix_local : LocalAt .same exponentAndSuffix cursor := by
  have hsuffix {cursor : Cursor} : LocalAt .same (do
      let _ ← Scan.accept (fun c => ['f', 'F', 'd', 'D'].contains c)
      endsCleanly) cursor :=
    .bind (.accept (spaceless_contains (by decide))) fun _ _ _ => endsCleanly_local
  have hexponent : Spaceless fun c => c = 'e' || c = 'E' := spaceless_of_any (by decide)
  have hsign : Spaceless fun c => c = '+' || c = '-' := spaceless_of_any (by decide)
  refine .bind (.accept hexponent) fun _ _ _ => .ite (fun _ => ?_) fun _ => hsuffix
  exact .bind (.accept hsign) fun _ _ _ => .bind (.readWhile spaceless_isDigit) fun _ _ _ => hsuffix

theorem fraction_local : LocalAt .same fraction cursor :=
  .bind (.readWhile spaceless_isDigit) fun _ _ _ => exponentAndSuffix_local

theorem wholePart_local : LocalAt .same wholePart cursor := by
  have hzero : Spaceless (· = '0') := spaceless_of_any (by decide)
  have hmark : Spaceless fun c => c = 'x' || c = 'X' := spaceless_of_any (by decide)
  refine .bind (.accept hzero) fun _ _ _ => .ite (fun _ => ?_) fun _ => .readWhile spaceless_isDigit
  exact .bind (.accept hmark) fun _ _ _ => .ite (fun _ => .readWhile spaceless_isHexDigit)
    fun _ => .readWhile spaceless_isDigit

/-- A number ends in front of space. -/
theorem exponentAndSuffix_of_space (hvalid : cursor.malformed = none)
    (hspace : ∀ c ∈ cursor.ahead.head?, isSpace c = true) :
    exponentAndSuffix cursor = .ok true cursor.settle.settle := by
  have hstop {isMember : Char → Bool} (hmember : Spaceless isMember) :
      ∀ c ∈ cursor.ahead.head?, isMember c = false := fun c hc => hmember c (hspace c hc)
  have hexponent : Spaceless fun c => c = 'e' || c = 'E' := spaceless_of_any (by decide)
  refine bind_eq_ok.mpr ⟨false, _, Scan.accept_of_stop hvalid (hstop hexponent), ?_⟩
  have hsuffix : Scan.accept (fun c => ['f', 'F', 'd', 'D'].contains c) cursor.settle =
      .ok false cursor.settle.settle :=
    Scan.accept_of_stop hvalid (hstop (spaceless_contains (by decide)))
  refine bind_eq_ok.mpr ⟨false, _, hsuffix, ?_⟩
  have hsettled : cursor.settle.settle.malformed = none := hvalid
  refine bind_eq_ok.mpr ⟨_, _, Scan.peek_of_valid hsettled 0, ?_⟩
  have hclean : (cursor.ahead.head?).any isAlphanumeric = false :=
    any_head?_eq_false.mpr (hstop spaceless_isAlphanumeric)
  rw [List.head?_eq_getElem?] at hclean
  rw [if_neg]
  · rfl
  · change ¬ (cursor.ahead[0]?).any isAlphanumeric = true
    rw [hclean]
    exact nofun

/-- A fraction takes at least the digit in front of it. -/
theorem fraction_shorter {value : Bool} (hdigit : (cursor.ahead.head?).any isDigit = true)
    (h : fraction cursor = .ok value after) : after.ahead.length < cursor.ahead.length := by
  obtain ⟨_, between, hread, hrest⟩ := bind_eq_ok.mp h
  obtain ⟨run, hrun⟩ := exponentAndSuffix_plain.reads hrest
  have hlength := congrArg List.length (Scan.readWhile_eq_ok hread).ahead
  have hmore := congrArg List.length hrun.ahead
  obtain ⟨c, hc, hmember⟩ := (Option.any_eq_true ..).mp hdigit
  obtain ⟨rest, hahead⟩ := List.head?_eq_some_iff.mp hc
  rw [hahead, List.takeWhile_cons_of_pos hmember] at hlength
  rw [hahead]
  simp only [List.length_append, List.length_cons] at hlength hmore ⊢
  omega

/-- The point and the digit behind it are both read. -/
theorem point_fraction_local {rest : List Char} (hvalid : cursor.malformed = none)
    (hahead : cursor.ahead = '.' :: rest) (hdigit : (rest.head?).any isDigit = true) {result : Bool}
    (h : (do let _ ← Scan.next; fraction) cursor = .ok result after) :
    ∃ d more, cursor.ahead = '.' :: d :: more ++ after.ahead ∧ isDigit d = true ∧
      ∀ k cursor' rest', cursor.Shifted k cursor' → cursor'.ahead = '.' :: d :: more ++ rest' →
        Agrees after.ahead rest' →
        ∃ after', (do let _ ← Scan.next; fraction) cursor' = .ok result after' ∧
          after.Shifted k after' ∧ after'.ahead = rest' := by
  have hne : cursor.ahead ≠ [] := by rw [hahead]; exact nofun
  have hboth : LocalAt .same (do let _ ← Scan.next; fraction) cursor :=
    .bind (.next_of_ne_nil hne) fun _ _ _ => fraction_local
  obtain ⟨run, hrun, hlocal⟩ := hboth hvalid after result h
  obtain ⟨_, inner, hnext, hfraction⟩ := bind_eq_ok.mp h
  have hinner : inner.ahead = rest :=
    (List.cons.inj ((Scan.next_eq_ok hahead hnext).2.ahead.symm.trans hahead)).2
  have hshorter := fraction_shorter (hinner.symm ▸ hdigit) hfraction
  have hlength := congrArg List.length hrun
  rw [hinner] at hshorter
  rw [hahead, List.length_append, List.length_cons] at hlength
  rcases run with _ | ⟨first, _ | ⟨d, more⟩⟩
  · simp only [List.length_nil] at hlength
    omega
  · simp only [List.length_cons, List.length_nil] at hlength
    omega
  · obtain ⟨rfl, rfl⟩ := List.cons.inj (hahead.symm.trans hrun)
    refine ⟨d, more, hrun, hdigit, fun k cursor' rest' hshifted hahead' hagrees => ?_⟩
    exact hlocal k cursor' rest' hshifted hahead' hagrees trivial

theorem spaceless_point : Spaceless fun c => decide (c = '.') :=
  spaceless_of_any (by decide)

/-- Where a point stands, the next character but one decides. -/
private def behindDigits : Scan Bool := do
  if (← Scan.peek 0) = some '.' then
    if (← Scan.peek 1).any isDigit then
      let _ ← Scan.next
      fraction
    else
      return true
  else
    exponentAndSuffix

private theorem behindDigits_of_point {rest : List Char} (hvalid : cursor.malformed = none)
    (hahead : cursor.ahead = '.' :: rest) :
    behindDigits cursor =
      if (rest.head?).any isDigit then (do let _ ← Scan.next; fraction) cursor
      else .ok true cursor := by
  have hpoint : cursor.ahead[0]? = some '.' := by rw [hahead]; rfl
  have hbehind : cursor.ahead[1]? = rest.head? := by
    rw [hahead, List.getElem?_cons_succ, List.head?_eq_getElem?]
  rw [behindDigits, Scan.bind_of_ok (Scan.peek_of_valid hvalid 0), if_pos hpoint,
    Scan.bind_of_ok (Scan.peek_of_valid hvalid 1), hbehind]
  split <;> rfl

private theorem behindDigits_of_no_point (hvalid : cursor.malformed = none)
    (hstop : ∀ c ∈ cursor.ahead.head?, decide (c = '.') = false) :
    behindDigits cursor = exponentAndSuffix cursor := by
  have hnot : ¬ cursor.ahead[0]? = some '.' := by
    intro hpoint
    rw [← List.head?_eq_getElem?] at hpoint
    exact absurd (hstop '.' hpoint) (by decide)
  rw [behindDigits, Scan.bind_of_ok (Scan.peek_of_valid hvalid 0), if_neg hnot]

/-- Space decides as well when it takes the place of the point. -/
private theorem behindDigits_local : LocalAt .same behindDigits cursor := by
  intro hvalid after result h
  by_cases hpoint : cursor.ahead.head? = some '.'
  · obtain ⟨rest, hahead⟩ := List.head?_eq_some_iff.mp hpoint
    rw [behindDigits_of_point hvalid hahead] at h
    split at h
    · next hdigit =>
        obtain ⟨d, more, hrun, hd, hlocal⟩ := point_fraction_local hvalid hahead hdigit h
        refine ⟨_, hrun, fun k cursor' rest' hshifted hahead' hagrees _ => ?_⟩
        have hsame : behindDigits cursor' = (do let _ ← Scan.next; fraction) cursor' :=
          (behindDigits_of_point hshifted.valid' hahead').trans (if_pos hd)
        rw [hsame]
        exact hlocal k cursor' rest' hshifted hahead' hagrees
    · next hdigit =>
        cases h
        refine ⟨[], rfl, fun k cursor' rest' hshifted hahead' hagrees _ => ?_⟩
        rw [List.nil_append] at hahead'
        rw [hahead] at hagrees
        cases hagrees with
        | apart hspace =>
            rw [← hahead'] at hspace
            have hstop := fun c hc => spaceless_point c (hspace c hc)
            refine ⟨_, ?_, hshifted.settle_right.settle_right, hahead'⟩
            rw [behindDigits_of_no_point hshifted.valid' hstop]
            exact exponentAndSuffix_of_space hshifted.valid' hspace
        | @cons _ _ more hrest =>
            refine ⟨cursor', ?_, hshifted, hahead'⟩
            have hstop := any_head?_eq_false.mpr (hrest.stops spaceless_isDigit
              (any_head?_eq_false.mp (Bool.eq_false_iff.mpr hdigit)))
            rw [behindDigits_of_point hshifted.valid' hahead', hstop]
            rfl
  · have hstop : ∀ c ∈ cursor.ahead.head?, decide (c = '.') = false := by
      intro c hc
      refine decide_eq_false fun hdot => hpoint ?_
      rw [← hdot]
      exact hc
    rw [behindDigits_of_no_point hvalid hstop] at h
    obtain ⟨run, hrun, hlocal⟩ := exponentAndSuffix_local hvalid after result h
    refine ⟨run, hrun, fun k cursor' rest' hshifted hahead hagrees hfits => ?_⟩
    rw [hrun] at hstop
    have hstop' := (hagrees.append_left run).stops spaceless_point hstop
    rw [← hahead] at hstop'
    rw [behindDigits_of_no_point hshifted.valid' hstop']
    exact hlocal k cursor' rest' hshifted hahead hagrees hfits

theorem number_local : LocalAt .same number cursor := by
  have hlong : Spaceless fun c => c = 'l' || c = 'L' := spaceless_of_any (by decide)
  refine .bind wholePart_local fun _ _ _ => ?_
  exact .bind (.accept hlong) fun _ _ _ =>
    .ite (fun _ => endsCleanly_local) fun _ => behindDigits_local

end Literal

end ScalaLexer
