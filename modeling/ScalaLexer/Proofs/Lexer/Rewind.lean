import ScalaLexer.Proofs.Lexer.Invariant
import ScalaLexer.Unicode.Release

/-!
# Going back to a snapshot

A snapshot holds all of a lexer but its open regions, of which it only knows the
number.  So a lexer that is put back is the lexer of which the snapshot was taken, but
for the brackets that are open by now (`restore_eq`).  A number does not tell brackets
apart: `restore_forgets_brackets` closes one region and opens another, and a closing
bracket that would have fitted no longer does.

What is open is the same again if nothing that was open has been closed.  The regions
open when the snapshot was taken are at the bottom of the stack then, and one thing done
with a lexer opens or closes one region at most (`RegionMove`).  So they stay there for
as long as the stack is never smaller than they are (`Usage.suffix_foldl_perform`), and
where it is no larger either there is nothing else on it.
-/

namespace ScalaLexer

namespace Lexer

variable {lexer after restored : Lexer}

/-! ## What is put back -/

theorem restore?_eq_some {state : Snapshot} (h : lexer.restore? state = some restored) :
    state.regionDepth = lexer.regionDepth ∧ restored = lexer.restore state := by
  unfold restore? at h
  split at h
  · next hdepth =>
      cases h
      exact ⟨hdepth, rfl⟩
  · cases h

end Lexer

/-! ## What is never changed -/

/-- Both lexers read the same file by the same rule. -/
structure Lexer.SameFile (lexer after : Lexer) : Prop where
  source : after.source = lexer.source
  file : after.file = lexer.file
  policy : after.policy = lexer.policy

namespace Lexer.SameFile

variable {lexer between after : Lexer}

theorem refl (lexer : Lexer) : lexer.SameFile lexer :=
  ⟨rfl, rfl, rfl⟩

theorem trans (hfirst : lexer.SameFile between) (hsecond : between.SameFile after) :
    lexer.SameFile after :=
  ⟨hsecond.source.trans hfirst.source, hsecond.file.trans hfirst.file,
    hsecond.policy.trans hfirst.policy⟩

theorem step [Unicode.Repertoire] (lexer : Lexer) : lexer.SameFile lexer.step.lexer :=
  ⟨(step_frames lexer).source, (step_frames lexer).file, (step_frames lexer).policy⟩

end Lexer.SameFile

namespace Lexer

variable {lexer : Lexer}

theorem next?_lexer [Unicode.Repertoire] (lexer : Lexer) :
    lexer.next?.lexer = if lexer.mode = .done then lexer else lexer.step.lexer := by
  unfold next?
  by_cases hmode : lexer.mode = .done
  · simp only [if_pos hmode]
  · simp only [if_neg hmode]
    rcases lexer.step with ⟨diagnostic | token, after, consultations⟩ <;> rfl

theorem tokensWithin_sameFile [Unicode.Repertoire] (fuel : Nat) (lexer : Lexer) :
    lexer.SameFile (tokensWithin fuel lexer).lexer := by
  induction fuel generalizing lexer with
  | zero => exact .refl lexer
  | succ fuel ih =>
      have hfirst := SameFile.step lexer
      rw [tokensWithin]
      rcases hstep : lexer.step with ⟨diagnostic | token, after, consultations⟩
      · rw [hstep] at hfirst
        exact hfirst
      · rw [hstep] at hfirst
        by_cases hkind : token.kind = .eof
        · simp only [if_pos hkind]
          exact hfirst
        · simp only [if_neg hkind]
          exact hfirst.trans (ih after)

end Lexer

namespace Usage

variable {usage : Usage}

theorem perform_sameFile [Unicode.Repertoire] (usage : Usage) (operation : Operation) :
    usage.lexer.SameFile (usage.perform operation).lexer := by
  cases operation with
  | call => exact .step usage.lexer
  | lookAhead n =>
      change usage.lexer.SameFile (Lexer.lookAhead n usage.lexer).lexer
      rw [Lexer.lookAhead_untouched]
      exact .refl usage.lexer
  | next =>
      change usage.lexer.SameFile usage.lexer.next?.lexer
      rw [Lexer.next?_lexer]
      split
      · exact .refl usage.lexer
      · exact .step usage.lexer
  | takeAll => exact Lexer.tokensWithin_sameFile _ usage.lexer
  | save => exact .refl usage.lexer
  | restore index =>
      change usage.lexer.SameFile (usage.rewind index).lexer
      unfold rewind
      split
      · exact .refl usage.lexer
      · split
        · exact .refl usage.lexer
        · next hrestored =>
            obtain ⟨_, rfl⟩ := Lexer.restore?_eq_some hrestored
            exact ⟨rfl, rfl, rfl⟩

theorem foldl_perform_sameFile [Unicode.Repertoire] (usage : Usage) (operations : List Operation) :
    usage.lexer.SameFile (operations.foldl Usage.perform usage).lexer := by
  induction operations generalizing usage with
  | nil => exact .refl usage.lexer
  | cons operation operations ih => exact (usage.perform_sameFile operation).trans (ih _)

end Usage

/-! ## What happens to the regions -/

/-- One region at most is opened or closed. -/
inductive RegionMove (regions : List Bracket) : List Bracket → Prop
  | stay : RegionMove regions regions
  | opens (bracket : Bracket) : RegionMove regions (bracket :: regions)
  | closes {bracket : Bracket} {outer : List Bracket} : regions = bracket :: outer →
      RegionMove regions outer

namespace RegionMove

variable {regions behind bottom : List Bracket}

theorem of_effect {effect : RegionEffect} (hadmissible : effect.Admissible regions) :
    RegionMove regions (effect.apply regions) := by
  cases effect with
  | none => exact .stay
  | pushed bracket => exact .opens bracket
  | popped bracket =>
      obtain ⟨outer, rfl⟩ := List.head?_eq_some_iff.mp hadmissible
      exact .closes rfl

/-- What is at the bottom stays there if the stack does not become smaller than it is. -/
theorem suffix (hmove : RegionMove regions behind) (hbottom : bottom <:+ regions)
    (hlength : bottom.length ≤ behind.length) : bottom <:+ behind := by
  cases hmove with
  | stay => exact hbottom
  | opens bracket => exact hbottom.trans (List.suffix_cons bracket regions)
  | closes hregions =>
      rw [hregions] at hbottom
      rcases List.suffix_cons_iff.mp hbottom with rfl | hbelow
      · rw [List.length_cons] at hlength
        omega
      · exact hbelow

end RegionMove

section

variable [Unicode.Repertoire]

theorem Lexer.step_regionMove (lexer : Lexer) :
    RegionMove lexer.regions lexer.step.lexer.regions := by
  have hframes := step_frames lexer
  rcases hstep : lexer.step with ⟨diagnostic | token, after, consultations⟩
  · rw [hstep] at hframes
    rw [hframes.error diagnostic rfl]
    exact .stay
  · rw [hstep] at hframes
    obtain ⟨hadmissible, hregions⟩ := hframes.token token rfl
    rw [hregions]
    exact .of_effect hadmissible

namespace Usage

variable {usage : Usage} {bottom : List Bracket}

/-- All that can be done at once opens or closes one region at most, but for taking all
tokens out, which is many calls. -/
theorem perform_regionMove (usage : Usage) {operation : Operation}
    (hone : operation ≠ .takeAll) :
    RegionMove usage.lexer.regions (usage.perform operation).lexer.regions := by
  cases operation with
  | call => exact usage.lexer.step_regionMove
  | lookAhead n =>
      change RegionMove usage.lexer.regions (Lexer.lookAhead n usage.lexer).lexer.regions
      rw [Lexer.lookAhead_untouched]
      exact .stay
  | next =>
      change RegionMove usage.lexer.regions usage.lexer.next?.lexer.regions
      rw [Lexer.next?_lexer]
      split
      · exact .stay
      · exact usage.lexer.step_regionMove
  | takeAll => exact absurd rfl hone
  | save => exact .stay
  | restore index =>
      change RegionMove usage.lexer.regions (usage.rewind index).lexer.regions
      unfold rewind
      split
      · exact .stay
      · split
        · exact .stay
        · next hrestored =>
            obtain ⟨_, rfl⟩ := Lexer.restore?_eq_some hrestored
            exact .stay

/-- Regions at the bottom of the stack stay there while it is never smaller than they
are. -/
theorem suffix_foldl_perform {operations : List Operation} (hone : .takeAll ∉ operations)
    (hbottom : bottom <:+ usage.lexer.regions)
    (hdepth : ∀ front, front <+: operations →
      bottom.length ≤ (front.foldl Usage.perform usage).lexer.regionDepth) :
    bottom <:+ (operations.foldl Usage.perform usage).lexer.regions := by
  induction operations generalizing usage with
  | nil => exact hbottom
  | cons operation operations ih =>
      have hmove := usage.perform_regionMove fun htakeAll => hone (htakeAll ▸ List.mem_cons_self)
      have hrest : .takeAll ∉ operations := fun hmem => hone (List.mem_cons_of_mem _ hmem)
      refine ih hrest (hmove.suffix hbottom (hdepth [operation] ⟨operations, rfl⟩)) ?_
      intro front hfront
      exact hdepth (operation :: front) (List.cons_prefix_cons.mpr ⟨rfl, hfront⟩)

end Usage

end

/-! ## Going back -/

namespace Lexer

/-- However a lexer has been used when a snapshot is taken and since then, if it is put
back it answers as the lexer did of which the snapshot was taken, with the regions open
that are open by now.  So it answers as that lexer itself did where the same regions
are open, and they are if one after the other was opened and closed and never fewer
were open than there were. -/
theorem restore_rewinds [Unicode.Repertoire] (source : List UInt8) (file : String)
    (policy : Separator.Policy) (operations later : List Operation) :
    let before := (ofBytes source file policy).usage operations
    let after := later.foldl Usage.perform before
    ∀ restored, after.lexer.restore? before.lexer.snapshot = some restored →
      (∀ requests, restored.replies requests =
        { before.lexer with regions := after.lexer.regions }.replies requests) ∧
      (after.lexer.regions = before.lexer.regions →
        ∀ requests, restored.replies requests = before.lexer.replies requests) ∧
      (.takeAll ∉ later →
        (∀ front, front <+: later →
          before.lexer.regionDepth ≤ (front.foldl Usage.perform before).lexer.regionDepth) →
        after.lexer.regions = before.lexer.regions) := by
  intro before after restored hrestored
  obtain ⟨hdepth, rfl⟩ := restore?_eq_some hrestored
  obtain ⟨hsource, hfile, hpolicy⟩ := before.foldl_perform_sameFile later
  have hback := restore_snapshot hsource hfile hpolicy
  refine ⟨fun requests => by rw [hback], fun hregions requests => ?_, fun hone hnever => ?_⟩
  · rw [restore_snapshot_eq hsource hfile hpolicy hregions]
  · have hsuffix : before.lexer.regions <:+ after.lexer.regions :=
      Usage.suffix_foldl_perform hone (List.suffix_refl _) hnever
    exact (hsuffix.eq_of_length hdepth).symm

/-- A region is opened and closed behind the snapshot, one inside the other. -/
theorem restore_rewinds_behind_region :
    let before := (ofString "([x] y)").usage [.call]
    let after := [.call, .lookAhead 1, .next, .call].foldl Usage.perform before
    ∃ restored, after.lexer.restore? before.lexer.snapshot = some restored ∧
      restored.replies [.call, .lookAhead 3, .call] =
        before.lexer.replies [.call, .lookAhead 3, .call] := by
  intro before after
  have hdepth : before.lexer.regionDepth = after.lexer.regionDepth := by decide +kernel
  have hrestored : after.lexer.restore? before.lexer.snapshot =
      some (after.lexer.restore before.lexer.snapshot) := if_pos hdepth
  obtain ⟨_, hreplies, hregions⟩ := restore_rewinds (Utf8.encode "([x] y)".toList) defaultFile
    Separator.standard [.call] [.call, .lookAhead 1, .next, .call] _ hrestored
  have hnever : ∀ n ≤ 4,
      before.lexer.regionDepth ≤
        (([.call, .lookAhead 1, .next, .call].take n).foldl Usage.perform
          before).lexer.regionDepth := by
    decide +kernel
  refine ⟨_, hrestored, hreplies (hregions (by simp) fun front hfront => ?_) _⟩
  rw [List.prefix_iff_eq_take.mp hfront]
  exact hnever _ hfront.length_le

/-- The number of open regions does not tell that a parenthesis was closed and a square
bracket opened: the closing parenthesis is taken for an error now. -/
theorem restore_forgets_brackets :
    let before := (ofString "()[").usage [.call]
    let after := [.call, .call].foldl Usage.perform before
    ∃ restored, after.lexer.restore? before.lexer.snapshot = some restored ∧
      restored.replies [.call] ≠ before.lexer.replies [.call] := by
  intro before after
  have hdepth : before.lexer.regionDepth = after.lexer.regionDepth := by decide +kernel
  exact ⟨_, if_pos hdepth, by decide +kernel⟩

end Lexer

end ScalaLexer
