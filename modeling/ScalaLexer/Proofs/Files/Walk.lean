import Mathlib.Data.List.TakeDrop
import Mathlib.Data.List.TakeWhile
import Mathlib.Tactic.Choose
import ScalaLexer.Files.Sources
import ScalaLexer.Proofs.Files.Tree
import ScalaLexer.Proofs.Text.ByteOrder

/-!
# What a walk through a tree meets

`FileTree.sources` sorts the finds of the entries of a directory.  It might as well sort
the entries first and then enter one after the other (`sources_directory`), and that is
a depth-first walk.

What such a walk meets can be said without it.  A file is met if it has the extension
(`FileName.HasExtension`) and nothing below the beginning of the walk hides it
(`FileName.Hidden`), and the files are met in the order of the names on the way to them,
compared name by name and byte by byte.  `Walk` says so.  It holds of a directory if it
holds of the entries that are not hidden (`Walk.directory`), so by induction it holds of
what is found in any tree (`exists_walk`).
-/

namespace ScalaLexer

/-! ## What a name tells -/

namespace FileName

/-- An entry of this name is passed over: a dot, a hash or a tilde stands at its front, or
a tilde at its end. -/
def Hidden (name : String) : Prop :=
  (∃ mark ∈ ['.', '#', '~'], name.toList.head? = some mark) ∨ name.toList.getLast? = some '~'

theorem isHidden_iff {name : String} : isHidden name = true ↔ Hidden name := by
  rw [isHidden, Hidden, Bool.or_eq_true, decide_eq_true_iff, Option.any_eq_true]
  simp [and_comm, or_assoc]

/-- The extension of the name: what stands behind its last dot, and something stands in
front of that dot. -/
structure HasExtension (name extension : String) : Prop where
  split : ∃ stem, stem ≠ [] ∧ name.toList = stem ++ '.' :: extension.toList
  last : '.' ∉ extension.toList
  proper : name ≠ ".."

theorem extension?_eq_some_iff {name extension : String} :
    extension? name = some extension ↔ HasExtension name extension := by
  rw [extension?, List.span_eq_takeWhile_dropWhile]
  constructor
  · intro h
    split at h
    · next back c stem hsplit =>
        obtain ⟨rfl, hrest⟩ := Prod.mk.inj hsplit
        split at h
        · cases h
        · next hproper =>
            cases h
            have hall : name.toList.reverse.takeWhile (· ≠ '.') ++ '.' :: c :: stem =
                name.toList.reverse := hrest ▸ List.takeWhile_append_dropWhile
            refine ⟨⟨(c :: stem).reverse, by simp, ?_⟩, fun hdot => ?_, hproper⟩
            · have hname := congrArg List.reverse hall
              rw [List.reverse_append, List.reverse_cons, List.reverse_reverse, List.append_assoc,
                List.singleton_append] at hname
              rw [String.toList_ofList, hname]
            · rw [String.toList_ofList, List.mem_reverse] at hdot
              simpa using List.mem_takeWhile_imp hdot
    · cases h
  · rintro ⟨⟨stem, hstem, hname⟩, hlast, hproper⟩
    have hback : name.toList.reverse = extension.toList.reverse ++ '.' :: stem.reverse := by
      simp [hname]
    have hmembers : ∀ c ∈ extension.toList.reverse, decide (c ≠ '.') = true := by
      rintro c hc
      exact decide_eq_true fun hdot => hlast (List.mem_reverse.mp (hdot ▸ hc))
    obtain ⟨c, more, hmore⟩ := List.exists_cons_of_ne_nil (List.reverse_ne_nil_iff.mpr hstem)
    rw [hback, List.takeWhile_append_of_pos hmembers, List.dropWhile_append_of_pos hmembers, hmore]
    simp [hproper]
/-- The bytes of the first name come before those of the second one. -/
def Precedes (name name' : String) : Prop :=
  Utf8.encode name.toList < Utf8.encode name'.toList

theorem precedes_of_le {name name' : String} (hle : name ≤ name') (hne : name ≠ name') :
    Precedes name name' := by
  have hless : name < name' := String.not_le.mp fun hge => hne (String.le_antisymm hle hge)
  exact Utf8.encode_lt_iff.mpr hless

end FileName

/-! ## Visits -/

/-- A file that is met on a walk. -/
structure Visit (α : Type) where
  /-- The names that lead to it from where the walk begins. -/
  location : List String
  contents : α

namespace Visit

variable {α : Type}

/-- The visit on a walk that begins in a directory with an entry of this name, where the
other walk begins. -/
def below (name : String) (visit : Visit α) : Visit α :=
  { visit with location := name :: visit.location }

/-- What is found on a walk that begins at the end of these names. -/
def foundAt (place : List String) (visit : Visit α) : Found α :=
  ⟨place ++ visit.location, visit.contents⟩

theorem foundAt_below (place : List String) (child : String) (visit : Visit α) :
    (visit.below child).foundAt place = visit.foundAt (place ++ [child]) := by
  rw [foundAt, foundAt, below, List.append_assoc, List.singleton_append]

end Visit

namespace FileTree

variable {α : Type} {extension name : String} {tree : FileTree α}
  {entries : List (String × FileTree α)}

/-- A walk from the tree, which has this name itself, makes these visits: to all files
with the extension that are not hidden below the tree, in the order of the names that
lead to them. -/
structure Walk (extension name : String) (tree : FileTree α) (visits : List (Visit α)) :
    Prop where
  mem : ∀ visit, visit ∈ visits ↔
    tree.Holds visit.location (.file visit.contents) ∧
      (∀ part ∈ visit.location, ¬ FileName.Hidden part) ∧
      FileName.HasExtension (visit.location.getLastD name) extension
  ordered : visits.Pairwise fun first second =>
    List.Lex FileName.Precedes first.location second.location

/-! ## Entering one entry after the other -/

/-- The entries of a directory that are not hidden, in the order of their names. -/
def visibleEntries (entries : List (String × FileTree α)) : List (String × FileTree α) :=
  (entries.filter fun entry => !FileName.isHidden entry.1).mergeSort fun first second =>
    decide (first.1 ≤ second.1)

theorem mem_visibleEntries {entry : String × FileTree α} :
    entry ∈ visibleEntries entries ↔ entry ∈ entries ∧ ¬ FileName.Hidden entry.1 := by
  rw [visibleEntries, (List.mergeSort_perm _ _).mem_iff, List.mem_filter, ← FileName.isHidden_iff,
    Bool.not_eq_true, Bool.not_eq_true']

theorem pairwise_visibleEntries (hnodup : (entries.map Prod.fst).Nodup) :
    (visibleEntries entries).Pairwise fun first second =>
      FileName.Precedes first.1 second.1 := by
  have hsorted : (visibleEntries entries).Pairwise fun first second => first.1 ≤ second.1 := by
    refine (List.pairwise_mergeSort ?_ ?_ _).imp of_decide_eq_true
    · intro first second third hfirst hsecond
      exact decide_eq_true
        (String.le_trans (of_decide_eq_true hfirst) (of_decide_eq_true hsecond))
    · intro first second
      rw [Bool.or_eq_true, decide_eq_true_iff, decide_eq_true_iff]
      exact String.le_total first.1 second.1
  have hdistinct : (visibleEntries entries).Pairwise fun first second => first.1 ≠ second.1 := by
    have hvisible := (List.pairwise_map.mp hnodup).filter fun entry => !FileName.isHidden entry.1
    exact hvisible.perm (List.mergeSort_perm _ _).symm Ne.symm
  exact (hsorted.and hdistinct).imp fun h => FileName.precedes_of_le h.1 h.2

theorem entrySources_eq (extension : String) (place : List String)
    (entries : List (String × FileTree α)) :
    entrySources extension place entries =
      (entries.filter fun entry => !FileName.isHidden entry.1).map fun entry =>
        (entry.1, sources extension (place ++ [entry.1]) entry.2) := by
  induction entries with
  | nil => rfl
  | cons entry entries ih =>
      rw [entrySources, List.filter_cons, ih]
      cases FileName.isHidden entry.1 <;> rfl

/-- The sources in a directory are found by a walk. -/
theorem sources_directory (extension : String) (place : List String)
    (entries : List (String × FileTree α)) :
    sources extension place (.directory entries) =
      (visibleEntries entries).flatMap fun entry =>
        sources extension (place ++ [entry.1]) entry.2 := by
  rw [sources, Finds.inOrder, entrySources_eq, ← List.map_mergeSort, List.flatMap_map]
  · rfl
  · exact fun _ _ _ _ => rfl

/-! ## What is met -/

theorem Walk.file (extension name : String) (contents : α) :
    Walk extension name (.file contents)
      (if FileName.extension? name = some extension then [⟨[], contents⟩] else []) := by
  refine ⟨fun visit => ?_, ?_⟩
  · constructor
    · intro hmem
      split at hmem
      · next hextension =>
          obtain rfl := List.mem_singleton.mp hmem
          exact ⟨.here _, nofun, FileName.extension?_eq_some_iff.mp hextension⟩
      · cases hmem
    · rintro ⟨hholds, _, hextension⟩
      obtain ⟨location, found⟩ := visit
      cases hholds
      have hname : FileName.HasExtension name extension := hextension
      rw [if_pos (FileName.extension?_eq_some_iff.mpr hname)]
      exact List.mem_singleton_self _
  · split
    · exact List.pairwise_singleton ..
    · exact .nil

/-- A walk through a directory walks through one entry that is not hidden after the
other. -/
theorem Walk.directory {visits : String × FileTree α → List (Visit α)}
    (hnodup : (entries.map Prod.fst).Nodup)
    (hentries : ∀ entry ∈ entries, entry.2.Walk extension entry.1 (visits entry)) :
    Walk extension name (.directory entries)
      ((visibleEntries entries).flatMap fun entry => (visits entry).map (Visit.below entry.1)) := by
  refine ⟨fun visit => ?_, List.pairwise_flatMap.mpr ⟨fun entry hentry => ?_, ?_⟩⟩
  · simp only [List.mem_flatMap, List.mem_map, mem_visibleEntries]
    constructor
    · rintro ⟨⟨child, entry⟩, ⟨hentry, hvisible⟩, inner, hinner, rfl⟩
      obtain ⟨hholds, hparts, hextension⟩ := ((hentries _ hentry).mem inner).mp hinner
      refine ⟨.inside hentry hholds, List.forall_mem_cons.mpr ⟨hvisible, hparts⟩, ?_⟩
      rw [Visit.below, List.getLastD_cons]
      exact hextension
    · rintro ⟨hholds, hparts, hextension⟩
      obtain ⟨location, contents⟩ := visit
      cases hholds with
      | @inside _ child entry _ names hentry hholds =>
          obtain ⟨hvisible, hparts⟩ := List.forall_mem_cons.mp hparts
          rw [List.getLastD_cons] at hextension
          exact ⟨(child, entry), ⟨hentry, hvisible⟩, ⟨names, contents⟩,
            ((hentries _ hentry).mem _).mpr ⟨hholds, hparts, hextension⟩, rfl⟩
  · have hordered := (hentries entry (mem_visibleEntries.mp hentry).1).ordered
    exact List.pairwise_map.mpr (hordered.imp .cons)
  · refine (pairwise_visibleEntries hnodup).imp fun hless => ?_
    simp only [List.mem_map]
    rintro _ ⟨first, _, rfl⟩ _ ⟨second, _, rfl⟩
    exact .rel hless

/-- There is no other walk with the same visits to make. -/
theorem Walk.unique {visits visits' : List (Visit α)} (hwalk : tree.Walk extension name visits)
    (hwalk' : tree.Walk extension name visits') : visits = visits' := by
  have hasymm {first second : Visit α}
      (h : List.Lex FileName.Precedes first.location second.location) :
      ¬ List.Lex FileName.Precedes second.location first.location :=
    List.lex_asymm (fun hless => List.lt_asymm hless) h
  have hnodup {visits : List (Visit α)} (hwalk : tree.Walk extension name visits) :
      visits.Nodup := by
    refine List.Pairwise.imp (fun h => ?_) hwalk.ordered
    rintro rfl
    exact hasymm h h
  have hperm : visits.Perm visits' :=
    (List.perm_ext_iff_of_nodup (hnodup hwalk) (hnodup hwalk')).mpr fun visit =>
      (hwalk.mem visit).trans (hwalk'.mem visit).symm
  exact hperm.eq_of_pairwise (fun _ _ _ _ h h' => absurd h' (hasymm h)) hwalk.ordered
    hwalk'.ordered

/-- The sources that are found in a tree are the visits of a walk. -/
theorem exists_walk (extension : String) (place : List String) (htree : tree.UniqueNames) :
    ∃ visits, tree.Walk extension (place.getLastD "") visits ∧
      tree.sources extension place = visits.map (Visit.foundAt place) := by
  induction htree generalizing place with
  | file contents =>
      refine ⟨_, .file extension _ contents, ?_⟩
      rw [sources]
      split
      · simp [Visit.foundAt]
      · rfl
  | @directory entries hnodup _ ih =>
      have hentries (entry : String × FileTree α) (hentry : entry ∈ entries) :=
        ih entry hentry (place ++ [entry.1])
      choose! visits hwalk hsources using hentries
      simp only [List.getLastD_concat] at hwalk
      refine ⟨_, .directory hnodup hwalk, ?_⟩
      rw [sources_directory, List.map_flatMap]
      refine List.flatMap_congr fun entry hentry => ?_
      rw [hsources entry (mem_visibleEntries.mp hentry).1, List.map_map]
      exact List.map_congr_left fun visit _ => (visit.foundAt_below place entry.1).symm

end FileTree

end ScalaLexer
