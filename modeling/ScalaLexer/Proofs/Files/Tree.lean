import Mathlib.Data.List.Nodup
import ScalaLexer.Files.Tree

/-!
# Names in a tree

Names lead from a directory to what is in it, step by step (`FileTree.Holds`).  They
lead to one thing only where no two entries of a directory share a name.  This is so in
every tree (`FileTree.UniqueNames`), and adding a file keeps it so
(`ofFiles_uniqueNames`).
-/

namespace ScalaLexer.FileTree

variable {α : Type} {root tree entry : FileTree α} {name : String} {names : List String}
  {entries : List (String × FileTree α)}

theorem mem_of_lookup (h : entries.lookup name = some entry) : (name, entry) ∈ entries := by
  obtain ⟨front, back, rfl, _⟩ := List.lookup_eq_some_iff.mp h
  exact List.mem_append_right front List.mem_cons_self

/-! ## Where names lead -/

/-- These names lead from the first tree to the second one. -/
inductive Holds : FileTree α → List String → FileTree α → Prop
  | here (tree : FileTree α) : Holds tree [] tree
  | inside {entries : List (String × FileTree α)} {name : String} {entry tree : FileTree α}
      {names : List String} : (name, entry) ∈ entries → Holds entry names tree →
      Holds (.directory entries) (name :: names) tree

theorem Holds.snoc (hholds : root.Holds names (.directory entries))
    (hentry : (name, entry) ∈ entries) : root.Holds (names ++ [name]) entry := by
  generalize htree : FileTree.directory entries = tree at hholds
  induction hholds with
  | here _ =>
      subst htree
      exact .inside hentry (.here entry)
  | inside hfirst _ ih => exact .inside hfirst (ih htree)

/-! ## Names that are unique -/

/-- No two entries of a directory have the same name. -/
inductive UniqueNames : FileTree α → Prop
  | file (contents : α) : UniqueNames (.file contents)
  | directory {entries : List (String × FileTree α)} : (entries.map Prod.fst).Nodup →
      (∀ entry ∈ entries, UniqueNames entry.2) → UniqueNames (.directory entries)

theorem Holds.uniqueNames (hholds : root.Holds names tree) (hroot : root.UniqueNames) :
    tree.UniqueNames := by
  induction hholds with
  | here _ => exact hroot
  | inside hentry _ ih =>
      cases hroot with
      | directory _ hentries => exact ih (hentries _ hentry)

theorem Holds.unique {other : FileTree α} (hroot : root.UniqueNames)
    (hholds : root.Holds names tree) (hother : root.Holds names other) : tree = other := by
  induction hholds with
  | here _ =>
      cases hother
      rfl
  | inside hentry _ ih =>
      cases hother with
      | inside hentry' hother =>
          cases hroot with
          | directory hnodup hentries =>
              cases List.inj_on_of_nodup_map hnodup hentry hentry' rfl
              exact ih (hentries _ hentry) hother

theorem UniqueNames.of_entries (htree : tree.UniqueNames) :
    (tree.entries.map Prod.fst).Nodup ∧ ∀ entry ∈ tree.entries, entry.2.UniqueNames := by
  cases htree with
  | file contents => exact ⟨List.nodup_nil, nofun⟩
  | directory hnodup hentries => exact ⟨hnodup, hentries⟩

theorem mem_of_mem_setEntry {other : String × FileTree α}
    (h : other ∈ setEntry name entry entries) : other = (name, entry) ∨ other ∈ entries := by
  induction entries with
  | nil => exact .inl (List.mem_singleton.mp h)
  | cons first entries ih =>
      rw [setEntry] at h
      split at h <;> rcases List.mem_cons.mp h with rfl | hlater
      · exact .inl rfl
      · exact .inr (List.mem_cons_of_mem _ hlater)
      · exact .inr List.mem_cons_self
      · exact (ih hlater).imp_right (List.mem_cons_of_mem _)

theorem nodup_setEntry (name : String) (entry : FileTree α)
    (hnodup : (entries.map Prod.fst).Nodup) :
    ((setEntry name entry entries).map Prod.fst).Nodup := by
  induction entries with
  | nil => exact List.nodup_singleton name
  | cons first entries ih =>
      obtain ⟨hfirst, hentries⟩ := List.nodup_cons.mp hnodup
      rw [setEntry]
      split
      · next hname =>
          subst hname
          exact hnodup
      · next hname =>
          refine List.nodup_cons.mpr ⟨fun hmem => ?_, ih hentries⟩
          obtain ⟨other, hother, hsame⟩ := List.mem_map.mp hmem
          rcases mem_of_mem_setEntry hother with rfl | hlater
          · exact hname hsame.symm
          · exact hfirst (hsame ▸ List.mem_map_of_mem hlater)

theorem insert_uniqueNames (leaf : Option α) (path : List String) (htree : tree.UniqueNames) :
    (insert leaf path tree).UniqueNames := by
  induction path generalizing tree with
  | nil =>
      obtain ⟨hnodup, hentries⟩ := htree.of_entries
      cases leaf with
      | some contents => exact .file contents
      | none => exact .directory hnodup hentries
  | cons name path ih =>
      obtain ⟨hnodup, hentries⟩ := htree.of_entries
      have hold : ((tree.entry? name).getD empty).UniqueNames := by
        cases hentry : tree.entry? name with
        | none => exact .directory List.nodup_nil nofun
        | some entry => exact hentries _ (mem_of_lookup hentry)
      refine .directory (nodup_setEntry name _ hnodup) fun other hother => ?_
      rcases mem_of_mem_setEntry hother with rfl | hthere
      · exact ih hold
      · exact hentries other hthere

/-- Every tree that is made of files has unique names. -/
theorem ofFiles_uniqueNames (files : List (String × α)) : (ofFiles files).UniqueNames := by
  have hempty : (empty : FileTree α).UniqueNames := .directory List.nodup_nil nofun
  unfold ofFiles
  generalize (empty : FileTree α) = tree at hempty ⊢
  induction files generalizing tree with
  | nil => exact hempty
  | cons file files ih => exact ih _ (insert_uniqueNames _ _ hempty)

end ScalaLexer.FileTree
