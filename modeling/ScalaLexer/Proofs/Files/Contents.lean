import ScalaLexer.Proofs.Files.Resolve
import ScalaLexer.Proofs.Files.Walk

/-!
# What does not depend on the contents of files

`FileTree.map` puts something else into every file and leaves all names where they are.
Nothing that is looked at on the way to a file is written in one, so the same names lead
to the same places (`Holds.map`, `Holds.of_map`), a path has the same route
(`FileSystem.Route.map`), and a walk makes the same visits (`Walk.map`).

Two file systems that differ in one file (`FileSystem.Rewritten`) are two images of one,
whose files hold what either of the two has there (`FileSystem.Rewritten.exists_pairing`).
So a path and a walk do the same in both.
-/

namespace ScalaLexer

/-- The visit of the same file with something else in it. -/
def Visit.map {α β : Type} (f : α → β) (visit : Visit α) : Visit β :=
  ⟨visit.location, f visit.contents⟩

namespace FileTree

variable {α β : Type} {tree root root' : FileTree α} {names place : List String}

mutual

/-- Puts something else into every file. -/
def map (f : α → β) : FileTree α → FileTree β
  | file contents => file (f contents)
  | directory entries => directory (mapEntries f entries)

/-- Puts something else into every file of these entries. -/
def mapEntries (f : α → β) : List (String × FileTree α) → List (String × FileTree β)
  | [] => []
  | (name, tree) :: rest => (name, map f tree) :: mapEntries f rest

end

theorem mapEntries_eq (f : α → β) (entries : List (String × FileTree α)) :
    mapEntries f entries = entries.map (Prod.map id (map f)) := by
  induction entries with
  | nil => rfl
  | cons entry entries ih => rw [mapEntries, ih, List.map_cons, Prod.map, id]

theorem map_directory (f : α → β) (entries : List (String × FileTree α)) :
    map f (directory entries) = directory (entries.map (Prod.map id (map f))) := by
  rw [map, mapEntries_eq]

theorem names_mapEntries (f : α → β) (entries : List (String × FileTree α)) :
    (entries.map (Prod.map id (map f))).map Prod.fst = entries.map Prod.fst := by
  rw [List.map_map]
  rfl

mutual

theorem map_leftInverse {f : α → β} {g : β → α} (hgf : ∀ contents, g (f contents) = contents) :
    ∀ tree : FileTree α, map g (map f tree) = tree
  | file contents => congrArg file (hgf contents)
  | directory entries => congrArg directory (mapEntries_leftInverse hgf entries)

theorem mapEntries_leftInverse {f : α → β} {g : β → α}
    (hgf : ∀ contents, g (f contents) = contents) :
    ∀ entries : List (String × FileTree α), mapEntries g (mapEntries f entries) = entries
  | [] => rfl
  | (name, tree) :: rest => by
      rw [mapEntries, mapEntries, map_leftInverse hgf tree, mapEntries_leftInverse hgf rest]

end

/-! ## Names and paths -/

theorem Holds.map {entry : FileTree α} (f : α → β) (hholds : tree.Holds names entry) :
    (tree.map f).Holds names (entry.map f) := by
  induction hholds with
  | here tree => exact .here _
  | inside hentry _ ih =>
      rw [map_directory]
      exact .inside (List.mem_map_of_mem hentry) ih

theorem Holds.of_map {f : α → β} {image : FileTree β} (hholds : (tree.map f).Holds names image) :
    ∃ entry, tree.Holds names entry ∧ entry.map f = image := by
  generalize hstart : tree.map f = start at hholds
  induction hholds generalizing tree with
  | here _ => exact ⟨tree, .here tree, hstart⟩
  | inside hentry _ ih =>
      cases tree with
      | file contents => cases hstart
      | directory entries =>
          rw [map_directory] at hstart
          cases hstart
          obtain ⟨⟨name, below⟩, hbelow, hsame⟩ := List.mem_map.mp hentry
          cases hsame
          obtain ⟨entry, hholds, himage⟩ := ih rfl
          exact ⟨entry, .inside hbelow hholds, himage⟩

theorem Holds.file_of_map {f : α → β} {image : β}
    (hholds : (tree.map f).Holds names (.file image)) :
    ∃ contents, tree.Holds names (.file contents) ∧ f contents = image := by
  obtain ⟨entry, hentry, hfile⟩ := hholds.of_map
  cases entry with
  | directory entries => cases hfile
  | file contents =>
      cases hfile
      exact ⟨contents, hentry, rfl⟩

theorem Holds.append {entry : FileTree α} {rest : List String} (hholds : root.Holds names tree)
    (hrest : tree.Holds rest entry) : root.Holds (names ++ rest) entry := by
  induction hholds with
  | here _ => exact hrest
  | inside hentry _ ih => exact .inside hentry (ih hrest)

theorem UniqueNames.map (f : α → β) (htree : tree.UniqueNames) : (tree.map f).UniqueNames := by
  induction htree with
  | file contents => exact .file _
  | directory hnodup _ ih =>
      rw [map_directory]
      refine .directory ?_ fun entry hentry => ?_
      · rwa [names_mapEntries]
      · obtain ⟨below, hbelow, rfl⟩ := List.mem_map.mp hentry
        exact ih below hbelow

theorem UniqueNames.of_map {f : α → β} (htree : (tree.map f).UniqueNames) :
    tree.UniqueNames := by
  generalize himage : tree.map f = image at htree
  induction htree generalizing tree with
  | file contents =>
      cases tree with
      | file contents => exact .file contents
      | directory entries => cases himage
  | directory hnodup _ ih =>
      cases tree with
      | file contents => cases himage
      | directory entries =>
          rw [map_directory] at himage
          cases himage
          rw [names_mapEntries] at hnodup
          exact .directory hnodup fun entry hentry => ih _ (List.mem_map_of_mem hentry) rfl

/-- A path leads the same way, whatever is in the files. -/
theorem Turn.map {part : String} {result : Except PathError (List String)} (f : α → β)
    (hturn : Turn root place part result) : Turn (root.map f) place part result := by
  have hplace {entries : List (String × FileTree α)} (h : root.Holds place (.directory entries)) :=
    map_directory f entries ▸ h.map f
  cases hturn with
  | file hfile => exact .file (hfile.map f)
  | stay h hpart => exact .stay (hplace h) hpart
  | back h hpart => exact .back (hplace h) hpart
  | on h hname hthere => exact .on (hplace h) hname (by rwa [names_mapEntries])
  | missing h hname hnone => exact .missing (hplace h) hname (by rwa [names_mapEntries])

theorem Route.map {parts : List String} {result : Except PathError (List String)} (f : α → β)
    (hroute : Route root place parts result) : Route (root.map f) place parts result := by
  induction hroute with
  | arrived place => exact .arrived place
  | turn hturn _ ih => exact .turn (hturn.map f) ih
  | astray hastray => exact .astray (hastray.map f)

/-! ## Walks -/

/-- A walk meets the same files in the same order, whatever is in them. -/
theorem Walk.map {extension name : String} {visits : List (Visit α)} (f : α → β)
    (hwalk : tree.Walk extension name visits) :
    (tree.map f).Walk extension name (visits.map (Visit.map f)) := by
  refine ⟨fun visit => ?_, List.pairwise_map.mpr hwalk.ordered⟩
  rw [List.mem_map]
  constructor
  · rintro ⟨source, hsource, rfl⟩
    obtain ⟨hholds, hrest⟩ := (hwalk.mem source).mp hsource
    exact ⟨hholds.map f, hrest⟩
  · obtain ⟨location, image⟩ := visit
    rintro ⟨hholds, hrest⟩
    obtain ⟨contents, hfile, rfl⟩ := hholds.file_of_map
    exact ⟨⟨location, contents⟩, (hwalk.mem _).mpr ⟨hfile, hrest⟩, rfl⟩

/-! ## Writing to one file -/

/-- The second tree is the first one with something else in the file that these names
lead to. -/
inductive Rewritten : List String → FileTree α → FileTree α → Prop
  | file (old new : α) : Rewritten [] (.file old) (.file new)
  | directory {name : String} {place : List String} {entry entry' : FileTree α}
      (before behind : List (String × FileTree α)) : Rewritten place entry entry' →
      Rewritten (name :: place) (.directory (before ++ (name, entry) :: behind))
        (.directory (before ++ (name, entry') :: behind))

/-- Every file holds its contents twice. -/
def twice (tree : FileTree α) : FileTree (α × α) :=
  tree.map fun contents => (contents, contents)

theorem map_fst_twice (tree : FileTree α) : tree.twice.map Prod.fst = tree :=
  map_leftInverse (fun _ => rfl) tree

theorem map_snd_twice (tree : FileTree α) : tree.twice.map Prod.snd = tree :=
  map_leftInverse (fun _ => rfl) tree

theorem Holds.eq_of_twice {old new : α} (hholds : tree.twice.Holds names (.file (old, new))) :
    old = new := by
  obtain ⟨contents, _, hpair⟩ := hholds.file_of_map
  cases hpair
  rfl

/-- Two trees that differ in one file are images of one tree, in which no other file has
two different contents. -/
theorem Rewritten.exists_pairing (h : Rewritten place root root') :
    ∃ pairing : FileTree (α × α), pairing.map Prod.fst = root ∧ pairing.map Prod.snd = root' ∧
      ∀ names old new, pairing.Holds names (.file (old, new)) → old = new ∨ names = place := by
  induction h with
  | file old new =>
      refine ⟨.file (old, new), rfl, rfl, fun names old' new' hholds => .inr ?_⟩
      cases hholds
      rfl
  | @directory name place entry entry' before behind _ ih =>
      obtain ⟨pairing, rfl, rfl, hpairing⟩ := ih
      -- what is not on the way to the file is the same in both trees
      refine ⟨.directory (before.map (Prod.map id twice) ++
        (name, pairing) :: behind.map (Prod.map id twice)), ?_, ?_, ?_⟩
      · simp [map_directory, Function.comp_def, Prod.map, map_fst_twice]
      · simp [map_directory, Function.comp_def, Prod.map, map_snd_twice]
      · intro names old new hholds
        cases hholds with
        | inside hentry hholds =>
            rcases List.mem_cons.mp (List.perm_middle.mem_iff.mp hentry) with hthis | hother
            · cases hthis
              exact (hpairing _ _ _ hholds).imp_right (congrArg (name :: ·))
            · rw [← List.map_append] at hother
              obtain ⟨other, _, hsame⟩ := List.mem_map.mp hother
              cases hsame
              exact .inl hholds.eq_of_twice

end FileTree

namespace FileSystem

variable {α β : Type}

/-- Puts something else into every file. -/
def map (f : α → β) (system : FileSystem α) : FileSystem β :=
  ⟨system.root.map f, system.workingDirectory⟩

theorem Route.map {system : FileSystem α} {path : String}
    {result : Except PathError (List String)} (f : α → β) (hroute : system.Route path result) :
    (system.map f).Route path result := by
  unfold Route at hroute ⊢
  split
  · next hempty => rwa [if_pos hempty] at hroute
  · next hpath =>
      rw [if_neg hpath] at hroute
      exact FileTree.Route.map f hroute

/-- The second file system is the first one with something else in the file that these
names lead to. -/
structure Rewritten (place : List String) (system system' : FileSystem α) : Prop where
  root : system.root.Rewritten place system'.root
  workingDirectory : system'.workingDirectory = system.workingDirectory

/-- Two file systems that differ in one file are images of one, in which no other file has
two different contents. -/
theorem Rewritten.exists_pairing {place : List String} {system system' : FileSystem α}
    (h : Rewritten place system system') :
    ∃ pairing : FileSystem (α × α), pairing.map Prod.fst = system ∧
      pairing.map Prod.snd = system' ∧
      ∀ names old new, pairing.root.Holds names (.file (old, new)) →
        old = new ∨ names = place := by
  obtain ⟨root, _⟩ := system
  obtain ⟨root', _⟩ := system'
  obtain ⟨hroot, rfl⟩ := h
  obtain ⟨pairing, rfl, rfl, hpairing⟩ := hroot.exists_pairing
  exact ⟨⟨pairing, _⟩, rfl, rfl, hpairing⟩

end FileSystem

end ScalaLexer
