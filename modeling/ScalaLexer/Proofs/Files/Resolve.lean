import ScalaLexer.Files.Resolve
import ScalaLexer.Proofs.Files.Tree

/-!
# Where a path leads

A path is gone along part by part, and what a part does depends only on which names lead
to what (`Turn`): an empty part and a dot stay where one is, two dots lead back, and a name
leads on.  Each of them needs a directory to begin with, and a name needs something of that
name in it.  `Route` goes on in this way until the path ends or leads nowhere, for one
reason, so every path has one route (`Route.unique`).

What a path is resolved to is where its route leads (`FileSystem.route_resolve`).  The
program remembers the directories that it came through, in order to go back; `Trail` says
that they are the ones on the way from the root, and so all the names that it returns lead
straight from there to what it found (`FileSystem.holds_of_resolve`).
-/

namespace ScalaLexer

namespace FileTree

variable {α : Type} {root here tree : FileTree α} {place next names : List String}
  {part : String} {parts : List String} {trail : List (String × FileTree α)}

/-! ## Routes -/

/-- The part of a path is a name, not one of the parts with a meaning of their own. -/
def IsName (part : String) : Prop :=
  ¬ (part = "" ∨ part = ".") ∧ part ≠ ".."

/-- Where one part of a path leads from the end of these names, or why it leads nowhere. -/
inductive Turn (root : FileTree α) (place : List String) (part : String) :
    Except PathError (List String) → Prop
  | file {contents : α} : root.Holds place (.file contents) →
      Turn root place part (.error .notADirectory)
  | stay {entries : List (String × FileTree α)} : root.Holds place (.directory entries) →
      part = "" ∨ part = "." → Turn root place part (.ok place)
  | back {entries : List (String × FileTree α)} : root.Holds place (.directory entries) →
      part = ".." → Turn root place part (.ok place.dropLast)
  | on {entries : List (String × FileTree α)} : root.Holds place (.directory entries) →
      IsName part → part ∈ entries.map Prod.fst → Turn root place part (.ok (place ++ [part]))
  | missing {entries : List (String × FileTree α)} : root.Holds place (.directory entries) →
      IsName part → part ∉ entries.map Prod.fst → Turn root place part (.error .notFound)

/-- Where the parts of a path lead from the end of these names, or why they lead nowhere. -/
inductive Route (root : FileTree α) :
    List String → List String → Except PathError (List String) → Prop
  | arrived (place : List String) : Route root place [] (.ok place)
  | turn {place next parts : List String} {part : String}
      {result : Except PathError (List String)} : Turn root place part (.ok next) →
      Route root next parts result → Route root place (part :: parts) result
  | astray {place parts : List String} {part : String} {error : PathError} :
      Turn root place part (.error error) → Route root place (part :: parts) (.error error)

variable {result result' : Except PathError (List String)}

theorem Turn.unique (hroot : root.UniqueNames) (h : Turn root place part result)
    (h' : Turn root place part result') : result = result' := by
  cases h with
  | file hfile =>
      cases h' with
      | file => rfl
      | stay hplace | back hplace | on hplace | missing hplace => cases hfile.unique hroot hplace
  | stay hplace hpart =>
      cases h' with
      | file hfile => cases hfile.unique hroot hplace
      | stay => rfl
      | back _ hback => rcases hpart with rfl | rfl <;> simp at hback
      | on _ hname | missing _ hname => exact absurd hpart hname.1
  | back hplace hpart =>
      cases h' with
      | file hfile => cases hfile.unique hroot hplace
      | stay _ hstay => rcases hstay with rfl | rfl <;> simp at hpart
      | back => rfl
      | on _ hname | missing _ hname => exact absurd hpart hname.2
  | on hplace hname hthere =>
      cases h' with
      | file hfile => cases hfile.unique hroot hplace
      | stay _ hstay => exact absurd hstay hname.1
      | back _ hback => exact absurd hback hname.2
      | on => rfl
      | missing hplace' _ hnone =>
          cases hplace.unique hroot hplace'
          exact absurd hthere hnone
  | missing hplace hname hnone =>
      cases h' with
      | file hfile => cases hfile.unique hroot hplace
      | stay _ hstay => exact absurd hstay hname.1
      | back _ hback => exact absurd hback hname.2
      | on hplace' _ hthere =>
          cases hplace.unique hroot hplace'
          exact absurd hthere hnone
      | missing => rfl

/-- A path leads to one place, or it leads nowhere, for one reason. -/
theorem Route.unique (hroot : root.UniqueNames) (h : Route root place parts result)
    (h' : Route root place parts result') : result = result' := by
  induction h with
  | arrived place =>
      cases h'
      rfl
  | turn hturn _ ih =>
      cases h' with
      | turn hturn' hrest =>
          cases hturn.unique hroot hturn'
          exact ih hrest
      | astray hastray => cases hturn.unique hroot hastray
  | astray hastray =>
      cases h' with
      | turn hturn => cases hastray.unique hroot hturn
      | astray hastray' =>
          cases hastray.unique hroot hastray'
          rfl

/-! ## Following a path -/

/-- A trail from the root to a tree: the names on the way with the directories that they
were found in, the last one first. -/
inductive Trail (root : FileTree α) : List (String × FileTree α) → FileTree α → Prop
  | nil : Trail root [] root
  | cons {trail entries : List (String × FileTree α)} {name : String} {entry : FileTree α} :
      Trail root trail (.directory entries) → (name, entry) ∈ entries →
      Trail root ((name, .directory entries) :: trail) entry

theorem Trail.holds (htrail : Trail root trail tree) :
    root.Holds (trail.map Prod.fst).reverse tree := by
  induction htrail with
  | nil => exact .here root
  | cons _ hentry ih =>
      rw [List.map_cons, List.reverse_cons]
      exact ih.snoc hentry

/-- Following a path along a trail leads along a trail. -/
theorem follow_trail (htrail : Trail root trail here)
    (h : follow trail here parts = .ok (names, tree)) :
    ∃ trail', Trail root trail' tree ∧ names = (trail'.map Prod.fst).reverse := by
  fun_induction follow trail here parts with
  | case1 trail here =>
      cases h
      exact ⟨trail, htrail, rfl⟩
  | case2 => cases h
  | case3 _ _ _ _ _ ih => exact ih htrail h
  | case4 _ _ _ ih => exact ih htrail h
  | case5 parts entries name parent above _ ih =>
      cases htrail with
      | cons habove => exact ih habove h
  | case6 => cases h
  | case7 trail part parts entries _ _ entry hentry ih =>
      exact ih (.cons htrail (mem_of_lookup hentry)) h

/-- Following a path goes along its route. -/
theorem route_follow (htrail : Trail root trail here) (parts : List String) :
    Route root (trail.map Prod.fst).reverse parts ((follow trail here parts).map Prod.fst) := by
  fun_induction follow trail here parts with
  | case1 trail here => exact .arrived _
  | case2 => exact .astray (.file htrail.holds)
  | case3 _ _ _ _ hpart ih =>
      rw [Bool.or_eq_true, decide_eq_true_iff, decide_eq_true_iff] at hpart
      exact .turn (.stay htrail.holds hpart) (ih htrail)
  | case4 _ _ _ ih => exact .turn (.back htrail.holds rfl) (ih htrail)
  | case5 parts entries name parent above _ ih =>
      have hback := htrail.holds
      cases htrail with
      | cons habove =>
          refine .turn (.back hback rfl) ?_
          rw [List.map_cons, List.reverse_cons, List.dropLast_concat]
          exact ih habove
  | case6 trail part parts entries hpart hback hnone =>
      rw [Bool.or_eq_true, decide_eq_true_iff, decide_eq_true_iff] at hpart
      refine .astray (.missing htrail.holds ⟨hpart, hback⟩ fun hthere => ?_)
      obtain ⟨⟨name, entry⟩, hentry, rfl⟩ := List.mem_map.mp hthere
      exact absurd (List.lookup_eq_none_iff.mp hnone _ hentry) (by simp)
  | case7 trail part parts entries hpart hback entry hentry ih =>
      rw [Bool.or_eq_true, decide_eq_true_iff, decide_eq_true_iff] at hpart
      have hmem := mem_of_lookup hentry
      have hrest := ih (.cons htrail hmem)
      rw [List.map_cons, List.reverse_cons] at hrest
      exact .turn (.on htrail.holds ⟨hpart, hback⟩ (List.mem_map_of_mem hmem)) hrest

end FileTree

namespace FileSystem

variable {α : Type} {system : FileSystem α} {path : String}

/-- Where a path leads, from the root if it begins with a slash and from the working
directory otherwise, or why it leads nowhere.  The empty path leads nowhere. -/
def Route (system : FileSystem α) (path : String) (result : Except PathError (List String)) :
    Prop :=
  if path = "" then result = .error .notFound
  else
    let start := if Path.isAbsolute path then [] else system.workingDirectory
    system.root.Route [] (start ++ Path.parts path) result

theorem Route.unique {result result' : Except PathError (List String)}
    (hroot : system.root.UniqueNames) (h : system.Route path result)
    (h' : system.Route path result') : result = result' := by
  unfold Route at h h'
  split at h
  · next hempty =>
      rw [if_pos hempty] at h'
      exact h.trans h'.symm
  · next hpath =>
      rw [if_neg hpath] at h'
      exact FileTree.Route.unique hroot h h'

/-- A path is resolved to where it leads. -/
theorem route_resolve (system : FileSystem α) (path : String) :
    system.Route path ((system.resolve path).map Prod.fst) := by
  unfold Route resolve
  split
  · rfl
  · exact FileTree.route_follow .nil _

/-- The names that a path resolves to lead to what it means. -/
theorem holds_of_resolve {names : List String} {tree : FileTree α}
    (h : system.resolve path = .ok (names, tree)) : system.root.Holds names tree := by
  rw [resolve] at h
  split at h
  · cases h
  · obtain ⟨trail, htrail, rfl⟩ := FileTree.follow_trail .nil h
    exact htrail.holds

theorem uniqueNames_mounting {tree : FileTree α} (htree : tree.UniqueNames)
    (names : List String) : (mounting tree names).root.UniqueNames := by
  unfold mounting
  induction names with
  | nil => exact htree
  | cons name names ih =>
      exact .directory (List.nodup_singleton name) fun entry hentry =>
        List.mem_singleton.mp hentry ▸ ih

-- what begins with a slash begins at the root, and there is no way up from there
example :
    let system : FileSystem Nat := .mounting (.directory [("a.scala", .file 1)]) ["home", "src"]
    system.resolve "../../../home/./src//a.scala" =
        .ok (["home", "src", "a.scala"], .file 1) ∧
      system.resolve "/a.scala" = .error .notFound := by
  constructor <;> rfl

end FileSystem

end ScalaLexer
