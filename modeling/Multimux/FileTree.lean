/-
This file is the library of file trees with symbolic links. Resolving a path
walks its components from a directory: `..` goes to the parent of the directory
reached, and a link is resolved from the directory it stands in before the walk
goes on. How deep links may nest is a limit of the tree; a walk that loops
through links exceeds every limit and has no result. A walk splits wherever the
path does.
-/

import Multimux.Paths

namespace Multimux

/-! ### Trees and walks -/

/-- What a path of the tree names. -/
inductive Node
  | dir
  | file
  | link (target : List Char)
  deriving DecidableEq

/-- A tree: the root is a directory, and entries have names and stand in directories. Links nest
up to a limit. -/
structure FileTree where
  node : List (List Char) → Option Node
  limit : Nat
  root : node [] = some .dir
  entry : ∀ path name, node (path ++ [name]) ≠ none → node path = some .dir ∧ IsName name

/-- What a list of entries has at a path. -/
def entryAt (entries : List (List (List Char) × Node)) (path : List (List Char)) : Option Node :=
  if path = [] then some .dir else (entries.find? (·.1 = path)).map Prod.snd

/-- The tree of a list of entries, each under a name in a listed directory. -/
def FileTree.ofEntries (entries : List (List (List Char) × Node))
    (listed : ∀ listing ∈ entries, entryAt entries listing.1.dropLast = some .dir ∧
      IsName (listing.1.getLastD [])) : FileTree where
  node := entryAt entries
  limit := entries.length
  root := if_pos rfl
  entry := by
    intro path name found
    have below : path ++ [name] ≠ [] := by simp
    rw [entryAt, if_neg below] at found
    cases search : entries.find? (·.1 = path ++ [name]) with
    | none => exact absurd (by rw [search]; rfl) found
    | some listing =>
      have spelled : listing.1 = path ++ [name] := by simpa using List.find?_some search
      have parent := listed listing (List.mem_of_find?_eq_some search)
      rwa [spelled, List.dropLast_concat, List.getLastD_concat] at parent

/-- Walk the components from a directory. A regular file can only come last. -/
def FileTree.walkWith (tree : FileTree)
    (follow : List (List Char) → List (List Char) → Option (List (List Char)))
    (reached : List (List Char)) : List (List Char) → Option (List (List Char))
  | [] => some reached
  | component :: rest =>
    if component = dot then tree.walkWith follow reached rest
    else if component = dotdot then tree.walkWith follow reached.dropLast rest
    else
      match tree.node (reached ++ [component]) with
      | none => none
      | some .dir => tree.walkWith follow (reached ++ [component]) rest
      | some .file => if rest = [] then some (reached ++ [component]) else none
      | some (.link target) =>
        (follow (if rooted target then [] else reached) (components target)).bind fun final =>
          if rest = [] ∨ tree.node final = some .dir then tree.walkWith follow final rest else none

/-- A walk through links that nest no deeper than a depth. -/
def FileTree.walkWithin (tree : FileTree) :
    Nat → List (List Char) → List (List Char) → Option (List (List Char))
  | 0 => tree.walkWith fun _ _ => none
  | depth + 1 => tree.walkWith (tree.walkWithin depth)

/-- The path that `todo` leads to from the reached one, with every link followed. -/
def FileTree.walk (tree : FileTree) (reached todo : List (List Char)) :
    Option (List (List Char)) :=
  tree.walkWithin tree.limit reached todo

/-- The file that a rooted path names, with every link resolved. -/
def FileTree.resolve (tree : FileTree) (path : List Char) : Option (List (List Char)) :=
  tree.walk [] (components path)

variable {tree : FileTree}

/-! ### Directories -/

/-- What has an entry below it is a directory, and the way there is made of names. -/
theorem FileTree.dir_of_below {path more : List (List Char)} (below : more ≠ [])
    (found : tree.node (path ++ more) ≠ none) : tree.node path = some .dir := by
  induction more using List.reverseRecOn with
  | nil => exact absurd rfl below
  | append_singleton more name inductionHypothesis =>
    rw [← List.append_assoc] at found
    have parent := (tree.entry _ name found).1
    by_cases direct : more = []
    · rwa [direct, List.append_nil] at parent
    · exact inductionHypothesis direct (by rw [parent]; nofun)

theorem FileTree.isName_of_found {path : List (List Char)} (found : tree.node path ≠ none) :
    ∀ name ∈ path, IsName name := by
  induction path using List.reverseRecOn with
  | nil => exact nofun
  | append_singleton path last inductionHypothesis =>
    obtain ⟨parent, proper⟩ := tree.entry path last found
    intro name member
    rcases List.mem_append.mp member with earlier | here
    · exact inductionHypothesis (by rw [parent]; nofun) name earlier
    · cases List.mem_singleton.mp here
      exact proper

theorem FileTree.dir_rdrop {path : List (List Char)} (found : tree.node path = some .dir)
    (levels : Nat) : tree.node (path.rdrop levels) = some .dir := by
  have whole : path.rdrop levels ++ path.drop (path.length - levels) = path :=
    List.take_append_drop _ _
  by_cases all : path.drop (path.length - levels) = []
  · rw [all, List.append_nil] at whole
    rwa [whole]
  · exact FileTree.dir_of_below all (by rw [whole, found]; nofun)

/-- The names of a directory lead to it from any directory above it. -/
theorem FileTree.walkWith_names
    (follow : List (List Char) → List (List Char) → Option (List (List Char)))
    {path more : List (List Char)} (found : tree.node (path ++ more) = some .dir) :
    tree.walkWith follow path more = some (path ++ more) := by
  induction more generalizing path with
  | nil =>
    rw [List.append_nil]
    rfl
  | cons name rest inductionHypothesis =>
    rw [List.append_cons] at found ⊢
    have here : tree.node (path ++ [name]) = some .dir := by
      by_cases last : rest = []
      · rwa [last, List.append_nil] at found
      · exact FileTree.dir_of_below last (by rw [found]; nofun)
    have proper := (tree.entry path name (by rw [here]; nofun)).2
    rw [FileTree.walkWith, if_neg proper.notDot, if_neg proper.notDotdot, here]
    exact inductionHypothesis found

/-- The walk of a tree, with the walk of its links. -/
theorem FileTree.walk_eq (tree : FileTree) :
    ∃ follow, ∀ reached todo, tree.walk reached todo = tree.walkWith follow reached todo := by
  unfold FileTree.walk
  cases tree.limit with
  | zero => exact ⟨_, fun _ _ => rfl⟩
  | succ depth => exact ⟨_, fun _ _ => rfl⟩

/-- A walk ends in a directory or a regular file as soon as those of the links do. -/
theorem FileTree.found_walkWith
    {follow : List (List Char) → List (List Char) → Option (List (List Char))}
    (follows : ∀ start todo final, tree.node start = some .dir → follow start todo = some final →
      tree.node final = some .dir ∨ tree.node final = some .file)
    {reached todo final : List (List Char)} (start : tree.node reached = some .dir)
    (walked : tree.walkWith follow reached todo = some final) :
    tree.node final = some .dir ∨ tree.node final = some .file := by
  induction todo generalizing reached with
  | nil =>
    cases walked
    exact .inl start
  | cons component rest inductionHypothesis =>
    rw [FileTree.walkWith] at walked
    split at walked
    · exact inductionHypothesis start walked
    split at walked
    · have parent := FileTree.dir_rdrop start 1
      rw [List.rdrop, ← List.dropLast_eq_take] at parent
      exact inductionHypothesis parent walked
    split at walked
    · cases walked
    · rename_i found
      exact inductionHypothesis found walked
    · rename_i found
      split at walked <;> cases walked
      exact .inr found
    · obtain ⟨middle, followed, onward⟩ := Option.bind_eq_some_iff.mp walked
      split at onward
      · rename_i proceeds
        rcases proceeds with rfl | directory
        · cases onward
          refine follows _ _ _ ?_ followed
          split
          · exact tree.root
          · exact start
        · exact inductionHypothesis directory onward
      · cases onward

/-- A walk from a directory ends in a directory or a regular file. -/
theorem FileTree.found_walk {reached todo final : List (List Char)}
    (start : tree.node reached = some .dir) (walked : tree.walk reached todo = some final) :
    tree.node final = some .dir ∨ tree.node final = some .file := by
  have within : ∀ depth reached todo final, tree.node reached = some .dir →
      tree.walkWithin depth reached todo = some final →
      tree.node final = some .dir ∨ tree.node final = some .file := by
    intro depth
    induction depth with
    | zero => exact fun _ _ _ => FileTree.found_walkWith fun _ _ _ _ followed => by cases followed
    | succ depth inductionHypothesis =>
      exact fun _ _ _ => FileTree.found_walkWith inductionHypothesis
  exact within tree.limit reached todo final start walked

/-! ### Splitting a walk -/

/-- Nothing stands below what is no directory. -/
theorem FileTree.walkWith_below
    (follow : List (List Char) → List (List Char) → Option (List (List Char)))
    {path : List (List Char)} (other : tree.node path ≠ some .dir) {names : List (List Char)}
    (proper : ∀ name ∈ names, IsName name) (below : names ≠ []) :
    tree.walkWith follow path names = none := by
  cases names with
  | nil => exact absurd rfl below
  | cons name rest =>
    have plain := proper name List.mem_cons_self
    have bottom : tree.node (path ++ [name]) = none := by
      by_contra exists'
      exact other (tree.entry path name exists').1
    rw [FileTree.walkWith, if_neg plain.notDot, if_neg plain.notDotdot, bottom]

theorem FileTree.walkWith_append
    (follow : List (List Char) → List (List Char) → Option (List (List Char)))
    (reached front : List (List Char)) {back : List (List Char)}
    (proper : ∀ name ∈ back, IsName name) :
    tree.walkWith follow reached (front ++ back) =
      (tree.walkWith follow reached front).bind fun middle => tree.walkWith follow middle back := by
  induction front generalizing reached with
  | nil => rfl
  | cons component rest inductionHypothesis =>
    rw [List.cons_append, FileTree.walkWith, FileTree.walkWith]
    by_cases here : component = dot
    · rw [if_pos here, if_pos here]
      exact inductionHypothesis reached
    by_cases up : component = dotdot
    · rw [if_neg here, if_neg here, if_pos up, if_pos up]
      exact inductionHypothesis reached.dropLast
    rw [if_neg here, if_neg here, if_neg up, if_neg up]
    obtain found | ⟨node, found⟩ := (tree.node (reached ++ [component])).eq_none_or_eq_some
    · rw [found]
      rfl
    rw [found]
    cases node with
    | dir => exact inductionHypothesis (reached ++ [component])
    | file =>
      have other : tree.node (reached ++ [component]) ≠ some .dir := by rw [found]; nofun
      dsimp only
      by_cases last : rest = []
      · subst last
        rw [List.nil_append, if_pos rfl, Option.bind_some]
        split
        · rename_i nothing
          subst nothing
          rfl
        · rename_i below
          exact (FileTree.walkWith_below follow other proper below).symm
      · rw [if_neg (by simp [last]), if_neg last]
        rfl
    | link target =>
      dsimp only
      rw [Option.bind_assoc]
      congr 1
      funext final
      by_cases directory : tree.node final = some .dir
      · rw [if_pos (.inr directory), if_pos (.inr directory)]
        exact inductionHypothesis final
      by_cases last : rest = []
      · subst last
        have ends : (if ([] : List (List Char)) = [] ∨ tree.node final = some .dir then
            tree.walkWith follow final [] else none) = some final := if_pos (.inl rfl)
        rw [ends, List.nil_append, Option.bind_some]
        by_cases nothing : back = []
        · subst nothing
          exact if_pos (.inl rfl)
        · rw [if_neg (by simp [nothing, directory]),
            FileTree.walkWith_below follow directory proper nothing]
      · rw [if_neg (by simp [last, directory]), if_neg (by simp [last, directory])]
        rfl

/-- Walking a path that goes on by names is walking its front, and the names from there. -/
theorem FileTree.walk_append (tree : FileTree) (reached front : List (List Char))
    {back : List (List Char)} (proper : ∀ name ∈ back, IsName name) :
    tree.walk reached (front ++ back) =
      (tree.walk reached front).bind fun middle => tree.walk middle back := by
  obtain ⟨follow, walks⟩ := tree.walk_eq
  simp only [walks]
  exact FileTree.walkWith_append follow reached front proper

/-- The names of a directory lead to it from the root. -/
theorem FileTree.walk_dir {path : List (List Char)} (found : tree.node path = some .dir) :
    tree.walk [] path = some path := by
  obtain ⟨follow, walks⟩ := tree.walk_eq
  rw [walks]
  exact FileTree.walkWith_names follow found

/-- The names of a regular file lead to it from the root. -/
theorem FileTree.walk_file {path : List (List Char)} (found : tree.node path = some .file) :
    tree.walk [] path = some path := by
  cases path using List.reverseRecOn with
  | nil =>
    rw [tree.root] at found
    cases found
  | append_singleton path name =>
    obtain ⟨parent, proper⟩ := tree.entry path name (by rw [found]; nofun)
    rw [FileTree.walk_append tree [] path (by simpa using proper), FileTree.walk_dir parent,
      Option.bind_some]
    obtain ⟨follow, walks⟩ := tree.walk_eq
    rw [walks, FileTree.walkWith, if_neg proper.notDot, if_neg proper.notDotdot, found]
    rfl

end Multimux
