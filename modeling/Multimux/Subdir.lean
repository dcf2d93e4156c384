/-
This file compares what `resolveSubdir` checks with what it returns. The check
is a text prefix test on the real base joined with the subdirectory; what it
returns is the configured base joined with it. Below the root directory the
text test refuses everything but the root itself. Elsewhere it accepts exactly
what lies inside, and the path returned names the directory checked exactly
when the two bases, each climbed as far as the subdirectory climbs, lead
through its names to the same place.
-/

import Multimux.FileTree

namespace Multimux

/-! ### The function -/

/-- `unicode.IsSpace`. -/
def isSpace (letter : Char) : Bool :=
  letter.toNat ∈ [0x09, 0x0A, 0x0B, 0x0C, 0x0D, 0x20, 0x85, 0xA0, 0x1680, 0x2028, 0x2029, 0x202F,
    0x205F, 0x3000] ∨ 0x2000 ≤ letter.toNat ∧ letter.toNat ≤ 0x200A

/-- `strings.TrimSpace`. -/
def trimSpace (text : List Char) : List Char := (text.dropWhile isSpace).rdropWhile isSpace

/-- An absolute path, as the configured directories have. -/
structure RootedPath where
  text : List Char
  absolute : rooted text = true

/-- `filepath.EvalSymlinks` of a rooted path. -/
def FileTree.evalSymlinks (tree : FileTree) (path : List Char) : Option (List Char) :=
  (tree.resolve path).map render

/-- Whether `os.Stat` finds a directory. -/
def FileTree.isDir (tree : FileTree) (path : List Char) : Bool :=
  (tree.resolve path).bind tree.node matches some .dir

/-- `resolveSubdir`: the directory that a launch uses, inside the base or refused. -/
def resolveSubdir (tree : FileTree) (base : RootedPath) (subdir : List Char) :
    Except String (List Char) :=
  let subdir := trimSpace subdir
  if subdir = [] then .ok base.text
  else if rooted subdir then .error "subdirectory must be relative"
  else
    match tree.evalSymlinks base.text with
    | none => .error "directory is unavailable"
    | some realBase =>
      match tree.evalSymlinks (joinPath realBase subdir) with
      | none => .error "subdirectory does not exist"
      | some full =>
        if full ≠ realBase ∧ ¬ realBase ++ ['/'] <+: full then
          .error "subdirectory must stay inside the selected directory"
        else if tree.isDir full then .ok (cleanPath (joinPath base.text subdir))
        else .error "subdirectory does not exist"

/-! ### What is asked of it -/

/-- The directory that the real base joined with the subdirectory resolves to. -/
def FileTree.joined (tree : FileTree) (realBase : List (List Char)) (subdir : List Char) :
    Option (List (List Char)) :=
  tree.resolve (joinPath (render realBase) subdir)

/-- The subdirectory is relative and leads to a directory inside the base. -/
def Inside (tree : FileTree) (base : RootedPath) (subdir : List Char) : Prop :=
  rooted subdir = false ∧ ∃ realBase full, tree.resolve base.text = some realBase ∧
    tree.joined realBase subdir = some full ∧ tree.node full = some .dir ∧ realBase <+: full

/-- It succeeds exactly on nothing and on what is inside, and what it then returns resolves to
the directory it checked. -/
structure AcceptsInside (tree : FileTree) (base : RootedPath) (subdir : List Char) : Prop where
  succeeds : (∃ path, resolveSubdir tree base subdir = .ok path) ↔
    trimSpace subdir = [] ∨ Inside tree base (trimSpace subdir)
  names : ∀ path realBase full, resolveSubdir tree base subdir = .ok path →
    trimSpace subdir ≠ [] → tree.resolve base.text = some realBase →
    tree.joined realBase (trimSpace subdir) = some full → tree.resolve path = some full

/-- A base that is not the root, or a subdirectory that leads to no directory but the root. -/
def RootOnly (tree : FileTree) (realBase : List (List Char)) (subdir : List Char) : Prop :=
  realBase = [] → ∀ full, tree.joined [] subdir = some full → tree.node full = some .dir →
    full = []

/-- From the base as it is spelled and from the real base, both climbed as far as the
subdirectory climbs, its names lead to the same place, if they lead inside. -/
def SameAfterClimb (tree : FileTree) (base : RootedPath) (realBase : List (List Char))
    (subdir : List Char) : Prop :=
  let climb := climbOf (components subdir)
  ∀ full, tree.walk (realBase.rdrop climb.levels) climb.names = some full →
    tree.node full = some .dir → realBase <+: full →
    (tree.walk [] ((cleanFrom [] (components base.text)).rdrop climb.levels)).bind
      (fun spelled => tree.walk spelled climb.names) = some full

/-! ### The two paths -/

variable {tree : FileTree}

theorem FileTree.isName_of_resolve {path : List Char} {final : List (List Char)}
    (resolved : tree.resolve path = some final) : ∀ name ∈ final, IsName name := by
  have exists' : tree.node final ≠ none := by
    rcases FileTree.found_walk tree.root resolved with found | found <;> rw [found] <;> nofun
  exact FileTree.isName_of_found exists'

/-- The text of a resolved path is a directory's exactly when the path is one. -/
theorem FileTree.isDir_render {path : List Char} {final : List (List Char)}
    (resolved : tree.resolve path = some final) :
    tree.isDir (render final) = true ↔ tree.node final = some .dir := by
  have again : tree.resolve (render final) = some final := by
    rw [FileTree.resolve, components_render (FileTree.isName_of_resolve resolved)]
    rcases FileTree.found_walk tree.root resolved with found | found
    · exact FileTree.walk_dir found
    · exact FileTree.walk_file found
  unfold FileTree.isDir
  rw [again, Option.bind_some]
  cases tree.node final with
  | none => simp
  | some node => cases node <;> simp

/-- A path to a directory resolves to one. -/
theorem FileTree.exists_of_isDir {path : List Char} (directory : tree.isDir path = true) :
    ∃ final, tree.resolve path = some final ∧ tree.node final = some .dir := by
  unfold FileTree.isDir at directory
  obtain missing | ⟨final, resolved⟩ := (tree.resolve path).eq_none_or_eq_some
  · rw [missing] at directory
    cases directory
  · refine ⟨final, resolved, ?_⟩
    rw [resolved, Option.bind_some] at directory
    split at directory
    · assumption
    · cases directory

/-- The joined path leads from the climbed real base through the names. -/
theorem FileTree.joined_eq {realBase : List (List Char)} (found : tree.node realBase = some .dir)
    (subdir : List Char) : tree.joined realBase subdir =
      tree.walk (realBase.rdrop (climbOf (components subdir)).levels)
        (climbOf (components subdir)).names := by
  have proper : ∀ name ∈ realBase, IsName name :=
    FileTree.isName_of_found (by rw [found]; nofun)
  have names := isName_climbOf fun _ => @mem_components subdir _
  unfold FileTree.joined FileTree.resolve
  rw [components_joinPath, components_render proper, cleanFrom_names [] proper, List.nil_append,
    cleanFrom_eq_climb, FileTree.walk_append tree [] _ names,
    FileTree.walk_dir (FileTree.dir_rdrop found _), Option.bind_some]

/-- The returned path leads from the base as it is spelled, climbed, through the names. -/
theorem FileTree.resolve_returned (base subdir : List Char) :
    tree.resolve (cleanPath (joinPath base subdir)) =
      (tree.walk [] ((cleanFrom [] (components base)).rdrop
        (climbOf (components subdir)).levels)).bind
        fun spelled => tree.walk spelled (climbOf (components subdir)).names := by
  have names := isName_climbOf fun _ => @mem_components subdir _
  rw [cleanPath_joinPath, FileTree.resolve, components_joinPath, cleanFrom_eq_climb,
    FileTree.walk_append tree [] _ names]

/-! ### What is accepted -/

/-- On an existing directory, a subdirectory is accepted when the text test on the two real
paths passes, and then the joined path is returned. -/
theorem resolveSubdir_eq_ok_iff {base : RootedPath} {subdir path : List Char}
    {realBase : List (List Char)} (resolved : tree.resolve base.text = some realBase)
    (given : trimSpace subdir ≠ []) : resolveSubdir tree base subdir = .ok path ↔
      rooted (trimSpace subdir) = false ∧
        ∃ full, tree.joined realBase (trimSpace subdir) = some full ∧
          tree.node full = some .dir ∧
          (if realBase = [] then full = [] else realBase <+: full) ∧
          path = cleanPath (joinPath base.text (trimSpace subdir)) := by
  unfold resolveSubdir
  dsimp only
  rw [if_neg given, FileTree.evalSymlinks, resolved]
  cases relative : rooted (trimSpace subdir) with
  | true => simp
  | false =>
    rw [if_neg Bool.false_ne_true]
    dsimp only [Option.map_some]
    rw [FileTree.evalSymlinks]
    change _ ↔ _ ∧ ∃ full, tree.resolve _ = _ ∧ _
    cases joined : tree.resolve (joinPath (render realBase) (trimSpace subdir)) with
    | none => simp
    | some full =>
      have below := render_below_iff (FileTree.isName_of_resolve resolved)
        (FileTree.isName_of_resolve joined)
      have directory := FileTree.isDir_render joined
      dsimp only [Option.map_some]
      by_cases inside : render full = render realBase ∨ render realBase ++ ['/'] <+: render full
      · rw [if_neg fun outside => inside.elim outside.1 outside.2]
        rw [below] at inside
        by_cases here : tree.isDir (render full) = true
        · rw [if_pos here]
          rw [directory] at here
          constructor
          · rintro ⟨⟩
            exact ⟨rfl, full, rfl, here, inside, rfl⟩
          · rintro ⟨-, _, -, -, -, rfl⟩
            rfl
        · rw [if_neg here]
          rw [directory] at here
          constructor
          · nofun
          · rintro ⟨-, _, ⟨⟩, found, -, -⟩
            exact absurd found here
      · rw [if_pos (not_or.mp inside)]
        rw [below] at inside
        constructor
        · nofun
        · rintro ⟨-, _, ⟨⟩, -, found, -⟩
          exact absurd found inside

/-- A base whose cleaned spelling leads to the real base, and a subdirectory that does not
climb. -/
theorem sameAfterClimb_of_level {base : RootedPath} {subdir : List Char}
    {realBase : List (List Char)}
    (spelled : tree.resolve (cleanPath base.text) = some realBase)
    (level : (climbOf (components subdir)).levels = 0) :
    SameAfterClimb tree base realBase subdir := by
  have names : ∀ name ∈ cleanFrom [] (components base.text), IsName name :=
    isName_cleanFrom nofun fun _ => mem_components
  rw [FileTree.resolve, cleanPath, components_render names] at spelled
  unfold SameAfterClimb
  dsimp only
  rw [level, List.rdrop_zero, List.rdrop_zero, spelled, Option.bind_some]
  exact fun full leads _ _ => leads

/-! ### Acceptance -/

theorem acceptsInside_of_empty {base : RootedPath} {subdir : List Char}
    (empty : trimSpace subdir = []) : AcceptsInside tree base subdir := by
  refine ⟨iff_of_true ⟨base.text, ?_⟩ (.inl empty), fun _ _ _ _ given => absurd empty given⟩
  unfold resolveSubdir
  dsimp only
  rw [if_pos empty]

theorem acceptsInside_of_rooted {base : RootedPath} {subdir : List Char}
    {realBase : List (List Char)} (resolved : tree.resolve base.text = some realBase)
    (given : trimSpace subdir ≠ []) (absolute : rooted (trimSpace subdir) = true) :
    AcceptsInside tree base subdir := by
  have refused : ∀ path, resolveSubdir tree base subdir ≠ .ok path := by
    intro path accepted
    have relative := ((resolveSubdir_eq_ok_iff resolved given).mp accepted).1
    rw [absolute] at relative
    cases relative
  refine ⟨iff_of_false ?_ ?_, fun path _ _ accepted => absurd accepted (refused path)⟩
  · exact fun ⟨path, accepted⟩ => refused path accepted
  · rintro (nothing | ⟨relative, -⟩)
    · exact given nothing
    · rw [absolute] at relative
      cases relative

/-- What the text test passes lies inside; it also passes everything inside, where the root is
no obstacle. -/
theorem inside_of_text {realBase full : List (List Char)}
    (below : if realBase = [] then full = [] else realBase <+: full) : realBase <+: full := by
  split at below
  · rename_i root
    rw [root]
    exact List.nil_prefix
  · exact below

theorem RootOnly.text {realBase full : List (List Char)} {subdir : List Char}
    (rootOnly : RootOnly tree realBase subdir)
    (joined : tree.joined realBase subdir = some full) (found : tree.node full = some .dir)
    (inside : realBase <+: full) : if realBase = [] then full = [] else realBase <+: full := by
  split
  · rename_i root
    subst root
    exact rootOnly rfl full joined found
  · exact inside

theorem acceptsInside_relative_iff {base : RootedPath} {subdir : List Char}
    {realBase : List (List Char)} (resolved : tree.resolve base.text = some realBase)
    (existing : tree.node realBase = some .dir) (given : trimSpace subdir ≠ [])
    (relative : rooted (trimSpace subdir) = false) :
    AcceptsInside tree base subdir ↔ RootOnly tree realBase (trimSpace subdir) ∧
      SameAfterClimb tree base realBase (trimSpace subdir) := by
  constructor
  · intro accepts
    have accepted : ∀ full, tree.joined realBase (trimSpace subdir) = some full →
        tree.node full = some .dir → realBase <+: full →
        ∃ path, resolveSubdir tree base subdir = .ok path := fun full joined found below =>
      accepts.succeeds.mpr (.inr ⟨relative, realBase, full, resolved, joined, found, below⟩)
    constructor
    · rintro rfl full joined found
      obtain ⟨path, ok⟩ := accepted full joined found List.nil_prefix
      obtain ⟨-, other, joined', -, root, -⟩ := (resolveSubdir_eq_ok_iff resolved given).mp ok
      cases joined.symm.trans joined'
      exact root
    · intro full leads found below
      rw [← FileTree.joined_eq existing] at leads
      obtain ⟨path, ok⟩ := accepted full leads found below
      have named := accepts.names path realBase full ok given resolved leads
      obtain ⟨-, _, -, -, -, rfl⟩ := (resolveSubdir_eq_ok_iff resolved given).mp ok
      rwa [FileTree.resolve_returned] at named
  · rintro ⟨rootOnly, same⟩
    refine ⟨⟨?_, ?_⟩, ?_⟩
    · rintro ⟨path, ok⟩
      obtain ⟨-, full, joined, found, below, -⟩ := (resolveSubdir_eq_ok_iff resolved given).mp ok
      exact .inr ⟨relative, realBase, full, resolved, joined, found, inside_of_text below⟩
    · rintro (nothing | ⟨-, other, full, again, joined, found, below⟩)
      · exact absurd nothing given
      · cases resolved.symm.trans again
        exact ⟨_, (resolveSubdir_eq_ok_iff resolved given).mpr
          ⟨relative, full, joined, found, rootOnly.text joined found below, rfl⟩⟩
    · intro path other full ok _ again joined
      cases resolved.symm.trans again
      obtain ⟨-, _, joined', found, below, rfl⟩ := (resolveSubdir_eq_ok_iff resolved given).mp ok
      cases joined.symm.trans joined'
      rw [FileTree.joined_eq existing] at joined
      rw [FileTree.resolve_returned]
      exact same full joined found (inside_of_text below)

/-- On an existing directory, `resolveSubdir` accepts exactly what is inside and names what it
checked exactly when the subdirectory is empty or absolute, or the root is no obstacle and the
climbed bases lead to the same place. -/
theorem resolveSubdir_accepts_inside_iff (tree : FileTree) (base : RootedPath)
    (subdir : List Char) (directory : tree.isDir base.text = true) :
    AcceptsInside tree base subdir ↔ trimSpace subdir = [] ∨ rooted (trimSpace subdir) = true ∨
      ∀ realBase, tree.resolve base.text = some realBase →
        RootOnly tree realBase (trimSpace subdir) ∧
          SameAfterClimb tree base realBase (trimSpace subdir) := by
  obtain ⟨realBase, resolved, existing⟩ := FileTree.exists_of_isDir directory
  by_cases empty : trimSpace subdir = []
  · exact iff_of_true (acceptsInside_of_empty empty) (.inl empty)
  cases relative : rooted (trimSpace subdir) with
  | true =>
    exact iff_of_true (acceptsInside_of_rooted resolved empty relative) (.inr (.inl rfl))
  | false =>
    rw [acceptsInside_relative_iff resolved existing empty relative]
    constructor
    · intro conditions
      refine .inr (.inr fun other again => ?_)
      cases resolved.symm.trans again
      exact conditions
    · rintro (nothing | absolute | conditions)
      · exact absurd nothing empty
      · cases absolute
      · exact conditions realBase resolved

/-- A directory with a second name outside of the directory it stands in. -/
def aliasTree : FileTree :=
  .ofEntries
    [([['d']], .dir), ([['d'], ['r']], .dir), ([['a']], .link ['/', 'd', '/', 'r'])] (by decide)

theorem aliasTree_resolve_plain : aliasTree.resolve ['/', 'd'] = some [['d']] := rfl

theorem aliasTree_resolve_alias : aliasTree.resolve ['/', 'a'] = some [['d'], ['r']] := rfl

theorem resolveSubdir_accepts_inside_plain :
    AcceptsInside aliasTree ⟨['/', 'd'], rfl⟩ ['r'] := by
  have directory : aliasTree.isDir ['/', 'd'] = true := by
    rw [FileTree.isDir, aliasTree_resolve_plain]
    rfl
  refine (resolveSubdir_accepts_inside_iff aliasTree ⟨['/', 'd'], rfl⟩ ['r'] directory).mpr
    (.inr (.inr fun realBase resolved => ?_))
  cases aliasTree_resolve_plain.symm.trans resolved
  exact ⟨nofun, sameAfterClimb_of_level aliasTree_resolve_plain rfl⟩

/-- The root refuses the directories in it, and below an alias `..` leads elsewhere in the path
that is checked than in the path that is returned. -/
theorem resolveSubdir_refuses_below_root :
    ¬ AcceptsInside aliasTree ⟨['/'], rfl⟩ ['d'] ∧
      ¬ AcceptsInside aliasTree ⟨['/', 'a'], rfl⟩ ['.', '.', '/', 'r'] := by
  constructor
  · intro accepts
    have root : aliasTree.resolve ['/'] = some [] := FileTree.walk_dir rfl
    have given : trimSpace ['d'] ≠ [] := by decide
    have joined : aliasTree.joined [] (trimSpace ['d']) = some [['d']] := FileTree.walk_dir rfl
    obtain ⟨path, ok⟩ := accepts.succeeds.mpr
      (.inr ⟨rfl, [], [['d']], root, joined, rfl, List.nil_prefix⟩)
    obtain ⟨-, full, joined', -, empty, -⟩ := (resolveSubdir_eq_ok_iff root given).mp ok
    cases joined.symm.trans joined'
    cases empty
  · intro accepts
    have given : trimSpace ['.', '.', '/', 'r'] ≠ [] := by decide
    have joined : aliasTree.joined [['d'], ['r']] (trimSpace ['.', '.', '/', 'r']) =
        some [['d'], ['r']] := FileTree.walk_dir rfl
    have ok : resolveSubdir aliasTree ⟨['/', 'a'], rfl⟩ ['.', '.', '/', 'r'] = .ok ['/', 'r'] :=
      (resolveSubdir_eq_ok_iff aliasTree_resolve_alias given).mpr
        ⟨rfl, [['d'], ['r']], joined, rfl, List.prefix_rfl, rfl⟩
    have named := accepts.names _ _ _ ok given aliasTree_resolve_alias joined
    have missing : aliasTree.resolve ['/', 'r'] = none := rfl
    cases missing.symm.trans named

end Multimux
