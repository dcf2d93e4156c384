/-
This file compares how the browser splits a session's directory with how the
server puts the halves together again. A launch records the configured
directory itself or a cleaned path, and in a cleaned path what stands behind a
configured prefix is made of names alone. The two halves therefore join to the
recorded path, and whether the server accepts them hangs on its guard alone:
the directory must lie inside the real one of the prefix that was picked, which
need not be the one that the session was launched under.
-/

import Multimux.SessionTable

namespace Multimux

/-! ### Splitting -/

/-- `path.replace(/\/+$/, "")`. -/
def stripSlashes (path : List Char) : List Char := path.rdropWhile (· = '/')

/-- The path below a configured directory, if it is there. -/
def subdirUnder (target : List Char) (d : Dir) : Option (List Char) :=
  let base := stripSlashes d.path.text
  if target ≠ base ∧ ¬ base ++ ['/'] <+: target then none
  else some (if target = base then [] else target.drop (base.length + 1))

/-- The shorter subdirectory is kept, and the first one among equals. -/
def betterSplit (target : List Char) (best : Option (Int × List Char)) (d : Dir) :
    Option (Int × List Char) :=
  match subdirUnder target d, best with
  | none, _ => best
  | some subdir, none => some (d.id, subdir)
  | some subdir, some found =>
    if subdir.length < found.2.length then some (d.id, subdir) else best

/-- A session's directory as a configured directory and the subdirectory below it. -/
def splitUnderDir (dirs : List Dir) (path : List Char) : Option (Int × List Char) :=
  dirs.foldl (betterSplit (stripSlashes path)) none

/-- The server accepts the halves and returns a path to the recorded directory. -/
def NamesRecorded (tree : FileTree) (d : Dir) (subdir recorded : List Char) : Prop :=
  ∃ path full, resolveSubdir tree d.path subdir = .ok path ∧ tree.resolve path = some full ∧
    tree.resolve recorded = some full

/-! ### Slashes -/

theorem components_slashes (count : Nat) : components (List.replicate count '/') = [] := by
  induction count with
  | zero => rfl
  | succ count inductionHypothesis =>
    rw [List.replicate_succ, components_slash, inductionHypothesis]

@[simp]
theorem components_stripSlashes (path : List Char) :
    components (stripSlashes path) = components path := by
  have parts : stripSlashes path ++ path.rtakeWhile (· = '/') = path :=
    List.rdropWhile_append_rtakeWhile
  have slashes : path.rtakeWhile (· = '/') =
      List.replicate (path.rtakeWhile (· = '/')).length '/' := by
    refine List.eq_replicate_of_mem fun letter member => ?_
    have slash := List.mem_rtakeWhile_imp member
    exact of_decide_eq_true slash
  conv_rhs => rw [← parts, slashes]
  cases (path.rtakeWhile (· = '/')).length with
  | zero => rw [List.replicate_zero, List.append_nil]
  | succ count =>
    rw [List.replicate_succ, components_append, components_slashes, List.append_nil]

theorem stripSlashes_render {names : List (List Char)} (proper : ∀ name ∈ names, IsName name) :
    stripSlashes (render names) = names.flatMap ('/' :: ·) := by
  rcases List.eq_nil_or_concat' names with rfl | ⟨front, last, rfl⟩
  · rfl
  · have name := proper last (by simp)
    rw [render, if_neg (by simp), stripSlashes, List.rdropWhile_eq_self_iff]
    intro nonempty slash
    have ending : (List.flatMap ('/' :: ·) (front ++ [last])).getLast nonempty =
        last.getLast name.nonempty := by
      simp [name.nonempty]
    rw [ending, decide_eq_true_eq] at slash
    exact name.noSlash (slash ▸ List.getLast_mem name.nonempty)

theorem splitOn_flatMap {names : List (List Char)} (proper : ∀ name ∈ names, IsName name) :
    (names.flatMap ('/' :: ·)).splitOn '/' = [] :: names := by
  have cons : ∀ text : List Char, ('/' :: text).splitOn '/' = [] :: text.splitOn '/' :=
    fun text => List.splitOn_append_cons_self [] text
  induction names with
  | nil => rfl
  | cons name rest inductionHypothesis =>
    have later := inductionHypothesis fun other member =>
      proper other (List.mem_cons_of_mem name member)
    have alone : name.splitOn '/' = [name] :=
      List.splitOn_eq_singleton (proper name List.mem_cons_self).noSlash
    rw [List.flatMap_cons, List.cons_append, cons]
    cases rest with
    | nil => rw [List.flatMap_nil, List.append_nil, alone]
    | cons next rest =>
      rw [List.flatMap_cons, List.cons_append, cons] at later
      rw [List.flatMap_cons, List.cons_append, List.splitOn_append_cons_self, alone,
        (List.cons.inj later).2]
      rfl

/-! ### The halves -/

/-- What a launch records: the directory as it is spelled, or a cleaned path. -/
theorem recorded_cases {tree : FileTree} {base : RootedPath} {subdir recorded : List Char}
    {realBase : List (List Char)} (resolved : tree.resolve base.text = some realBase)
    (launched : resolveSubdir tree base subdir = .ok recorded) :
    recorded = base.text ∧ trimSpace subdir = [] ∨
      trimSpace subdir ≠ [] ∧ ∃ names, (∀ name ∈ names, IsName name) ∧ recorded = render names ∧
        names = cleanFrom (cleanFrom [] (components base.text))
          (components (trimSpace subdir)) := by
  by_cases blank : trimSpace subdir = []
  · rw [resolveSubdir, if_pos blank] at launched
    exact Or.inl ⟨(Except.ok.inj launched).symm, blank⟩
  · right
    refine ⟨blank, _, ?_, ?_, rfl⟩
    · refine isName_cleanFrom (isName_cleanFrom ?_ fun _ => mem_components) fun _ => mem_components
      exact fun name member => absurd member List.not_mem_nil
    · obtain ⟨-, full, -, -, -, joined⟩ := (resolveSubdir_eq_ok_iff resolved blank).mp launched
      rw [joined, cleanPath_joinPath, joinPath, cleanPath, components_append, cleanFrom_append]

/-- A subdirectory is nothing under the directory itself, and else what stands behind its slash. -/
theorem subdirUnder_eq_some {target subdir : List Char} {d : Dir} :
    subdirUnder target d = some subdir ↔
      target = stripSlashes d.path.text ∧ subdir = [] ∨
        target ≠ stripSlashes d.path.text ∧
          target = stripSlashes d.path.text ++ '/' :: subdir := by
  rw [subdirUnder]
  by_cases same : target = stripSlashes d.path.text
  · simp [← same, eq_comm]
  · by_cases below : stripSlashes d.path.text ++ ['/'] <+: target
    · obtain ⟨rest, rfl⟩ := below
      have behind : (stripSlashes d.path.text ++ ['/'] ++ rest).drop
          ((stripSlashes d.path.text).length + 1) = rest := List.drop_left' (by simp)
      simp only [ne_eq, same, not_false_eq_true, List.prefix_append, not_true_eq_false, and_false,
        if_false, behind, Option.some.injEq, false_and, true_and, false_or]
      rw [List.append_assoc, List.append_right_inj]
      simp
    · have other : target ≠ stripSlashes d.path.text ++ '/' :: subdir := by
        rintro rfl
        exact below ⟨subdir, by simp⟩
      simp [same, below, other]

/-- What is kept is what was found before or what this directory gives, and neither is shorter. -/
theorem betterSplit_spec (target : List Char) (best : Option (Int × List Char)) (d : Dir) :
    (betterSplit target best d = best ∨ ∃ subdir, subdirUnder target d = some subdir ∧
        betterSplit target best d = some (d.id, subdir)) ∧
      (∀ found ∈ best, ∃ kept ∈ betterSplit target best d,
        kept.2.length ≤ found.2.length) ∧
      ∀ other, subdirUnder target d = some other → ∃ kept ∈ betterSplit target best d,
        kept.2.length ≤ other.length := by
  unfold betterSplit
  cases under : subdirUnder target d with
  | none => exact ⟨Or.inl rfl, fun found listed => ⟨found, listed, le_rfl⟩, by simp⟩
  | some subdir =>
    cases best with
    | none => simp
    | some found =>
      dsimp only
      split
      next shorter =>
        refine ⟨Or.inr ⟨subdir, rfl, rfl⟩, ?_, ?_⟩
        · exact fun before listed => ⟨_, rfl, Option.some.inj listed ▸ shorter.le⟩
        · exact fun other given => ⟨_, rfl, (congrArg List.length (Option.some.inj given)).le⟩
      next longer =>
        refine ⟨Or.inl rfl, fun before listed => ⟨before, listed, le_rfl⟩, ?_⟩
        intro other given
        exact ⟨found, rfl, Option.some.inj given ▸ not_lt.mp longer⟩

/-- The split is under a configured directory, and no other one is closer. -/
theorem splitUnderDir_spec {dirs : List Dir} {path subdir : List Char} {id : Int}
    (split : splitUnderDir dirs path = some (id, subdir)) :
    (∃ d ∈ dirs, d.id = id ∧ subdirUnder (stripSlashes path) d = some subdir) ∧
      ∀ d ∈ dirs, ∀ other, subdirUnder (stripSlashes path) d = some other →
        subdir.length ≤ other.length := by
  have fold : ∀ best : Option (Int × List Char),
      dirs.foldl (betterSplit (stripSlashes path)) best = some (id, subdir) →
      (best = some (id, subdir) ∨
        ∃ d ∈ dirs, d.id = id ∧ subdirUnder (stripSlashes path) d = some subdir) ∧
      (∀ found ∈ best, subdir.length ≤ found.2.length) ∧
      ∀ d ∈ dirs, ∀ other, subdirUnder (stripSlashes path) d = some other →
        subdir.length ≤ other.length := by
    clear split
    induction dirs with
    | nil =>
      intro best ended
      refine ⟨Or.inl ended, ?_, fun d member => absurd member List.not_mem_nil⟩
      intro found listed
      obtain rfl : (id, subdir) = found := Option.some.inj (ended.symm.trans listed)
      exact le_rfl
    | cons first dirs inductionHypothesis =>
      intro best ended
      rw [List.foldl_cons] at ended
      obtain ⟨origin, least, others⟩ := inductionHypothesis _ ended
      obtain ⟨kept, before, here⟩ := betterSplit_spec (stripSlashes path) best first
      refine ⟨?_, ?_, ?_⟩
      · rcases origin with ended | ⟨d, member, same, under⟩
        · rcases kept with same | ⟨found, under, taken⟩
          · exact Or.inl (same.symm.trans ended)
          · obtain ⟨rfl, rfl⟩ := Prod.mk.inj (Option.some.inj (taken.symm.trans ended))
            exact Or.inr ⟨first, List.mem_cons_self, rfl, under⟩
        · exact Or.inr ⟨d, List.mem_cons_of_mem first member, same, under⟩
      · intro found listed
        obtain ⟨nearer, result, shorter⟩ := before found listed
        exact (least nearer result).trans shorter
      · intro d member other under
        rcases List.mem_cons.mp member with rfl | later
        · obtain ⟨nearer, result, shorter⟩ := here other under
          exact (least nearer result).trans shorter
        · exact others d later other under
  obtain ⟨origin, -, least⟩ := fold none split
  exact ⟨origin.resolve_left (by simp), least⟩

/-! ### Putting the halves together -/

/-- The names of a recorded path are those of the picked directory and of the subdirectory. -/
theorem names_of_subdirUnder {names : List (List Char)} {subdir : List Char} {d : Dir}
    (proper : ∀ name ∈ names, IsName name) (given : subdir ≠ [])
    (under : subdirUnder (stripSlashes (render names)) d = some subdir) :
    names = components d.path.text ++ components subdir ∧ rooted subdir = false := by
  obtain ⟨-, empty⟩ | ⟨-, joined⟩ := subdirUnder_eq_some.mp under
  · exact absurd empty given
  · constructor
    · calc names = components (stripSlashes (render names)) := by
            rw [components_stripSlashes, components_render proper]
        _ = components d.path.text ++ components subdir := by
            rw [joined, components_append, components_stripSlashes]
    · -- A subdirectory with a slash in front would leave an empty name.
      by_contra absolute
      obtain ⟨rest, rfl⟩ : ∃ rest, subdir = '/' :: rest := by
        cases subdir with
        | nil => exact absurd rfl given
        | cons letter rest =>
          have slash : letter = '/' := by simpa [rooted] using absolute
          exact ⟨rest, by rw [slash]⟩
      have segments : ([] :: names : List (List Char)) =
          (stripSlashes d.path.text).splitOn '/' ++ [] :: rest.splitOn '/' := by
        rw [← splitOn_flatMap proper, ← stripSlashes_render proper, joined,
          List.splitOn_append_cons_self]
        exact congrArg _ (List.splitOn_append_cons_self [] rest)
      have empty : [] ∈ names := by
        cases front : (stripSlashes d.path.text).splitOn '/' with
        | nil => exact absurd front (List.splitOn_ne_nil _ _)
        | cons first others =>
          rw [front, List.cons_append] at segments
          rw [(List.cons.inj segments).2]
          simp
      exact (proper [] empty).nonempty rfl

variable {tree : FileTree}

/-- From the real path of the picked directory, its subdirectory leads where the recorded path
leads, and the server spells the path as the launch did. -/
theorem joined_recorded {names realBase : List (List Char)} {subdir : List Char} {d : Dir}
    (proper : ∀ name ∈ names, IsName name)
    (parts : names = components d.path.text ++ components subdir)
    (resolved : tree.resolve d.path.text = some realBase)
    (existing : tree.node realBase = some .dir) :
    tree.joined realBase subdir = tree.resolve (render names) ∧
      cleanPath (joinPath d.path.text subdir) = render names := by
  have below : ∀ name ∈ components subdir, IsName name := fun name member =>
    proper name (parts ▸ List.mem_append_right _ member)
  constructor
  · rw [FileTree.joined_eq existing, climbOf_names below, List.rdrop_zero, FileTree.resolve,
      components_render proper, parts, FileTree.walk_append tree [] _ below]
    rw [FileTree.resolve] at resolved
    rw [resolved, Option.bind_some]
  · rw [cleanPath_joinPath, joinPath, cleanPath, components_append, ← parts,
      cleanFrom_names [] proper, List.nil_append]

/-- A subdirectory of a recorded path names it again exactly when the path leads to a directory
inside the real one. -/
theorem namesRecorded_iff {names realBase : List (List Char)} {subdir : List Char} {d : Dir}
    (proper : ∀ name ∈ names, IsName name) (given : subdir ≠ [])
    (trimmed : trimSpace subdir = subdir)
    (under : subdirUnder (stripSlashes (render names)) d = some subdir)
    (resolved : tree.resolve d.path.text = some realBase)
    (existing : tree.node realBase = some .dir) (notRoot : realBase ≠ []) :
    NamesRecorded tree d subdir (render names) ↔
      ∃ full, tree.resolve (render names) = some full ∧ tree.node full = some .dir ∧
        realBase <+: full := by
  obtain ⟨parts, relative⟩ := names_of_subdirUnder proper given under
  obtain ⟨joined, spelled⟩ := joined_recorded proper parts resolved existing
  have accepted : ∀ path, resolveSubdir tree d.path subdir = .ok path ↔
      ∃ full, tree.resolve (render names) = some full ∧ tree.node full = some .dir ∧
        realBase <+: full ∧ path = render names := by
    intro path
    rw [resolveSubdir_eq_ok_iff resolved (trimmed.symm ▸ given), trimmed, joined, spelled]
    simp only [if_neg notRoot]
    exact and_iff_right relative
  constructor
  · rintro ⟨path, full, ok, -, recorded⟩
    obtain ⟨other, leads, directory, inside, -⟩ := (accepted path).mp ok
    exact ⟨other, leads, directory, inside⟩
  · rintro ⟨full, leads, directory, inside⟩
    exact ⟨render names, full, (accepted _).mpr ⟨full, leads, directory, inside, rfl⟩, leads, leads⟩

/-- No subdirectory: the picked directory is the recorded one up to slashes behind it. -/
theorem namesRecorded_nil {recorded : List Char} {d : Dir} {realBase : List (List Char)}
    (under : subdirUnder (stripSlashes recorded) d = some [])
    (resolved : tree.resolve d.path.text = some realBase) : NamesRecorded tree d [] recorded := by
  have same : components recorded = components d.path.text := by
    obtain ⟨same, -⟩ | ⟨-, joined⟩ := subdirUnder_eq_some.mp under
    · rw [← components_stripSlashes recorded, same, components_stripSlashes]
    · rw [← components_stripSlashes recorded, joined, components_append, components_stripSlashes]
      exact List.append_nil _
  refine ⟨d.path.text, realBase, ?_, resolved, ?_⟩
  · rw [resolveSubdir]
    exact if_pos rfl
  · rw [FileTree.resolve, same]
    exact resolved

/-- A launch that does not climb leads inside the directory that it was under. -/
theorem inside_of_level {names realBase : List (List Char)} {given subdir : List Char} {b : Dir}
    (launched : resolveSubdir tree b.path given = .ok (render names))
    (cleaned : names = cleanFrom (cleanFrom [] (components b.path.text))
      (components (trimSpace given)))
    (proper : ∀ name ∈ names, IsName name) (blank : trimSpace given ≠ [])
    (level : (climbOf (components (trimSpace given))).levels = 0)
    (parts : names = components b.path.text ++ components subdir)
    (resolved : tree.resolve b.path.text = some realBase)
    (existing : tree.node realBase = some .dir) :
    ∃ full, tree.resolve (render names) = some full ∧ tree.node full = some .dir ∧
      realBase <+: full := by
  obtain ⟨-, full, leads, directory, below, -⟩ :=
    (resolveSubdir_eq_ok_iff resolved blank).mp launched
  have base : cleanFrom [] (components b.path.text) = components b.path.text := by
    rw [cleanFrom_names [] fun name member => proper name (parts ▸ List.mem_append_left _ member),
      List.nil_append]
  -- Without climbing, the names that the launch descended through are those of the subdirectory.
  have descended : (climbOf (components (trimSpace given))).names = components subdir := by
    rw [base, cleanFrom_eq_climb, level, List.rdrop_zero] at cleaned
    exact List.append_cancel_left (cleaned.symm.trans parts)
  refine ⟨full, ?_, directory, inside_of_text below⟩
  rw [FileTree.joined_eq existing, level, descended, List.rdrop_zero] at leads
  rw [FileTree.resolve] at resolved ⊢
  rw [components_render proper, parts, FileTree.walk_append tree [] _ fun name member =>
    proper name (parts ▸ List.mem_append_right _ member), resolved, Option.bind_some, leads]

/-- For a recorded directory split into halves, the server accepts the halves and names the
recorded directory again exactly when there is no subdirectory or the recorded path leads to a
directory inside the real one of the prefix that was picked. Under the directory that it was
launched under, a launch that did not climb is always named again. -/
theorem splitUnderDir_agrees (tree : FileTree) (dirs : List Dir) (b d : Dir)
    (given recorded subdir : List Char) (id : Int) (realBase : List (List Char))
    (distinct : (dirs.map Dir.id).Nodup)
    (existing : ∀ dir ∈ dirs, tree.isDir dir.path.text = true)
    (configured : b ∈ dirs) (launched : resolveSubdir tree b.path given = .ok recorded)
    (split : splitUnderDir dirs recorded = some (id, subdir)) (picked : d ∈ dirs)
    (named : d.id = id) (trimmed : trimSpace subdir = subdir)
    (resolved : tree.resolve d.path.text = some realBase)
    (notRoot : realBase ≠ [] ∨ subdir = []) :
    (NamesRecorded tree d subdir recorded ↔ subdir = [] ∨
      ∃ full, tree.resolve recorded = some full ∧ tree.node full = some .dir ∧
        realBase <+: full) ∧
      (d = b → (climbOf (components (trimSpace given))).levels = 0 →
        NamesRecorded tree d subdir recorded) := by
  obtain ⟨⟨other, member, same, under⟩, least⟩ := splitUnderDir_spec split
  obtain rfl : other = d :=
    List.inj_on_of_nodup_map distinct member picked (same.trans named.symm)
  obtain ⟨final, found, directory⟩ := FileTree.exists_of_isDir (existing other picked)
  obtain rfl : final = realBase := Option.some.inj (found.symm.trans resolved)
  by_cases empty : subdir = []
  · subst empty
    have again := namesRecorded_nil under resolved
    exact ⟨iff_of_true again (Or.inl rfl), fun _ _ => again⟩
  · have root := notRoot.resolve_right empty
    obtain ⟨realLaunch, foundLaunch, -⟩ := FileTree.exists_of_isDir (existing b configured)
    obtain ⟨spelled, -⟩ | ⟨blank, names, proper, rfl, cleaned⟩ :=
      recorded_cases foundLaunch launched
    · have nothing := least b configured [] (subdirUnder_eq_some.mpr
        (Or.inl ⟨congrArg stripSlashes spelled, rfl⟩))
      exact absurd (List.length_eq_zero_iff.mp (Nat.le_zero.mp nothing)) empty
    · have again := namesRecorded_iff proper empty trimmed under resolved directory root
      refine ⟨by rw [again]; simp [empty], ?_⟩
      rintro rfl level
      have parts := (names_of_subdirUnder proper empty under).1
      exact again.mpr
        (inside_of_level launched cleaned proper blank level parts resolved directory)

/-- Directories in one another: a link in the inner one leads out of it, a name there starts with
white space, and a third one is a link to the root. -/
def nestedTree : FileTree :=
  .ofEntries
    [([['r']], .dir), ([['r'], ['a']], .dir), ([['r'], ['l']], .dir),
      ([['r'], ['a'], ['k']], .link ['/', 'r', '/', 'l']), ([['r'], ['a'], [' ', 'x']], .dir),
      ([['r'], ['u']], .link ['/'])] (by decide)

/-- A directory. -/
def outerDir : Dir := ⟨1, ['r'], ⟨['/', 'r'], rfl⟩⟩

/-- A directory inside it. -/
def innerDir : Dir := ⟨2, ['a'], ⟨['/', 'r', '/', 'a'], rfl⟩⟩

/-- A link out of it, as a directory. -/
def upDir : Dir := ⟨3, ['u'], ⟨['/', 'r', '/', 'u'], rfl⟩⟩

theorem nestedTree_dirs : ∀ dir ∈ [outerDir, innerDir, upDir],
    nestedTree.isDir dir.path.text = true := by
  have outer : nestedTree.isDir outerDir.path.text = true := rfl
  have inner : nestedTree.isDir innerDir.path.text = true := rfl
  have up : nestedTree.isDir upDir.path.text = true := rfl
  simp [outer, inner, up]

theorem splitUnderDir_agrees_outer :
    NamesRecorded nestedTree outerDir ['l'] ['/', 'r', '/', 'l'] := by
  have resolved : nestedTree.resolve outerDir.path.text = some [['r']] := rfl
  have launched : resolveSubdir nestedTree outerDir.path ['l'] = .ok ['/', 'r', '/', 'l'] :=
    (resolveSubdir_eq_ok_iff resolved (by decide)).mpr
      ⟨rfl, [['r'], ['l']], FileTree.walk_dir rfl, rfl, ⟨[['l']], rfl⟩, rfl⟩
  exact (splitUnderDir_agrees nestedTree [outerDir, innerDir, upDir] outerDir outerDir ['l']
    ['/', 'r', '/', 'l'] ['l'] 1 [['r']] (by decide) nestedTree_dirs (by simp) launched rfl
    (by simp) rfl rfl resolved (Or.inl (by simp))).2 rfl rfl

/-- What the inner directory refuses, as the link leads out of it and as its spelling is trimmed,
and what a link to the root refuses. -/
theorem splitUnderDir_refused :
    (resolveSubdir nestedTree outerDir.path ['a', '/', 'k'] = .ok ['/', 'r', '/', 'a', '/', 'k'] ∧
      splitUnderDir [outerDir, innerDir, upDir] ['/', 'r', '/', 'a', '/', 'k'] =
        some (innerDir.id, ['k']) ∧
      ¬ NamesRecorded nestedTree innerDir ['k'] ['/', 'r', '/', 'a', '/', 'k']) ∧
    (resolveSubdir nestedTree outerDir.path ['a', '/', ' ', 'x'] =
        .ok ['/', 'r', '/', 'a', '/', ' ', 'x'] ∧
      splitUnderDir [outerDir, innerDir, upDir] ['/', 'r', '/', 'a', '/', ' ', 'x'] =
        some (innerDir.id, [' ', 'x']) ∧
      ¬ NamesRecorded nestedTree innerDir [' ', 'x'] ['/', 'r', '/', 'a', '/', ' ', 'x']) ∧
    (resolveSubdir nestedTree outerDir.path ['u', '/', 'r'] = .ok ['/', 'r', '/', 'u', '/', 'r'] ∧
      splitUnderDir [outerDir, innerDir, upDir] ['/', 'r', '/', 'u', '/', 'r'] =
        some (upDir.id, ['r']) ∧
      ¬ NamesRecorded nestedTree upDir ['r'] ['/', 'r', '/', 'u', '/', 'r']) := by
  have outer : nestedTree.resolve outerDir.path.text = some [['r']] := rfl
  have inner : nestedTree.resolve innerDir.path.text = some [['r'], ['a']] := rfl
  have up : nestedTree.resolve upDir.path.text = some [] := rfl
  refine ⟨⟨?_, rfl, ?_⟩, ⟨?_, rfl, ?_⟩, ⟨?_, rfl, ?_⟩⟩
  · exact (resolveSubdir_eq_ok_iff outer (by decide)).mpr
      ⟨rfl, [['r'], ['l']], rfl, rfl, ⟨[['l']], rfl⟩, rfl⟩
  · rintro ⟨path, full, ok, -⟩
    obtain ⟨-, other, leads, -, inside, -⟩ :=
      (resolveSubdir_eq_ok_iff inner (by decide)).mp ok
    have link : nestedTree.joined [['r'], ['a']] (trimSpace ['k']) = some [['r'], ['l']] := rfl
    obtain rfl : [['r'], ['l']] = other := Option.some.inj (link.symm.trans leads)
    exact absurd inside (by decide)
  · exact (resolveSubdir_eq_ok_iff outer (by decide)).mpr
      ⟨rfl, [['r'], ['a'], [' ', 'x']], rfl, rfl, ⟨[['a'], [' ', 'x']], rfl⟩, rfl⟩
  · rintro ⟨path, full, ok, -⟩
    obtain ⟨-, other, leads, -⟩ := (resolveSubdir_eq_ok_iff inner (by decide)).mp ok
    have missing : nestedTree.joined [['r'], ['a']] (trimSpace [' ', 'x']) = none := rfl
    exact absurd (missing.symm.trans leads) (by simp)
  · exact (resolveSubdir_eq_ok_iff outer (by decide)).mpr
      ⟨rfl, [['r']], rfl, rfl, ⟨[], rfl⟩, rfl⟩
  · rintro ⟨path, full, ok, -⟩
    obtain ⟨-, other, leads, -, root, -⟩ := (resolveSubdir_eq_ok_iff up (by decide)).mp ok
    have below : nestedTree.joined [] (trimSpace ['r']) = some [['r']] := rfl
    obtain rfl : [['r']] = other := Option.some.inj (below.symm.trans leads)
    exact absurd root (by simp)

end Multimux
