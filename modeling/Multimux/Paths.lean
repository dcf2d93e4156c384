/-
This file is the library of rooted paths. A path is text, its components are
the names between its slashes, and cleaning a path applies `.` and `..` to the
names alone, without a look at any file. What a cleaned path with a relative
tail comes to is told by how far the tail climbs and the names it then
descends; that one rendered path lies below another is a prefix of names.
-/

import Mathlib.Data.List.DropRight
import Mathlib.Data.List.Induction

namespace Multimux

/-! ### Components -/

/-- The component that stays where it is. -/
def dot : List Char := ['.']

/-- The component that goes up. -/
def dotdot : List Char := ['.', '.']

/-- A name that a directory can have an entry under. -/
structure IsName (name : List Char) : Prop where
  nonempty : name ≠ []
  noSlash : '/' ∉ name
  notDot : name ≠ dot
  notDotdot : name ≠ dotdot

instance IsName.decidable (name : List Char) : Decidable (IsName name) :=
  decidable_of_iff (name ≠ [] ∧ '/' ∉ name ∧ name ≠ dot ∧ name ≠ dotdot)
    ⟨fun ⟨nonempty, noSlash, notDot, notDotdot⟩ => ⟨nonempty, noSlash, notDot, notDotdot⟩,
      fun proper => ⟨proper.nonempty, proper.noSlash, proper.notDot, proper.notDotdot⟩⟩

/-- The components of a path; slashes in a row and at the end separate nothing. -/
def components (path : List Char) : List (List Char) :=
  (path.splitOn '/').filter (· ≠ [])

/-- The path starts at the root. -/
def rooted (path : List Char) : Bool := path.head? = some '/'

/-- The rooted path of some names. -/
def render (names : List (List Char)) : List Char :=
  if names = [] then ['/'] else names.flatMap ('/' :: ·)

theorem components_append (path tail : List Char) :
    components (path ++ '/' :: tail) = components path ++ components tail := by
  unfold components
  rw [List.splitOn_append_cons_self, List.filter_append]

theorem components_slash (tail : List Char) : components ('/' :: tail) = components tail :=
  components_append [] tail

theorem components_name {name : List Char} (proper : IsName name) : components name = [name] := by
  unfold components
  rw [List.splitOn_eq_singleton proper.noSlash]
  simp [proper.nonempty]

theorem noSlash_of_mem_splitOn {path name : List Char} (member : name ∈ path.splitOn '/') :
    '/' ∉ name := by
  induction path generalizing name with
  | nil =>
    cases List.mem_singleton.mp member
    exact List.not_mem_nil
  | cons letter rest inductionHypothesis =>
    rw [List.splitOn_cons_eq_if_modifyHead] at member
    split at member
    · rcases List.mem_cons.mp member with rfl | later
      · exact List.not_mem_nil
      · exact inductionHypothesis later
    · rename_i other
      cases split : rest.splitOn '/' with
      | nil => exact absurd split (List.splitOn_ne_nil _ _)
      | cons first more =>
        rw [split, List.modifyHead_cons] at member
        rcases List.mem_cons.mp member with rfl | later
        · rw [List.mem_cons, not_or]
          refine ⟨fun same => other (beq_iff_eq.mpr same.symm), ?_⟩
          exact inductionHypothesis (split ▸ List.mem_cons_self)
        · exact inductionHypothesis (split ▸ List.mem_cons_of_mem first later)

theorem mem_components {path name : List Char} (member : name ∈ components path) :
    name ≠ [] ∧ '/' ∉ name := by
  obtain ⟨split, nonempty⟩ := List.mem_filter.mp member
  exact ⟨by simpa using nonempty, noSlash_of_mem_splitOn split⟩

theorem components_flatMap {names : List (List Char)} (proper : ∀ name ∈ names, IsName name) :
    components (names.flatMap ('/' :: ·)) = names := by
  induction names with
  | nil => rfl
  | cons name rest inductionHypothesis =>
    have here := components_name (proper name List.mem_cons_self)
    have later := inductionHypothesis fun other member =>
      proper other (List.mem_cons_of_mem _ member)
    rw [List.flatMap_cons, List.cons_append, components_slash]
    cases rest with
    | nil => rwa [List.flatMap_nil, List.append_nil]
    | cons next more =>
      rw [List.flatMap_cons, List.cons_append, components_slash] at later
      rw [List.flatMap_cons, List.cons_append, components_append, here, later]
      rfl

@[simp]
theorem components_render {names : List (List Char)} (proper : ∀ name ∈ names, IsName name) :
    components (render names) = names := by
  unfold render
  split
  · rename_i none
    rw [none]
    rfl
  · exact components_flatMap proper

/-- Of two rendered paths the one goes on below the other exactly when its names do; below the
root, whose text is a slash already, a second slash follows in neither. -/
theorem render_below_iff {base full : List (List Char)} (properBase : ∀ name ∈ base, IsName name)
    (properFull : ∀ name ∈ full, IsName name) :
    (render full = render base ∨ render base ++ ['/'] <+: render full) ↔
      if base = [] then full = [] else base <+: full := by
  split
  · rename_i root
    subst root
    constructor
    · rintro (same | ⟨tail, below⟩)
      · have names := congrArg components same
        rwa [components_render properFull, components_render properBase] at names
      · cases full with
        | nil => cases below
        | cons name rest =>
          rw [render, render, if_pos rfl, if_neg (List.cons_ne_nil _ _), List.flatMap_cons] at below
          have proper := properFull name List.mem_cons_self
          cases name with
          | nil => exact absurd rfl proper.nonempty
          | cons letter letters =>
            simp only [List.cons_append, List.nil_append, List.cons.injEq, true_and] at below
            exact absurd (below.1 ▸ List.mem_cons_self) proper.noSlash
    · rintro rfl
      exact .inl rfl
  · rename_i below
    constructor
    · rintro (same | ⟨tail, further⟩)
      · have names := congrArg components same
        rw [components_render properFull, components_render properBase] at names
        exact ⟨[], by rw [List.append_nil, names]⟩
      · have names := congrArg components further
        rw [List.append_assoc, List.singleton_append, components_append,
          components_render properBase, components_render properFull] at names
        exact ⟨components tail, names⟩
    · rintro ⟨rest, rfl⟩
      cases rest with
      | nil =>
        rw [List.append_nil]
        exact .inl rfl
      | cons name more =>
        refine .inr ⟨name ++ more.flatMap ('/' :: ·), ?_⟩
        rw [render, render, if_neg below, if_neg (by simp), List.flatMap_append, List.flatMap_cons]
        simp

/-! ### Cleaning -/

/-- One component applied to the names so far; the root has itself for a parent. -/
def cleanStep (names : List (List Char)) (component : List Char) : List (List Char) :=
  if component = dot then names
  else if component = dotdot then names.dropLast
  else names ++ [component]

/-- The names that components lead to from some names, lexically. -/
def cleanFrom (names : List (List Char)) (todo : List (List Char)) : List (List Char) :=
  todo.foldl cleanStep names

/-- `Clean` of a rooted path. -/
def cleanPath (path : List Char) : List Char := render (cleanFrom [] (components path))

/-- One component applied to the names so far of a path that is not rooted; it may climb above
where it starts. -/
def cleanRelativeStep (names : List (List Char)) (component : List Char) : List (List Char) :=
  if component = dot then names
  else if component = dotdot ∧ names.getLast?.getD dotdot ≠ dotdot then names.dropLast
  else names ++ [component]

/-- `Clean` of any path. -/
def cleanAnyPath (path : List Char) : List Char :=
  if rooted path then cleanPath path
  else
    let names := (components path).foldl cleanRelativeStep []
    if names = [] then dot else ['/'].intercalate names

/-- `Join` of a rooted path and a relative tail. -/
def joinPath (path tail : List Char) : List Char := cleanPath (path ++ '/' :: tail)

theorem cleanFrom_append (names first second : List (List Char)) :
    cleanFrom names (first ++ second) = cleanFrom (cleanFrom names first) second :=
  List.foldl_append

/-- Cleaning keeps names names. -/
theorem isName_cleanFrom {names todo : List (List Char)} (proper : ∀ name ∈ names, IsName name)
    (split : ∀ component ∈ todo, component ≠ [] ∧ '/' ∉ component) :
    ∀ name ∈ cleanFrom names todo, IsName name := by
  induction todo generalizing names with
  | nil => exact proper
  | cons component rest inductionHypothesis =>
    refine inductionHypothesis ?_ fun other member => split other (List.mem_cons_of_mem _ member)
    unfold cleanStep
    split_ifs with here up
    · exact proper
    · exact fun name member => proper name ((List.dropLast_sublist _).subset member)
    · intro name member
      rcases List.mem_append.mp member with old | new
      · exact proper name old
      · cases List.mem_singleton.mp new
        obtain ⟨nonempty, noSlash⟩ := split component List.mem_cons_self
        exact ⟨nonempty, noSlash, here, up⟩

/-- Names clean to themselves. -/
theorem cleanFrom_names {names : List (List Char)} (start : List (List Char))
    (proper : ∀ name ∈ names, IsName name) : cleanFrom start names = start ++ names := by
  induction names generalizing start with
  | nil => rw [List.append_nil]; rfl
  | cons name rest inductionHypothesis =>
    have here := proper name List.mem_cons_self
    have step : cleanStep start name = start ++ [name] := by
      rw [cleanStep, if_neg here.notDot, if_neg here.notDotdot]
    have later := inductionHypothesis (start ++ [name]) fun other member =>
      proper other (List.mem_cons_of_mem _ member)
    rw [List.append_assoc, List.singleton_append] at later
    rw [← later, ← step]
    rfl

/-- The names of a cleaned path that continues a rendered one. -/
theorem components_joinPath (path tail : List Char) :
    components (joinPath path tail) =
      cleanFrom (cleanFrom [] (components path)) (components tail) := by
  unfold joinPath cleanPath
  rw [components_append, cleanFrom_append]
  refine components_render (isName_cleanFrom (isName_cleanFrom nofun ?_) ?_) <;>
    exact fun _ => mem_components

theorem cleanPath_joinPath (path tail : List Char) :
    cleanPath (joinPath path tail) = joinPath path tail := by
  have names : cleanFrom [] (components (joinPath path tail)) =
      components (joinPath path tail) := by
    rw [components_joinPath]
    refine (cleanFrom_names [] ?_).trans (List.nil_append _)
    refine isName_cleanFrom (isName_cleanFrom nofun ?_) ?_ <;> exact fun _ => mem_components
  conv_lhs => rw [cleanPath, names, components_joinPath]
  rw [joinPath, cleanPath, components_append, cleanFrom_append]

/-! ### Climbing and descending -/

/-- What a relative path comes to wherever it is applied: how many levels it climbs, and the
names it descends from there. -/
structure Climb where
  levels : Nat
  names : List (List Char)

/-- One component more: `..` takes the last name back, or goes a level up. -/
def Climb.step (climb : Climb) (component : List Char) : Climb :=
  if component = dot then climb
  else if component = dotdot then
    if climb.names = [] then { climb with levels := climb.levels + 1 }
    else { climb with names := climb.names.dropLast }
  else { climb with names := climb.names ++ [component] }

/-- Where the components lead. -/
def climbOf (todo : List (List Char)) : Climb := todo.foldl Climb.step ⟨0, []⟩

/-- Applying components climbs and then descends. -/
theorem cleanFrom_eq_climb (start todo : List (List Char)) :
    cleanFrom start todo = start.rdrop (climbOf todo).levels ++ (climbOf todo).names := by
  have step : ∀ (climb : Climb) (component : List Char),
      cleanStep (start.rdrop climb.levels ++ climb.names) component =
        start.rdrop (climb.step component).levels ++ (climb.step component).names := by
    intro climb component
    unfold cleanStep Climb.step
    split_ifs with here up bottom
    · rfl
    · rw [bottom, List.append_nil, List.append_nil, List.dropLast_eq_take, List.rdrop, List.rdrop,
        List.take_take, List.length_take]
      congr 1
      dsimp only
      omega
    · rw [List.dropLast_append_of_ne_nil bottom]
    · rw [List.append_assoc]
  have all : ∀ climb : Climb, todo.foldl cleanStep (start.rdrop climb.levels ++ climb.names) =
      start.rdrop (todo.foldl Climb.step climb).levels ++ (todo.foldl Climb.step climb).names := by
    induction todo with
    | nil => exact fun _ => rfl
    | cons component rest inductionHypothesis =>
      intro climb
      rw [List.foldl_cons, List.foldl_cons, step]
      exact inductionHypothesis (climb.step component)
  have whole := all ⟨0, []⟩
  rwa [List.rdrop_zero, List.append_nil] at whole

theorem isName_climbOf {todo : List (List Char)}
    (split : ∀ component ∈ todo, component ≠ [] ∧ '/' ∉ component) :
    ∀ name ∈ (climbOf todo).names, IsName name := by
  have cleaned := @isName_cleanFrom [] todo nofun split
  rw [cleanFrom_eq_climb] at cleaned
  exact fun name member => cleaned name (List.mem_append_right _ member)

/-- Names descend. -/
theorem climbOf_names {names : List (List Char)} (proper : ∀ name ∈ names, IsName name) :
    climbOf names = ⟨0, names⟩ := by
  have descend : ∀ climb : Climb, names.foldl Climb.step climb =
      ⟨climb.levels, climb.names ++ names⟩ := by
    induction names with
    | nil => exact fun climb => by rw [List.append_nil]; rfl
    | cons name rest inductionHypothesis =>
      intro climb
      have plain := proper name List.mem_cons_self
      have step : climb.step name = ⟨climb.levels, climb.names ++ [name]⟩ := by
        rw [Climb.step, if_neg plain.notDot, if_neg plain.notDotdot]
      have onward := inductionHypothesis fun other member =>
        proper other (List.mem_cons_of_mem name member)
      rw [List.foldl_cons, onward, step, List.append_assoc, List.singleton_append]
  rw [climbOf, descend, List.nil_append]

end Multimux
