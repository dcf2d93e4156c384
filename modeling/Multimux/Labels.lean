/-
This file follows the labels of the sessions. A rename trims its label and
checks it; a launch of a group labels each session with the program of its
command, the last segment of the first word, and checks nothing. White space
never gets into a label, but a program with a long name or with a control
character does: the labels are in order throughout a run exactly if no launch
labels a row with such a program.
-/

import Multimux.Announcements
import Multimux.OrderedRows

namespace Multimux

/-! ### Words of a text -/

section Words

variable {Letter : Type*} {gap : Letter → Bool} {text word : List Letter}

/-- The first longest piece of a text without a gap. -/
def FirstWord (gap : Letter → Bool) (text word : List Letter) : Prop :=
  ∃ before after, text = before ++ (word ++ after) ∧ (∀ letter ∈ before, gap letter = true) ∧
    word ≠ [] ∧ (∀ letter ∈ word, gap letter = false) ∧ ∀ letter ∈ after.head?, gap letter = true

/-- The last longest piece of a text without a gap. -/
def LastWord (gap : Letter → Bool) (text word : List Letter) : Prop :=
  FirstWord gap text.reverse word.reverse

theorem takeWhile_of_head? {kept : Letter → Bool} {text : List Letter}
    (stops : ∀ letter ∈ text.head?, kept letter = false) : text.takeWhile kept = [] := by
  cases text with
  | nil => rfl
  | cons letter rest => exact List.takeWhile_cons_of_neg (by simp [stops letter rfl])

theorem head?_dropWhile_not (dropped : Letter → Bool) (text : List Letter) :
    ∀ letter ∈ (text.dropWhile dropped).head?, dropped letter = false := by
  intro letter first
  have known := List.head?_dropWhile_not dropped text
  rw [Option.mem_def.mp first] at known
  simpa using known

theorem firstWord_iff : FirstWord gap text word ↔
    word ≠ [] ∧ (text.dropWhile gap).takeWhile (fun letter => !gap letter) = word := by
  constructor
  · rintro ⟨before, after, rfl, gaps, nonempty, letters, stops⟩
    refine ⟨nonempty, ?_⟩
    have dropped : (before ++ (word ++ after)).dropWhile gap = word ++ after := by
      rw [List.dropWhile_append_of_pos gaps]
      obtain ⟨first, more, rfl⟩ := List.exists_cons_of_ne_nil nonempty
      exact List.dropWhile_cons_of_neg (by simp [letters first])
    rw [dropped, List.takeWhile_append_of_pos (by simpa using letters),
      takeWhile_of_head? (by simpa using stops), List.append_nil]
  · rintro ⟨nonempty, rfl⟩
    refine ⟨text.takeWhile gap, (text.dropWhile gap).dropWhile fun letter => !gap letter, ?_,
      fun letter => List.mem_takeWhile_imp, nonempty, ?_, ?_⟩
    · rw [List.takeWhile_append_dropWhile, List.takeWhile_append_dropWhile]
    · intro letter member
      simpa using List.mem_takeWhile_imp member
    · intro letter first
      simpa using head?_dropWhile_not _ _ letter first

theorem lastWord_iff : LastWord gap text word ↔
    word ≠ [] ∧ (text.rdropWhile gap).rtakeWhile (fun letter => !gap letter) = word := by
  rw [LastWord, firstWord_iff, List.rtakeWhile, List.rdropWhile, List.reverse_reverse,
    List.reverse_eq_iff, Ne, List.reverse_eq_nil_iff]

theorem FirstWord.unique {other : List Letter} (first : FirstWord gap text word)
    (again : FirstWord gap text other) : word = other :=
  (firstWord_iff.mp first).2.symm.trans (firstWord_iff.mp again).2

theorem LastWord.unique {other : List Letter} (last : LastWord gap text word)
    (again : LastWord gap text other) : word = other :=
  List.reverse_injective (FirstWord.unique last again)

theorem FirstWord.mem (first : FirstWord gap text word) {letter : Letter} (member : letter ∈ word) :
    letter ∈ text ∧ gap letter = false := by
  obtain ⟨before, after, rfl, -, -, letters, -⟩ := first
  exact ⟨by simp [member], letters letter member⟩

/-- A text has a first word unless it is all gaps. -/
theorem exists_firstWord_iff : (∃ word, FirstWord gap text word) ↔ text.dropWhile gap ≠ [] := by
  constructor
  · rintro ⟨word, first⟩ empty
    obtain ⟨nonempty, whole⟩ := firstWord_iff.mp first
    rw [empty] at whole
    exact nonempty whole.symm
  · intro nonempty
    refine ⟨_, firstWord_iff.mpr ⟨?_, rfl⟩⟩
    intro empty
    obtain ⟨letter, rest, whole⟩ := List.exists_cons_of_ne_nil nonempty
    have kept := head?_dropWhile_not gap text letter (by simp [whole])
    simp [whole, kept] at empty

end Words

/-! ### What a label should be -/

/-- A label as a rename lets it through. -/
structure LabelFits (label : List Char) : Prop where
  leading : ∀ letter ∈ label.head?, isSpace letter = false
  trailing : ∀ letter ∈ label.getLast?, isSpace letter = false
  plain : ∀ letter ∈ label, isControl letter = false
  short : label.length ≤ maxSessionLabel

/-- Every label of the table fits. -/
def SessionTable.LabelsFit (table : SessionTable) : Prop :=
  ∀ row ∈ table.rows, LabelFits row.label

/-- The program that a command runs, the last segment of its first word, has a name without
control characters that is not longer than a label may be. -/
def ModestProgram (command : List Char) : Prop :=
  ∀ path name, FirstWord isSpace command path → LastWord (· = '/') path name →
    name.length ≤ maxSessionLabel ∧ ∀ letter ∈ name, isControl letter = false

theorem labelFits_nil : LabelFits [] where
  leading := by simp
  trailing := by simp
  plain := by simp
  short := by decide

theorem labelFits_slash : LabelFits ['/'] where
  leading := by simp [isSpace]
  trailing := by simp [isSpace]
  plain := by simp [isControl]
  short := by decide

/-- A label without white space inside fits if it is short and plain. -/
theorem labelFits_iff_of_no_space {label : List Char}
    (word : ∀ letter ∈ label, isSpace letter = false) :
    LabelFits label ↔
      label.length ≤ maxSessionLabel ∧ ∀ letter ∈ label, isControl letter = false := by
  constructor
  · intro fits
    exact ⟨fits.short, fits.plain⟩
  · rintro ⟨short, plain⟩
    exact ⟨fun letter first => word letter (List.mem_of_mem_head? first),
      fun letter last => word letter (List.mem_of_mem_getLast? last), plain, short⟩

theorem labelFits_trimSpace {label : List Char}
    (plain : (trimSpace label).any isControl = false)
    (short : (trimSpace label).length ≤ maxSessionLabel) : LabelFits (trimSpace label) where
  leading := by
    intro letter first
    obtain ⟨rest, whole⟩ := List.rdropWhile_prefix isSpace (label.dropWhile isSpace)
    refine head?_dropWhile_not isSpace label letter ?_
    rw [← whole]
    exact List.mem_head?_append_of_mem_head? first
  trailing := by
    intro letter last
    have nonempty : trimSpace label ≠ [] := by
      intro empty
      rw [empty] at last
      cases last
    have known := List.rdropWhile_last_not isSpace (label.dropWhile isSpace) nonempty
    rw [List.getLast?_eq_getLast_of_ne_nil nonempty] at last
    cases last
    exact Bool.eq_false_of_not_eq_true known
  plain := by simpa using plain
  short := short

theorem commandLabel_of_firstWord {command path : List Char}
    (first : FirstWord isSpace command path) : commandLabel command = basePath path := by
  obtain ⟨nonempty, whole⟩ := firstWord_iff.mp first
  have field : (command.dropWhile isSpace).takeWhile (fun letter => ¬ isSpace letter) = path := by
    simpa using whole
  simp only [commandLabel, field, if_neg nonempty]

theorem basePath_of_lastWord {path name : List Char} (last : LastWord (· = '/') path name) :
    basePath path = name := by
  obtain ⟨nonempty, whole⟩ := lastWord_iff.mp last
  have segment : (path.rdropWhile (· = '/')).rtakeWhile (· ≠ '/') = name := by
    simpa using whole
  have stripped : path.rdropWhile (· = '/') ≠ [] := by
    intro empty
    rw [empty] at segment
    exact nonempty segment.symm
  have present : path ≠ [] := by
    rintro rfl
    exact stripped rfl
  simp only [basePath, if_neg present, if_neg stripped, segment]

theorem basePath_of_slashes {path : List Char} (present : path ≠ [])
    (slashes : ¬ ∃ name, LastWord (· = '/') path name) : basePath path = ['/'] := by
  have stripped : path.rdropWhile (· = '/') = [] := by
    by_contra nonempty
    refine slashes ?_
    obtain ⟨word, first⟩ := exists_firstWord_iff.mpr (List.reverse_ne_nil_iff.mp nonempty)
    exact ⟨word.reverse, by rwa [LastWord, List.reverse_reverse]⟩
  simp only [basePath, if_neg present, stripped, if_true]

/-- The label that a launch derives from a command fits exactly if the program is modest. -/
theorem labelFits_commandLabel_iff {command : List Char} :
    LabelFits (commandLabel command) ↔ ModestProgram command := by
  by_cases runs : ∃ path, FirstWord isSpace command path
  · obtain ⟨path, first⟩ := runs
    rw [commandLabel_of_firstWord first]
    by_cases named : ∃ name, LastWord (· = '/') path name
    · obtain ⟨name, last⟩ := named
      rw [basePath_of_lastWord last, labelFits_iff_of_no_space]
      · constructor
        · intro modest otherPath otherName firstAgain lastAgain
          cases first.unique firstAgain
          cases last.unique lastAgain
          exact modest
        · intro modest
          exact modest path name first last
      · intro letter member
        have inside := (FirstWord.mem last (List.mem_reverse.mpr member)).1
        exact (first.mem (List.mem_reverse.mp inside)).2
    · -- The path is nothing but slashes.
      refine iff_of_true ?_ ?_
      · rw [basePath_of_slashes (firstWord_iff.mp first).1 named]
        exact labelFits_slash
      · intro other name firstAgain last
        cases first.unique firstAgain
        exact absurd ⟨name, last⟩ named
  · refine iff_of_true ?_ fun path _ first _ => absurd ⟨path, first⟩ runs
    have blank : command.dropWhile isSpace = [] := by
      rwa [exists_firstWord_iff, not_not] at runs
    simp only [commandLabel, blank, List.takeWhile_nil, if_true]
    exact labelFits_nil

/-! ### What the store calls do to the labels -/

section Tables

variable {table next : SessionTable}

theorem SessionTable.LabelsFit.createSession (fits : table.LabelsFit) (toolId now : Int)
    (dir : List Char) : (table.createSession toolId dir now).LabelsFit := by
  intro row member
  rcases List.mem_append.mp member with old | new
  · exact fits row old
  · cases List.mem_singleton.mp new
    exact labelFits_nil

theorem SessionTable.LabelsFit.deleteSession (fits : table.LabelsFit) (id : Nat) :
    (table.deleteSession id).LabelsFit :=
  fun row member => fits row (List.mem_filter.mp member).1

theorem SessionTable.LabelsFit.setSessionStatus (fits : table.LabelsFit) (id : Nat)
    (status : SessionStatus) : (table.setSessionStatus id status).LabelsFit := by
  intro _ member
  obtain ⟨row, present, rfl⟩ := List.mem_map.mp member
  have same := fits row present
  split <;> exact same

/-- A label that was written fits exactly if now all do. -/
theorem SessionTable.LabelsFit.setSessionLabel_iff (fits : table.LabelsFit) {id : Nat}
    {label : List Char} (written : table.setSessionLabel id label = some next) :
    next.LabelsFit ↔ LabelFits label := by
  unfold setSessionLabel at written
  split at written
  · rename_i found
    cases written
    obtain ⟨row, present, same⟩ := List.any_eq_true.mp found
    constructor
    · intro after
      have changed := after _ (List.mem_map_of_mem present)
      rwa [if_pos (of_decide_eq_true same)] at changed
    · intro label _ member
      obtain ⟨other, old, rfl⟩ := List.mem_map.mp member
      split
      · exact label
      · exact fits other old
  · cases written

theorem SessionTable.LabelsFit.relabel (fits : table.LabelsFit) {id : Int} {label : List Char}
    (written : table.relabel id label = some next) (checked : LabelFits label) :
    next.LabelsFit := by
  unfold SessionTable.relabel at written
  split at written
  · exact (fits.setSessionLabel_iff written).mpr checked
  · cases written

end Tables

/-! ### Steps -/

/-- Where a launch writes the label of a row, the program of its command is modest. -/
def CreateSession.LabelsModestly (table : SessionTable) : CreateSession → Outcome → Prop
  | .labelling _ command session, .ok =>
    (∃ row ∈ table.rows, row.id = session.id) → ModestProgram command
  | _, _ => True

/-- A launch labels with a modest program; no other request labels by a command. -/
def RowProc.LabelsModestly (table : SessionTable) : RowProc → Outcome → Prop
  | .handler (.create proc), outcome => proc.LabelsModestly table outcome
  | _, _ => True

/-- A rename that goes on to write has checked its label. -/
def RowProc.Checked : RowProc → Prop
  | .rename (.writing _ label) => LabelFits label
  | _ => True

theorem CreateSession.Writes.labelsFit {table next : SessionTable} {proc : CreateSession}
    {outcome : Outcome} (writes : proc.Writes table outcome next) (fits : table.LabelsFit)
    (other : ∀ launch command session, proc ≠ .labelling launch command session) :
    next.LabelsFit := by
  cases writes with
  | nothing => exact fits
  | inserts launch _ now => exact fits.createSession launch.toolID now launch.workdir
  | labels launch command session => exact absurd rfl (other launch command session)
  | skips _ _ session => exact fits.deleteSession session.id
  | drops _ session => exact fits.deleteSession session.id
  | deletes session => exact fits.deleteSession session.id

theorem handleCreateSession_labelsFit_iff {world next : SessionWorld}
    {proc after : CreateSession} {outcome : Outcome} (fits : world.table.LabelsFit)
    (stepped : handleCreateSession world proc outcome = some (next, after)) :
    next.table.LabelsFit ↔ proc.LabelsModestly world.table outcome := by
  by_cases labelling : ∃ launch command session, proc = .labelling launch command session
  · obtain ⟨launch, command, session, rfl⟩ := labelling
    cases outcome with
    | ok =>
      simp only [handleCreateSession] at stepped
      split at stepped <;> cases stepped
      · rename_i missing
        refine iff_of_true fits fun present => ?_
        simp only [SessionTable.setSessionLabel] at missing
        split at missing
        · cases missing
        · rename_i absent
          exact absurd (by simpa using present) absent
      · rename_i written
        have present : ∃ row ∈ world.table.rows, row.id = session.id := by
          unfold SessionTable.setSessionLabel at written
          split at written
          · rename_i found
            simpa using found
          · cases written
        rw [fits.setSessionLabel_iff written, labelFits_commandLabel_iff]
        exact ⟨fun modest _ => modest, fun modest => modest present⟩
    | fails error =>
      cases stepped
      exact iff_of_true fits trivial
  · simp only [not_exists] at labelling
    refine iff_of_true ((handleCreateSession_writes stepped).labelsFit fits labelling) ?_
    cases proc with
    | labelling launch command session => exact absurd rfl (labelling launch command session)
    | _ => trivial

theorem SessionProc.Does.labelsFit {world next : SessionWorld} {proc after : SessionProc}
    (does : SessionProc.Does world proc after next) (fits : world.table.LabelsFit) :
    next.table.LabelsFit := by
  cases does with
  | idles _ table => exact table ▸ fits
  | marks session => exact fits.setSessionStatus session.id .dead
  | deletes session => exact fits.deleteSession session.id
  | announces => exact fits

theorem enterRow_checked (request : RowRequest) : (enterRow request).Checked := by
  cases request with
  | handler => trivial
  | list => trivial
  | rename id label =>
    cases id with
    | none => trivial
    | some id =>
      cases label with
      | none => trivial
      | some label =>
        simp only [enterRow, enterRename]
        split
        · trivial
        · rename_i plain
          split
          · trivial
          · rename_i short
            exact labelFits_trimSpace (Bool.eq_false_of_not_eq_true plain) (Nat.le_of_not_lt short)

/-- A rename leaves the table or writes its label, and never writes twice. -/
theorem handleRenameSession_writes {world next : RowWorld} {proc after : RenameSession}
    {outcome : Outcome} (stepped : handleRenameSession world proc outcome = some (next, after)) :
    (next.base.table = world.base.table ∨ ∃ id label, proc = .writing id label ∧
        world.base.table.relabel id label = some next.base.table) ∧
      ∀ id label, after ≠ .writing id label := by
  cases proc with
  | writing id label =>
    cases outcome with
    | ok =>
      simp only [handleRenameSession] at stepped
      split at stepped <;> cases stepped
      · exact ⟨.inl rfl, by simp⟩
      · rename_i written
        exact ⟨.inr ⟨id, label, rfl, written⟩, by simp⟩
    | fails error =>
      cases stepped
      exact ⟨.inl rfl, by simp⟩
  | reading id =>
    cases outcome with
    | ok =>
      simp only [handleRenameSession] at stepped
      split at stepped <;> cases stepped <;> exact ⟨.inl rfl, by simp⟩
    | fails error =>
      cases stepped
      exact ⟨.inl rfl, by simp⟩
  | announcing session =>
    cases stepped
    exact ⟨.inl rfl, by simp⟩
  | answered response => cases stepped

theorem serveRow_checked {world next : RowWorld} {proc after : RowProc} {outcome : Outcome}
    (stepped : serveRow world proc outcome = some (next, after)) : after.Checked := by
  cases proc with
  | handler proc =>
    obtain ⟨_, -, same⟩ := Option.map_eq_some_iff.mp stepped
    cases same
    trivial
  | list proc =>
    obtain ⟨_, -, same⟩ := Option.map_eq_some_iff.mp stepped
    cases same
    trivial
  | rename proc =>
    obtain ⟨⟨_, place⟩, renamed, same⟩ := Option.map_eq_some_iff.mp stepped
    cases same
    have done := (handleRenameSession_writes renamed).2
    cases place with
    | writing id label => exact absurd rfl (done id label)
    | _ => trivial

/-- A step leaves all labels in order exactly if it is not a launch that writes the name of a
program that is not modest. -/
theorem serveRow_labelsFit_iff {world next : RowWorld} {proc after : RowProc} {outcome : Outcome}
    (fits : world.base.table.LabelsFit) (checked : proc.Checked)
    (stepped : serveRow world proc outcome = some (next, after)) :
    next.base.table.LabelsFit ↔ proc.LabelsModestly world.base.table outcome := by
  cases proc with
  | list proc =>
    obtain ⟨⟨listed, place⟩, served, same⟩ := Option.map_eq_some_iff.mp stepped
    cases same
    cases proc with
    | reading => cases outcome <;> cases served <;> exact iff_of_true fits trivial
    | answered => cases served
  | handler proc =>
    obtain ⟨⟨base, place⟩, served, same⟩ := Option.map_eq_some_iff.mp stepped
    cases same
    rcases serveSession_does served with ⟨create, _, rfl, rfl, done⟩ | ⟨other, does⟩
    · exact handleCreateSession_labelsFit_iff fits done
    · refine iff_of_true (does.labelsFit fits) ?_
      cases proc with
      | create create => exact absurd rfl (other create)
      | _ => trivial
  | rename proc =>
    obtain ⟨⟨renamed, place⟩, served, same⟩ := Option.map_eq_some_iff.mp stepped
    cases same
    refine iff_of_true ?_ trivial
    rcases (handleRenameSession_writes served).1 with kept | ⟨id, label, rfl, written⟩
    · exact kept ▸ fits
    · exact fits.relabel written checked

/-! ### The machine -/

/-- What `handleCreateTool` and `handleUpdateTool` ask of a tool, a name and a command. -/
def ToolCall.accepted : ToolCall → Bool
  | .create name command => name ≠ [] ∧ command ≠ []
  | .update tool => tool.name ≠ [] ∧ tool.command ≠ []
  | .delete _ | .reorder _ => true

/-- The world of the session handlers and the table that they read the tools from. -/
structure LabelWorld where
  rows : RowWorld
  tools : OrderedTable Tool

/-- The world with another table of tools. -/
def LabelWorld.store (world : LabelWorld) (tools : OrderedTable Tool) : LabelWorld where
  rows := { world.rows with base := { world.rows.base with tools := listTools tools } }
  tools

/-- What happens besides the requests on sessions: a request on the tools, too. -/
inductive LabelOutside
  | session (event : SessionOutside)
  | tools (call : ToolCall)

/-- What happens besides the requests on sessions. -/
def occurLabel (world : LabelWorld) : LabelOutside → Option LabelWorld
  | .session event => (occurSession world.rows.base event).map fun base =>
      { world with rows := { world.rows with base } }
  | .tools call => if call.accepted then some (world.store (call.perform world.tools)) else none

/-- Concurrent requests on sessions, under requests that change the tools. -/
def labelMachine : Machine LabelWorld RowRequest RowProc Outcome LabelOutside where
  enter := enterRow
  step world proc outcome := (serveRow world.rows proc outcome).map
    (Prod.map (fun rows => { world with rows }) id)
  outside := occurLabel

/-- A world before any request, with a table of tools. -/
def SessionWorld.withTools (world : SessionWorld) (tools : OrderedTable Tool) :
    Pool LabelWorld RowProc where
  world := LabelWorld.store ⟨{ base := world, log := [] }, tools⟩ tools
  procs := []

/-- Every stored label fits. -/
def LabelsInOrder (pool : Pool LabelWorld RowProc) : Prop :=
  pool.world.rows.base.table.LabelsFit

/-- The move is not a launch that labels a row with a program that is not modest. -/
def LabelsModestly (pool : Pool LabelWorld RowProc) :
    Move RowRequest Outcome LabelOutside → Prop
  | .advance index outcome => ∀ proc, pool.procs[index]? = some proc →
      proc.LabelsModestly pool.world.rows.base.table outcome
  | _ => True

/-- The renames of every run write labels that they have checked. -/
theorem checked_run {start : Pool LabelWorld RowProc} (quiet : start.procs = [])
    {moves : List (Move RowRequest Outcome LabelOutside)} {final : Pool LabelWorld RowProc}
    (run : Run labelMachine.next anything start moves final) :
    ∀ proc ∈ final.procs, proc.Checked := by
  refine run.invariant (fun pool => ∀ proc ∈ pool.procs, proc.Checked) (by simp [quiet]) ?_
  intro pool move next checked _ taken
  cases move with
  | arrive request =>
    cases taken
    intro proc member
    rcases List.mem_append.mp member with old | new
    · exact checked proc old
    · cases List.mem_singleton.mp new
      exact enterRow_checked request
  | advance index outcome =>
    obtain ⟨proc, world, after, -, stepped, rfl⟩ := Machine.next_advance taken
    obtain ⟨⟨rows, place⟩, served, same⟩ := Option.map_eq_some_iff.mp stepped
    cases same
    intro other member
    rcases List.mem_or_eq_of_mem_set member with old | rfl
    · exact checked other old
    · exact serveRow_checked served
  | occur event =>
    obtain ⟨world, -, rfl⟩ := Machine.next_occur taken
    exact checked

theorem occurLabel_table {world next : LabelWorld} {event : LabelOutside}
    (occurred : occurLabel world event = some next) :
    next.rows.base.table = world.rows.base.table := by
  cases event with
  | tools call =>
    simp only [occurLabel] at occurred
    split at occurred <;> cases occurred
    rfl
  | session event =>
    obtain ⟨base, happened, rfl⟩ := Option.map_eq_some_iff.mp occurred
    exact occurSession_table happened

/-- From labels in order on, all labels stay in order exactly if no launch labels a row with a
program that is not modest. -/
theorem labels_in_order_iff (start : SessionWorld) (tools : OrderedTable Tool)
    (fits : start.table.LabelsFit) {moves : List (Move RowRequest Outcome LabelOutside)}
    {final : Pool LabelWorld RowProc}
    (run : Run labelMachine.next anything (start.withTools tools) moves final) :
    (∀ before after reached, moves = before ++ after →
        Run labelMachine.next anything (start.withTools tools) before reached →
        LabelsInOrder reached) ↔
      (∀ before move after reached, moves = before ++ move :: after →
        Run labelMachine.next anything (start.withTools tools) before reached →
        LabelsModestly reached move) := by
  refine run.throughout_iff LabelsInOrder LabelsModestly fits ?_
  intro before pool move next reached inOrder taken
  cases move with
  | arrive request =>
    cases taken
    exact iff_of_true inOrder trivial
  | advance index outcome =>
    obtain ⟨proc, world, after, present, stepped, rfl⟩ := Machine.next_advance taken
    obtain ⟨⟨rows, place⟩, served, same⟩ := Option.map_eq_some_iff.mp stepped
    cases same
    have checked := checked_run rfl reached proc (List.mem_of_getElem? present)
    refine (serveRow_labelsFit_iff inOrder checked served).trans ?_
    constructor
    · intro modest other presentOther
      cases present.symm.trans presentOther
      exact modest
    · intro modest
      exact modest proc present
  | occur event =>
    obtain ⟨world, occurred, rfl⟩ := Machine.next_occur taken
    refine iff_of_true ?_ trivial
    show world.rows.base.table.LabelsFit
    rw [occurLabel_table occurred]
    exact inOrder

theorem withTools_single (start : SessionWorld) (tool : OrderedRow Tool) (seq : Int) :
    start.withTools ⟨[tool], seq⟩ =
      { world := ⟨{ base := { start with tools := [tool.entry] }, log := [] }, ⟨[tool], seq⟩⟩,
        procs := [] } := by
  simp [SessionWorld.withTools, LabelWorld.store, listTools, listOrdered]

/-- A launch, up to the label of its first session. -/
def launchToLabel : List (Move RowRequest Outcome LabelOutside) :=
  [.arrive (.handler (.create (some ⟨1, 1, []⟩))), .advance 0 .ok, .advance 0 .ok, .advance 0 .ok,
    .advance 0 .ok, .advance 0 .ok, .advance 0 .ok]

/-- A table with one tool. -/
def oneTool (command : List Char) : OrderedTable Tool :=
  ⟨[⟨⟨1, "agents".toList, command⟩, 1⟩], 1⟩

/-- The first program of that group is modest. -/
theorem modest_shell : ModestProgram "sh -l".toList := by
  intro path name first last
  obtain ⟨-, rfl⟩ := firstWord_iff.mp first
  obtain ⟨-, named⟩ := lastWord_iff.mp last
  have short : name = ['s', 'h'] := named.symm.trans (by decide)
  rw [short]
  exact ⟨by decide, by simp [isControl]⟩

theorem group_labelled : ∃ final,
    Run labelMachine.next LabelsModestly (idleWorld.withTools (oneTool "sh -l ;; top".toList))
      launchToLabel final ∧
    final.world.rows.base.table.rows.map SessionRow.label = ["sh".toList] := by
  rw [oneTool, withTools_single]
  have unlabelled : ∀ pool : Pool LabelWorld RowProc, ∀ proc, pool.procs[0]? = some proc →
      proc.LabelsModestly pool.world.rows.base.table .ok → LabelsModestly pool (.advance 0 .ok) :=
    fun _ _ there modest _ found => Option.some.inj (there.symm.trans found) ▸ modest
  refine ⟨_, Run.of_exec rfl ⟨trivial, ?_, ?_, ?_, ?_, ?_, ?_, trivial⟩, by decide⟩
  · exact unlabelled _ _ rfl trivial
  · exact unlabelled _ _ rfl trivial
  · exact unlabelled _ _ rfl trivial
  · exact unlabelled _ _ rfl trivial
  · exact unlabelled _ _ rfl trivial
  · exact unlabelled _ _ rfl fun _ => modest_shell

theorem group_label_in_order : ∃ final,
    Run labelMachine.next anything (idleWorld.withTools (oneTool "sh -l ;; top".toList))
      launchToLabel final ∧
    final.world.rows.base.table.rows.map SessionRow.label = ["sh".toList] ∧
    ∀ before after reached, launchToLabel = before ++ after →
      Run labelMachine.next anything (idleWorld.withTools (oneTool "sh -l ;; top".toList)) before
        reached → LabelsInOrder reached := by
  obtain ⟨final, run, label⟩ := group_labelled
  refine ⟨final, run.unrestricted, label, (labels_in_order_iff idleWorld
    (oneTool "sh -l ;; top".toList) nofun run.unrestricted).mpr ?_⟩
  intro before move after reached spelled upTo
  exact (spelled ▸ run).permitted upTo

/-- The command of a group whose first program has a name of 65 letters. -/
def longCommand : List Char := List.replicate 65 'a' ++ " ;; top".toList

/-- A tool is created with the command, and launched. -/
theorem long_label_written :
    ¬ ∀ (start : SessionWorld) (tools : OrderedTable Tool)
        (moves : List (Move RowRequest Outcome LabelOutside)) (final : Pool LabelWorld RowProc),
        start.table.LabelsFit →
        Run labelMachine.next anything (start.withTools tools) moves final →
        LabelsInOrder final := by
  intro always
  have created : Run labelMachine.next anything (idleWorld.withTools emptyTable)
      ([] ++ [.occur (.tools (.create "agents".toList longCommand))])
      (idleWorld.withTools (oneTool longCommand)) :=
    Run.nil.snoc trivial rfl
  obtain ⟨final, launched, long⟩ : ∃ final,
      Run labelMachine.next anything (idleWorld.withTools (oneTool longCommand)) launchToLabel
        final ∧ (final.world.rows.base.table.rows.any fun row => 64 < row.label.length) = true := by
    rw [oneTool, withTools_single]
    exact ⟨_, Run.of_exec_anything rfl, by decide⟩
  obtain ⟨row, member, longer⟩ := List.any_eq_true.mp long
  have fits := always idleWorld emptyTable _ final nofun (created.append launched) row member
  exact absurd fits.short (Nat.not_le_of_lt (of_decide_eq_true longer))

end Multimux
