/-
This file models what the session handlers work on: the sessions table, the
tools and directories a launch names, and the commands of a tool group. A
session's tmux name derives from its id, and ids only grow; sessions and the
table carry these facts. What each store call does to the running rows is told
beside it.
-/

import Multimux.Clock
import Multimux.Subdir
import Mathlib.Data.List.Nodup

namespace Multimux

/-- Texts compare lawfully; the instance has a name so that all definitions below share it. -/
instance lawfulText : LawfulBEq (List Char) := inferInstance

/-! ### Tools and commands -/

/-- A tool as the store has it. -/
structure Tool where
  id : Int
  name : List Char
  command : List Char

/-- A directory as the store has it. -/
structure Dir where
  id : Int
  name : List Char
  path : RootedPath

/-- The segments between separators; `\;;` stands for a separator that does not separate. -/
def commandSegments (current : List Char) : List Char → List (List Char)
  | '\\' :: ';' :: ';' :: rest => commandSegments (current ++ [';', ';']) rest
  | ';' :: ';' :: rest => trimSpace current :: commandSegments [] rest
  | letter :: rest => commandSegments (current ++ [letter]) rest
  | [] => [trimSpace current]

/-- The commands of a tool's group; a command that is blank all the way through stays one empty
segment. -/
def splitCommand (command : List Char) : List (List Char) :=
  let kept := (commandSegments [] command).filter (· ≠ [])
  if kept = [] then [[]] else kept

/-- `filepath.Base`. -/
def basePath (path : List Char) : List Char :=
  if path = [] then dot
  else
    let stripped := path.rdropWhile (· = '/')
    if stripped = [] then ['/'] else stripped.rtakeWhile (· ≠ '/')

/-- The program a command runs, the first of its `strings.Fields`. -/
def commandLabel (command : List Char) : List Char :=
  let field := (command.dropWhile isSpace).takeWhile fun letter => ¬ isSpace letter
  if field = [] then [] else basePath field

/-! ### Sessions -/

/-- The column `status`. -/
inductive SessionStatus
  | running
  | dead
  deriving DecidableEq

/-- The tmux name that derives from a row id, `mm-%d`. -/
def tmuxNameOf (id : Nat) : List Char := ['m', 'm', '-'] ++ Nat.toDigits 10 id

theorem tmuxNameOf_injective : Function.Injective tmuxNameOf := by
  intro one other same
  have digits := List.append_cancel_left same
  have values := congrArg (Nat.ofDigitChars 10 · 0) digits
  simpa only [Nat.ofDigitChars_ten_toDigits] using values

/-- A session as the handlers hold it. -/
structure Session where
  id : Nat
  tmuxName : List Char
  toolId : Int
  dir : List Char
  status : SessionStatus
  createdAt : Int
  label : List Char
  named : tmuxName = tmuxNameOf id
  deriving DecidableEq

/-- A row of `sessions`, whose instant is a column of text. -/
structure SessionRow where
  id : Nat
  tmuxName : List Char
  toolId : Int
  dir : List Char
  status : SessionStatus
  createdAt : Rfc3339
  label : List Char
  named : tmuxName = tmuxNameOf id
  deriving DecidableEq

/-- A row as it is read: its time is parsed. -/
def scanSession (row : SessionRow) : Session := { row with createdAt := row.createdAt.parse }

/-! ### The table -/

/-- The table `sessions`. No id was ever issued above `seq`, and rows stand in the order of
their ids. -/
structure SessionTable where
  rows : List SessionRow
  seq : Nat
  issued : ∀ row ∈ rows, row.id ≤ seq
  ordered : rows.Pairwise fun one other => one.id < other.id

/-- The session that `CreateSession` returns, with the instant still in full. -/
def SessionTable.inserted (table : SessionTable) (toolId : Int) (dir : List Char) (now : Int) :
    Session where
  id := table.seq + 1
  tmuxName := tmuxNameOf (table.seq + 1)
  toolId
  dir
  status := .running
  createdAt := now
  label := []
  named := rfl

/-- `INSERT` of a running row under the next id. -/
def SessionTable.createSession (table : SessionTable) (toolId : Int) (dir : List Char)
    (now : Int) : SessionTable where
  rows := table.rows ++
    [{ table.inserted toolId dir now with createdAt := .format now }]
  seq := table.seq + 1
  issued := by
    intro row member
    rcases List.mem_append.mp member with old | new
    · exact Nat.le_succ_of_le (table.issued row old)
    · cases List.mem_singleton.mp new
      exact Nat.le_refl _
  ordered := by
    refine List.pairwise_append.mpr ⟨table.ordered, List.pairwise_singleton _ _, ?_⟩
    intro row old new member
    cases List.mem_singleton.mp member
    exact Nat.lt_succ_of_le (table.issued row old)

/-- An update of one row that leaves its id. -/
def SessionTable.update (table : SessionTable) (id : Nat) (change : SessionRow → SessionRow)
    (kept : ∀ row, (change row).id = row.id) : SessionTable where
  rows := table.rows.map fun row => if row.id = id then change row else row
  seq := table.seq
  issued := by
    intro row member
    obtain ⟨old, present, rfl⟩ := List.mem_map.mp member
    split
    · rw [kept old]
      exact table.issued old present
    · exact table.issued old present
  ordered := by
    refine List.pairwise_map.mpr (table.ordered.imp fun {one other} before => ?_)
    split <;> split <;> simpa only [kept] using before

/-- `UPDATE` of the status. -/
def SessionTable.setSessionStatus (table : SessionTable) (id : Nat) (status : SessionStatus) :
    SessionTable :=
  table.update id (fun row => { row with status }) fun _ => rfl

/-- `ErrNotFound` where no row matches. -/
def SessionTable.setSessionLabel (table : SessionTable) (id : Nat) (label : List Char) :
    Option SessionTable :=
  if table.rows.any (·.id = id) then
    some (table.update id (fun row => { row with label }) fun _ => rfl)
  else none

/-- `DELETE` of a row. -/
def SessionTable.deleteSession (table : SessionTable) (id : Nat) : SessionTable where
  rows := table.rows.filter (·.id ≠ id)
  seq := table.seq
  issued row member := table.issued row (List.mem_filter.mp member).1
  ordered := table.ordered.filter _

/-- The row with the id. -/
def SessionTable.getSession (table : SessionTable) (id : Int) : Option Session :=
  (table.rows.find? fun row => (row.id : Int) = id).map scanSession

/-- All rows. -/
def SessionTable.listSessions (table : SessionTable) : List Session := table.rows.map scanSession

/-! ### Running rows -/

/-- The id has a row, and the row is running. -/
def SessionTable.Running (table : SessionTable) (id : Nat) : Prop :=
  ∃ row ∈ table.rows, row.id = id ∧ row.status = .running

theorem SessionTable.running_createSession {table : SessionTable} {toolId now : Int}
    {dir : List Char} {id : Nat} :
    (table.createSession toolId dir now).Running id ↔ table.Running id ∨ id = table.seq + 1 := by
  simp [Running, createSession, inserted, or_and_right, exists_or, eq_comm]

theorem SessionTable.running_deleteSession {table : SessionTable} {id deleted : Nat} :
    (table.deleteSession deleted).Running id ↔ table.Running id ∧ id ≠ deleted := by
  simp only [Running, deleteSession, List.mem_filter, decide_eq_true_eq]
  constructor
  · rintro ⟨row, ⟨member, other⟩, rfl, running⟩
    exact ⟨⟨row, member, rfl, running⟩, other⟩
  · rintro ⟨⟨row, member, rfl, running⟩, other⟩
    exact ⟨row, ⟨member, other⟩, rfl, running⟩

theorem SessionTable.running_update {table : SessionTable} {id updated : Nat}
    {change : SessionRow → SessionRow} {kept : ∀ row, (change row).id = row.id} :
    (table.update updated change kept).Running id ↔
      ∃ row ∈ table.rows, row.id = id ∧
        (if row.id = updated then change row else row).status = .running := by
  simp only [Running, update, List.mem_map]
  constructor
  · rintro ⟨_, ⟨row, member, rfl⟩, same, running⟩
    refine ⟨row, member, ?_, running⟩
    rw [← same]
    split
    · rw [kept row]
    · rfl
  · rintro ⟨row, member, same, running⟩
    refine ⟨_, ⟨row, member, rfl⟩, ?_, running⟩
    rw [← same]
    split
    · rw [kept row]
    · rfl

theorem SessionTable.running_setSessionStatus_dead {table : SessionTable} {id marked : Nat} :
    (table.setSessionStatus marked .dead).Running id ↔ table.Running id ∧ id ≠ marked := by
  rw [setSessionStatus, running_update]
  constructor
  · rintro ⟨row, member, rfl, running⟩
    split at running
    · cases running
    · rename_i other
      exact ⟨⟨row, member, rfl, running⟩, other⟩
  · rintro ⟨⟨row, member, rfl, running⟩, other⟩
    exact ⟨row, member, rfl, by rwa [if_neg other]⟩

theorem SessionTable.running_setSessionLabel {table labelled : SessionTable} {target : Nat}
    {label : List Char} (written : table.setSessionLabel target label = some labelled) :
    labelled.seq = table.seq ∧ ∀ id, labelled.Running id ↔ table.Running id := by
  unfold setSessionLabel at written
  split at written
  · cases written
    refine ⟨rfl, fun id => ?_⟩
    rw [running_update, Running]
    refine exists_congr fun row => and_congr_right fun _ => and_congr_right fun _ => ?_
    split <;> rfl
  · cases written

/-- A session that was read has a row under its id. -/
theorem SessionTable.getSession_eq_some {table : SessionTable} {id : Int} {session : Session}
    (found : table.getSession id = some session) :
    ∃ row ∈ table.rows, session = scanSession row := by
  obtain ⟨row, search, rfl⟩ := Option.map_eq_some_iff.mp found
  exact ⟨row, List.mem_of_find?_eq_some search, rfl⟩

/-- Two rows under one id are one row. -/
theorem SessionTable.row_unique {table : SessionTable} {one other : SessionRow}
    (member : one ∈ table.rows) (again : other ∈ table.rows) (same : one.id = other.id) :
    one = other := by
  have keys : (table.rows.map SessionRow.id).Nodup :=
    List.pairwise_map.mpr (table.ordered.imp Nat.ne_of_lt)
  exact List.inj_on_of_nodup_map keys member again same

/-- A session read as dead has no running row. -/
theorem SessionTable.not_running_of_getSession {table : SessionTable} {id : Int}
    {session : Session} (found : table.getSession id = some session)
    (dead : session.status ≠ .running) : ¬ table.Running session.id := by
  obtain ⟨row, member, rfl⟩ := SessionTable.getSession_eq_some found
  rintro ⟨other, present, same, running⟩
  cases SessionTable.row_unique member present same.symm
  exact dead running

/-! ### Remembered subdirectories -/

/-- A row of `dir_subdirs`. Its instant is a text of fixed width, which sorts as the instant
does. -/
structure SubdirRow where
  dirID : Int
  subdir : List Char
  usedAt : Int

/-- How many subdirectories are remembered for a directory. -/
def subdirHistoryLimit : Nat := 10

/-- The insert of `RecordSubdir`, which bumps a row that exists. -/
def upsertSubdir (rows : List SubdirRow) (dirID : Int) (subdir : List Char) (now : Int) :
    List SubdirRow :=
  if rows.any fun row => row.dirID = dirID ∧ row.subdir = subdir then
    rows.map fun row =>
      if row.dirID = dirID ∧ row.subdir = subdir then { row with usedAt := now } else row
  else rows ++ [⟨dirID, subdir, now⟩]

/-- The rows a directory keeps, newest first. -/
def newestSubdirs (rows : List SubdirRow) (dirID : Int) : List SubdirRow :=
  ((rows.filter (·.dirID = dirID)).mergeSort fun one other => other.usedAt ≤ one.usedAt).take
    subdirHistoryLimit

/-- `RecordSubdir`; a blank subdirectory is not history. -/
def recordSubdir (rows : List SubdirRow) (dirID : Int) (subdir : List Char) (now : Int) :
    List SubdirRow :=
  let subdir := trimSpace subdir
  if subdir = [] then rows
  else
    let rows := upsertSubdir rows dirID subdir now
    rows.filter fun row =>
      row.dirID ≠ dirID ∨ row.subdir ∈ (newestSubdirs rows dirID).map SubdirRow.subdir

end Multimux
