/-
This file models the memory of subdirectories at the level of the stored texts.
A launch inserts or bumps a row with the time of the launch as text of fixed
width, and in the same transaction deletes what the ten newest rows of the
directory do not name; the foreign key keeps rows to directories that exist.
Read newest first, the rows of a directory are the list of a small machine that
moves a recorded name to the front and keeps the first ten.
-/

import Multimux.Calendar
import Multimux.OrderedRows
import Mathlib.Logic.Function.Basic

namespace Multimux

/-! ### Times as text -/

/-- The beginning of the year 0. -/
def yearZero : Int := -epochSeconds * second

/-- A reading of the clock that the format can write: of the years 0 to 9999. -/
structure Timestamp where
  instant : Int
  begun : yearZero ≤ instant
  ended : instant < yearZero + eraDays * 86400 * second

/-- `Format(subdirTimeFormat)` of an instant in UTC. -/
def subdirTime (instant : Int) : List Char :=
  let nanos := (instant - yearZero).toNat
  dateTimeText (nanos / 1000000000) ++ '.' :: (padded 9 (nanos % 1000000000) ++ ['Z'])

/-- The texts sort as the instants do. -/
theorem sortsBefore_subdirTime (one other : Timestamp) :
    sortsBefore (subdirTime one.instant) (subdirTime other.instant) = true ↔
      one.instant ≤ other.instant := by
  obtain ⟨instant, begun, ended⟩ := one
  obtain ⟨later, laterBegun, laterEnded⟩ := other
  have nine : widthBound 9 = 1000000000 := rfl
  simp only [yearZero, epochSeconds, second, eraDays] at begun ended laterBegun laterEnded
  simp only [subdirTime, yearZero, epochSeconds, second]
  rw [sortsBefore_dateTimeText_append (by simp only [eraDays]; omega)
      (by simp only [eraDays]; omega), sortsBefore_cons_self,
    sortsBefore_padded_append (by omega) (by omega)]
  simp only [sortsBefore_refl, and_true]
  omega

/-! ### The store -/

/-- A row of `dir_subdirs`. -/
structure HistoryRow where
  dirID : Int
  subdir : List Char
  usedAt : List Char

/-- The tables `dirs` and `dir_subdirs`. -/
structure HistoryStore where
  dirs : OrderedTable DirRow
  rows : List HistoryRow

/-- `ON CONFLICT(dir_id, subdir) DO UPDATE`. -/
def upsertHistory (rows : List HistoryRow) (dirID : Int) (subdir usedAt : List Char) :
    List HistoryRow :=
  if rows.any fun row => row.dirID = dirID ∧ row.subdir = subdir then
    rows.map fun row =>
      if row.dirID = dirID ∧ row.subdir = subdir then { row with usedAt } else row
  else rows ++ [⟨dirID, subdir, usedAt⟩]

/-- `WHERE dir_id = ? ORDER BY used_at DESC LIMIT ?`. -/
def newestHistory (rows : List HistoryRow) (dirID : Int) : List HistoryRow :=
  ((rows.filter fun row => row.dirID = dirID).mergeSort fun row other =>
    sortsBefore other.usedAt row.usedAt).take subdirHistoryLimit

/-- The subdirectories of a directory, the last one used first. -/
def HistoryStore.listSubdirs (store : HistoryStore) (dirID : Int) : List (List Char) :=
  (newestHistory store.rows dirID).map HistoryRow.subdir

/-- The directory is there. -/
def HistoryStore.hasDir (store : HistoryStore) (dirID : Int) : Bool :=
  store.dirs.rows.any fun row => row.entry.id = dirID

/-- The only error a transaction of `RecordSubdir` meets in a working database. -/
inductive HistoryError
  | foreignKey
  deriving DecidableEq

/-- `RecordSubdir`: the subdirectory moves to the front, and what is too much is dropped. -/
def HistoryStore.recordSubdir (store : HistoryStore) (dirID : Int) (subdir : List Char)
    (now : Int) : HistoryStore × Except HistoryError Unit :=
  let subdir := trimSpace subdir
  if subdir = [] then (store, .ok ())
  else if store.hasDir dirID then
    let rows := upsertHistory store.rows dirID subdir (subdirTime now)
    let kept := (newestHistory rows dirID).map HistoryRow.subdir
    ({ store with rows := rows.filter fun row => row.dirID ≠ dirID ∨ row.subdir ∈ kept }, .ok ())
  else (store, .error .foreignKey)

/-- A subdirectory is forgotten. -/
def HistoryStore.deleteSubdir (store : HistoryStore) (dirID : Int) (subdir : List Char) :
    HistoryStore :=
  { store with rows := store.rows.filter fun row => ¬ (row.dirID = dirID ∧ row.subdir = subdir) }

/-- `DeleteDir`; the rows that refer to a deleted directory go with it. -/
def HistoryStore.deleteDir (store : HistoryStore) (id : Int) : HistoryStore where
  dirs := Multimux.deleteDir store.dirs id
  rows := if store.hasDir id then store.rows.filter fun row => row.dirID ≠ id else store.rows

/-- The operations on the two tables. -/
inductive HistoryCall
  | createDir (name path : List Char)
  | deleteDir (id : Int)
  | reorderDirs (ids : List Int)
  | recordSubdir (dirID : Int) (subdir : List Char) (now : Timestamp)
  | deleteSubdir (dirID : Int) (subdir : List Char)

/-- What an operation makes of the store. -/
def HistoryCall.perform (store : HistoryStore) : HistoryCall → HistoryStore
  | .createDir name path => { store with dirs := (Multimux.createDir store.dirs name path).1 }
  | .deleteDir id => store.deleteDir id
  | .reorderDirs ids => { store with dirs := (Multimux.reorderDirs store.dirs ids).1 }
  | .recordSubdir dirID subdir now => (store.recordSubdir dirID subdir now.instant).1
  | .deleteSubdir dirID subdir => store.deleteSubdir dirID subdir

/-- The reading that an operation stores. -/
def HistoryCall.stamp : HistoryCall → Option Timestamp
  | .recordSubdir _ _ now => some now
  | _ => none

/-- The directory whose list an operation is about. -/
def HistoryCall.dir : HistoryCall → Option Int
  | .createDir _ _ | .reorderDirs _ => none
  | .deleteDir id => some id
  | .recordSubdir dirID _ _ | .deleteSubdir dirID _ => some dirID

/-- The store after some calls. -/
def historyAfter (calls : List HistoryCall) : HistoryStore :=
  calls.foldl HistoryCall.perform ⟨emptyTable, []⟩

/-! ### The reference machine -/

/-- The directories, and a list of names for each. -/
structure SubdirLists where
  dirs : OrderedList DirRow
  entries : Int → List (List Char)

/-- Move a name to the front of a list and keep the first ten. -/
def moveToFront (names : List (List Char)) (name : List Char) : List (List Char) :=
  (name :: names.filter (· ≠ name)).take subdirHistoryLimit

/-- Trim the name and ignore a blank one, move a recorded name to the front, delete a named
entry; a directory that does not exist has no entries. -/
def HistoryCall.refer (lists : SubdirLists) : HistoryCall → SubdirLists
  | .createDir name path => { lists with dirs := lists.dirs.perform dirKind (.create (name, path)) }
  | .deleteDir id => ⟨lists.dirs.perform dirKind (.delete id), Function.update lists.entries id []⟩
  | .reorderDirs ids => { lists with dirs := lists.dirs.perform dirKind (.reorder ids) }
  | .recordSubdir dirID subdir _ =>
    if trimSpace subdir ≠ [] ∧ dirID ∈ lists.dirs.entries.map DirRow.id then
      { lists with
        entries := Function.update lists.entries dirID
          (moveToFront (lists.entries dirID) (trimSpace subdir)) }
    else lists
  | .deleteSubdir dirID subdir =>
    { lists with
      entries := Function.update lists.entries dirID
        ((lists.entries dirID).filter (· ≠ subdir)) }

/-- The lists after the same calls. -/
def listsAfter (calls : List HistoryCall) : SubdirLists :=
  calls.foldl HistoryCall.refer ⟨emptyList, fun _ => []⟩

/-! ### Rows and lists -/

/-- The primary key. -/
def SubdirRow.key (row : SubdirRow) : Int × List Char := (row.dirID, row.subdir)

/-- The rows hold the lists: for every directory its rows, newest first, have the names of its
list, which is within the limit. -/
structure Remembers (rows : List SubdirRow) (entries : Int → List (List Char)) : Prop where
  keys : (rows.map SubdirRow.key).Nodup
  recent : ∀ dirID, ∃ sorted : List SubdirRow,
    sorted.Perm (rows.filter fun row => row.dirID = dirID) ∧
    sorted.Pairwise (fun one other => other.usedAt < one.usedAt) ∧
    entries dirID = sorted.map SubdirRow.subdir ∧ sorted.length ≤ subdirHistoryLimit

/-- The newest rows of a directory, where its rows have different instants. -/
theorem newestSubdirs_eq {rows sorted : List SubdirRow} {dirID : Int}
    (same : sorted.Perm (rows.filter fun row => row.dirID = dirID))
    (recent : sorted.Pairwise fun one other => other.usedAt < one.usedAt) :
    newestSubdirs rows dirID = sorted.take subdirHistoryLimit := by
  have transitive : ∀ one other last : SubdirRow, decide (other.usedAt ≤ one.usedAt) = true →
      decide (last.usedAt ≤ other.usedAt) = true → decide (last.usedAt ≤ one.usedAt) = true := by
    intro one other last
    simp only [decide_eq_true_eq]
    omega
  have total : ∀ one other : SubdirRow,
      (decide (other.usedAt ≤ one.usedAt) || decide (one.usedAt ≤ other.usedAt)) = true := by
    intro one other
    simp only [Bool.or_eq_true, decide_eq_true_eq]
    omega
  have strict : sorted.Pairwise fun one other => decide (other.usedAt ≤ one.usedAt) = true ∧
      decide (one.usedAt ≤ other.usedAt) = false := by
    refine recent.imp fun {one other} less => ?_
    simp only [decide_eq_true_eq, decide_eq_false_iff_not]
    omega
  rw [newestSubdirs, mergeSort_eq_of_strict transitive total same strict]

theorem nodup_subdirs {rows sorted : List SubdirRow} {dirID : Int}
    (keys : (rows.map SubdirRow.key).Nodup)
    (same : sorted.Perm (rows.filter fun row => row.dirID = dirID)) :
    (sorted.map SubdirRow.subdir).Nodup := by
  refine (same.map _).nodup_iff.mpr ?_
  have within := keys.sublist (List.filter_sublist (p := fun row => row.dirID = dirID).map _)
  refine List.pairwise_map.mpr ((List.pairwise_map.mp within).imp_of_mem ?_)
  intro one other member present apart equal
  have here : one.dirID = dirID := by simpa using (List.mem_filter.mp member).2
  have there : other.dirID = dirID := by simpa using (List.mem_filter.mp present).2
  exact apart (Prod.ext (here.trans there.symm) equal)

/-- Up to the order of the rows, an upsert replaces the row under its key. -/
theorem upsertSubdir_perm {rows : List SubdirRow} (keys : (rows.map SubdirRow.key).Nodup)
    (dirID : Int) (subdir : List Char) (now : Int) :
    (upsertSubdir rows dirID subdir now).Perm (⟨dirID, subdir, now⟩ ::
      rows.filter fun row => ¬ (row.dirID = dirID ∧ row.subdir = subdir)) := by
  have others : ∀ part : List SubdirRow,
      (∀ row ∈ part, ¬ (row.dirID = dirID ∧ row.subdir = subdir)) →
      (part.map fun row => if row.dirID = dirID ∧ row.subdir = subdir then
        { row with usedAt := now } else row) = part ∧
      (part.filter fun row => ¬ (row.dirID = dirID ∧ row.subdir = subdir)) = part := by
    intro part different
    refine ⟨?_, List.filter_eq_self.mpr fun row member => decide_eq_true (different row member)⟩
    conv_rhs => rw [← List.map_id part]
    exact List.map_congr_left fun row member => if_neg (different row member)
  unfold upsertSubdir
  split
  · rename_i known
    obtain ⟨row, member, found⟩ := List.any_eq_true.mp known
    obtain ⟨rfl, rfl⟩ : row.dirID = dirID ∧ row.subdir = subdir := by simpa using found
    obtain ⟨front, back, rfl⟩ := List.append_of_mem member
    rw [List.map_append, List.map_cons, List.nodup_middle, List.nodup_cons] at keys
    have apart : ∀ other ∈ front ++ back,
        ¬ (other.dirID = row.dirID ∧ other.subdir = row.subdir) := by
      rintro other present ⟨dir, name⟩
      refine keys.1 ?_
      rw [← List.map_append]
      exact List.mem_map.mpr ⟨other, present, Prod.ext dir name⟩
    have first := others front fun other present => apart other (List.mem_append_left _ present)
    have last := others back fun other present => apart other (List.mem_append_right _ present)
    rw [List.map_append, List.map_cons, List.filter_append, List.filter_cons, first.1, first.2,
      last.1, last.2]
    simp only [and_self, ↓reduceIte, not_true_eq_false, decide_false, Bool.false_eq_true]
    exact List.perm_middle
  · rename_i unknown
    have apart : ∀ other ∈ rows, ¬ (other.dirID = dirID ∧ other.subdir = subdir) := by
      intro other present same
      exact unknown (List.any_eq_true.mpr ⟨other, present, decide_eq_true same⟩)
    rw [(others rows apart).2]
    exact List.perm_append_singleton _ _

/-- The rows whose names stand in a front part of a list without repeats are that part. -/
theorem filter_mem_take {sorted : List SubdirRow} (names : (sorted.map SubdirRow.subdir).Nodup)
    (limit : Nat) :
    (sorted.filter fun row => row.subdir ∈ (sorted.take limit).map SubdirRow.subdir) =
      sorted.take limit := by
  have split : ((sorted.take limit).map SubdirRow.subdir ++
      (sorted.drop limit).map SubdirRow.subdir).Nodup := by
    rwa [← List.map_append, List.take_append_drop]
  have apart := List.disjoint_of_nodup_append split
  have front : ((sorted.take limit).filter fun row =>
      row.subdir ∈ (sorted.take limit).map SubdirRow.subdir) = sorted.take limit :=
    List.filter_eq_self.mpr fun row member => decide_eq_true (List.mem_map_of_mem member)
  have back : ((sorted.drop limit).filter fun row =>
      row.subdir ∈ (sorted.take limit).map SubdirRow.subdir) = [] := by
    refine List.filter_eq_nil_iff.mpr fun row member present => ?_
    exact apart (of_decide_eq_true present) (List.mem_map_of_mem member)
  calc (sorted.filter fun row => row.subdir ∈ (sorted.take limit).map SubdirRow.subdir)
      = ((sorted.take limit ++ sorted.drop limit).filter fun row =>
          row.subdir ∈ (sorted.take limit).map SubdirRow.subdir) := by
        rw [List.take_append_drop]
    _ = sorted.take limit := by rw [List.filter_append, front, back, List.append_nil]

/-! ### The operations on the lists -/

/-- The rows of a directory once a name is inserted or bumped there. -/
theorem upsertSubdir_recent {rows sorted : List SubdirRow} {dirID now : Int} {subdir : List Char}
    (keys : (rows.map SubdirRow.key).Nodup) (older : ∀ row ∈ rows, row.usedAt < now)
    (same : sorted.Perm (rows.filter fun row => row.dirID = dirID))
    (recent : sorted.Pairwise fun one other => other.usedAt < one.usedAt) :
    (⟨dirID, subdir, now⟩ :: sorted.filter fun row => row.subdir ≠ subdir).Perm
        ((upsertSubdir rows dirID subdir now).filter fun row => row.dirID = dirID) ∧
      (⟨dirID, subdir, now⟩ :: sorted.filter fun row => row.subdir ≠ subdir).Pairwise
        fun one other => other.usedAt < one.usedAt := by
  constructor
  · refine List.Perm.trans ?_ ((upsertSubdir_perm keys dirID subdir now).filter _).symm
    rw [List.filter_cons_of_pos (by simp), List.filter_filter]
    refine List.Perm.cons _ ((same.filter _).trans (.of_eq ?_))
    rw [List.filter_filter]
    refine List.filter_congr fun row _ => ?_
    by_cases here : row.dirID = dirID <;> simp [here]
  · refine List.pairwise_cons.mpr ⟨fun row member => ?_, recent.filter _⟩
    have stored := same.mem_iff.mp (List.mem_filter.mp member).1
    exact older row (List.mem_filter.mp stored).1

theorem recordSubdir_eq (rows : List SubdirRow) (dirID now : Int) {subdir : List Char}
    (named : trimSpace subdir ≠ []) :
    recordSubdir rows dirID subdir now =
      (upsertSubdir rows dirID (trimSpace subdir) now).filter fun row => row.dirID ≠ dirID ∨
        row.subdir ∈ (newestSubdirs (upsertSubdir rows dirID (trimSpace subdir) now) dirID).map
          SubdirRow.subdir :=
  if_neg named

theorem Remembers.record {rows : List SubdirRow} {entries : Int → List (List Char)}
    (remembers : Remembers rows entries) {dirID now : Int} {subdir : List Char}
    (older : ∀ row ∈ rows, row.usedAt < now) (named : trimSpace subdir ≠ []) :
    Remembers (recordSubdir rows dirID subdir now)
      (Function.update entries dirID (moveToFront (entries dirID) (trimSpace subdir))) := by
  have bumped := upsertSubdir_perm remembers.keys dirID (trimSpace subdir) now
  have keys : ((upsertSubdir rows dirID (trimSpace subdir) now).map SubdirRow.key).Nodup := by
    refine (bumped.map _).nodup_iff.mpr ?_
    rw [List.map_cons, List.nodup_cons]
    refine ⟨fun again => ?_, remembers.keys.sublist (List.filter_sublist.map _)⟩
    obtain ⟨row, member, same⟩ := List.mem_map.mp again
    obtain ⟨dir, name⟩ := Prod.ext_iff.mp same
    exact of_decide_eq_true (List.mem_filter.mp member).2 ⟨dir, name⟩
  rw [recordSubdir_eq rows dirID now named]
  refine ⟨keys.sublist (List.filter_sublist.map _), fun other => ?_⟩
  obtain ⟨sorted, same, recent, listed, short⟩ := remembers.recent other
  by_cases here : other = dirID
  · subst here
    obtain ⟨held, newest⟩ := upsertSubdir_recent remembers.keys older same recent
    refine ⟨_, ?_, newest.sublist (List.take_sublist subdirHistoryLimit _), ?_,
      List.length_take_le _ _⟩
    · rw [← filter_mem_take (nodup_subdirs keys held), newestSubdirs_eq held newest]
      refine (held.filter _).trans (.of_eq ?_)
      rw [List.filter_filter, List.filter_filter]
      refine List.filter_congr fun row _ => ?_
      by_cases inside : row.dirID = other <;> simp [inside]
    · rw [Function.update_self, moveToFront, listed, List.map_take, List.map_cons, List.filter_map]
      rfl
  · refine ⟨sorted, same.trans ?_, recent, ?_, short⟩
    · refine List.Perm.symm ?_
      rw [List.filter_filter]
      have outside : ((upsertSubdir rows dirID (trimSpace subdir) now).filter fun row =>
          row.dirID = other).Perm (rows.filter fun row => row.dirID = other) := by
        refine (bumped.filter _).trans (.of_eq ?_)
        rw [List.filter_cons_of_neg (by simpa using Ne.symm here), List.filter_filter]
        refine List.filter_congr fun row _ => ?_
        by_cases inside : row.dirID = other
        · simp [inside, here]
        · simp [inside]
      refine List.Perm.trans (.of_eq (List.filter_congr fun row _ => ?_)) outside
      by_cases inside : row.dirID = other
      · simp [inside, here]
      · simp [inside]
    · rw [Function.update_of_ne here]
      exact listed

/-- Deleting rows by a test of their keys deletes names of the lists. -/
theorem Remembers.filter {rows : List SubdirRow} {entries : Int → List (List Char)}
    (remembers : Remembers rows entries) (keeps : Int → List Char → Bool) :
    Remembers (rows.filter fun row => keeps row.dirID row.subdir)
      fun dirID => (entries dirID).filter (keeps dirID) := by
  refine ⟨remembers.keys.sublist (List.filter_sublist.map _), fun dirID => ?_⟩
  obtain ⟨sorted, same, recent, listed, short⟩ := remembers.recent dirID
  refine ⟨sorted.filter fun row => keeps dirID row.subdir, ?_, recent.filter _, ?_,
    (List.length_filter_le _ _).trans short⟩
  · refine (same.filter _).trans (.of_eq ?_)
    rw [List.filter_filter, List.filter_filter]
    refine List.filter_congr fun row _ => ?_
    by_cases inside : row.dirID = dirID <;> simp [inside]
  · rw [listed, List.filter_map]
    rfl

/-- The list of a directory, read newest first. -/
theorem Remembers.newest {rows : List SubdirRow} {entries : Int → List (List Char)}
    (remembers : Remembers rows entries) (dirID : Int) :
    (newestSubdirs rows dirID).map SubdirRow.subdir = entries dirID := by
  obtain ⟨sorted, same, recent, listed, short⟩ := remembers.recent dirID
  rw [newestSubdirs_eq same recent, List.take_of_length_le short, listed]

/-! ### The stored texts -/

/-- A row as it is stored. -/
def SubdirRow.written (row : SubdirRow) : HistoryRow :=
  ⟨row.dirID, row.subdir, subdirTime row.usedAt⟩

theorem upsertHistory_written (rows : List SubdirRow) (dirID : Int) (subdir : List Char)
    (now : Int) :
    upsertHistory (rows.map SubdirRow.written) dirID subdir (subdirTime now) =
      (upsertSubdir rows dirID subdir now).map SubdirRow.written := by
  have known : ((rows.map SubdirRow.written).any fun row =>
        row.dirID = dirID ∧ row.subdir = subdir) =
      rows.any fun row => row.dirID = dirID ∧ row.subdir = subdir := by
    rw [List.any_map]
    rfl
  unfold upsertHistory upsertSubdir
  rw [known]
  split
  · rw [List.map_map, List.map_map]
    refine List.map_congr_left fun row _ => ?_
    rw [Function.comp_apply, Function.comp_apply]
    by_cases found : row.dirID = dirID ∧ row.subdir = subdir
    · have same : row.written.dirID = dirID ∧ row.written.subdir = subdir := found
      rw [if_pos found, if_pos same]
      rfl
    · have other : ¬ (row.written.dirID = dirID ∧ row.written.subdir = subdir) := found
      rw [if_neg found, if_neg other]
  · rw [List.map_append]
    rfl

/-- The order of the texts picks the rows that the order of the instants does. -/
theorem newestHistory_written {rows : List SubdirRow}
    (dated : ∀ row ∈ rows, ∃ now : Timestamp, row.usedAt = now.instant) (dirID : Int) :
    newestHistory (rows.map SubdirRow.written) dirID =
      (newestSubdirs rows dirID).map SubdirRow.written := by
  have agrees : ∀ row ∈ rows.filter fun row => row.dirID = dirID,
      ∀ other ∈ rows.filter fun row => row.dirID = dirID,
        decide (other.usedAt ≤ row.usedAt) =
          sortsBefore other.written.usedAt row.written.usedAt := by
    intro row member other present
    obtain ⟨now, read⟩ := dated row (List.mem_filter.mp member).1
    obtain ⟨earlier, readEarlier⟩ := dated other (List.mem_filter.mp present).1
    rw [SubdirRow.written, SubdirRow.written, read, readEarlier, Bool.eq_iff_iff,
      decide_eq_true_eq]
    exact (sortsBefore_subdirTime earlier now).symm
  have picked : (rows.map SubdirRow.written).filter (fun row => row.dirID = dirID) =
      (rows.filter fun row => row.dirID = dirID).map SubdirRow.written := by
    rw [List.filter_map]
    rfl
  rw [newestHistory, newestSubdirs, picked, List.map_take, List.map_mergeSort
    (s := fun row other => sortsBefore other.usedAt row.usedAt) agrees]

/-- The tables hold the lists of the reference machine: the directories, and rows that were
stored at some of the readings so far. -/
structure HistoryStore.Holds (store : HistoryStore) (lists : SubdirLists)
    (stamps : List Timestamp) : Prop where
  dirs : store.dirs.Holds dirKind lists.dirs
  rows : ∃ rows : List SubdirRow, store.rows = rows.map SubdirRow.written ∧
    Remembers rows lists.entries ∧ ∀ row ∈ rows, ∃ now ∈ stamps, row.usedAt = now.instant
  missing : ∀ id, id ∉ lists.dirs.entries.map DirRow.id → lists.entries id = []

theorem HistoryStore.Holds.hasDir {store : HistoryStore} {lists : SubdirLists}
    {stamps : List Timestamp} (holds : store.Holds lists stamps) (id : Int) :
    store.hasDir id = true ↔ id ∈ lists.dirs.entries.map DirRow.id := by
  have ids : (lists.dirs.entries.map DirRow.id).Perm
      (store.dirs.rows.map fun row => row.entry.id) := holds.dirs.ids
  rw [ids.mem_iff, HistoryStore.hasDir, List.any_eq_true, List.mem_map]
  simp only [decide_eq_true_eq]

theorem HistoryStore.Holds.listSubdirs {store : HistoryStore} {lists : SubdirLists}
    {stamps : List Timestamp} (holds : store.Holds lists stamps) (dirID : Int) :
    store.listSubdirs dirID = lists.entries dirID := by
  obtain ⟨rows, stored, remembers, dated⟩ := holds.rows
  have readings : ∀ row ∈ rows, ∃ now : Timestamp, row.usedAt = now.instant := by
    intro row member
    obtain ⟨now, -, read⟩ := dated row member
    exact ⟨now, read⟩
  rw [HistoryStore.listSubdirs, stored, newestHistory_written readings, List.map_map,
    ← remembers.newest dirID]
  rfl

/-- A reorder keeps the directories. -/
theorem mem_reordered {list : OrderedList DirRow} {ids : List Int}
    (distinct : (list.entries.map DirRow.id).Nodup) (id : Int) :
    id ∈ (list.perform dirKind (.reorder ids)).entries.map DirRow.id ↔
      id ∈ list.entries.map DirRow.id := by
  rw [OrderedList.perform]
  split
  · rename_i permutes
    exact ((arranged_perm distinct permutes).map DirRow.id).mem_iff
  · rfl

/-- A name that is recorded for a directory moves to the front of its list. -/
theorem HistoryStore.Holds.record {store : HistoryStore} {lists : SubdirLists}
    {stamps : List Timestamp} (holds : store.Holds lists stamps) {dirID : Int}
    {subdir : List Char} {now : Timestamp}
    (later : ∀ earlier ∈ stamps, ∀ reading ∈ some now, earlier.instant < reading.instant)
    (named : trimSpace subdir ≠ []) (present : dirID ∈ lists.dirs.entries.map DirRow.id) :
    ({ store with
        rows := (upsertHistory store.rows dirID (trimSpace subdir)
          (subdirTime now.instant)).filter fun row => row.dirID ≠ dirID ∨
            row.subdir ∈ (newestHistory (upsertHistory store.rows dirID (trimSpace subdir)
              (subdirTime now.instant)) dirID).map HistoryRow.subdir } : HistoryStore).Holds
      { lists with
        entries := Function.update lists.entries dirID
          (moveToFront (lists.entries dirID) (trimSpace subdir)) } (stamps ++ [now]) := by
  obtain ⟨rows, stored, remembers, dated⟩ := holds.rows
  have older : ∀ row ∈ rows, row.usedAt < now.instant := by
    intro row member
    obtain ⟨earlier, among, read⟩ := dated row member
    rw [read]
    exact later earlier among now rfl
  have bumped := upsertSubdir_perm remembers.keys dirID (trimSpace subdir) now.instant
  have datedNow : ∀ row ∈ upsertSubdir rows dirID (trimSpace subdir) now.instant,
      ∃ reading ∈ stamps ++ [now], row.usedAt = reading.instant := by
    intro row member
    rcases List.mem_cons.mp (bumped.mem_iff.mp member) with rfl | old
    · exact ⟨now, List.mem_append_right _ (List.mem_singleton_self _), rfl⟩
    · obtain ⟨reading, among, read⟩ := dated row (List.mem_filter.mp old).1
      exact ⟨reading, List.mem_append_left _ among, read⟩
  refine ⟨holds.dirs, ⟨_, ?_, remembers.record older named, ?_⟩, ?_⟩
  · rw [stored, upsertHistory_written, newestHistory_written fun row member =>
      (datedNow row member).imp fun _ => And.right, recordSubdir_eq rows dirID _ named,
      List.filter_map, List.map_map]
    rfl
  · intro row member
    rw [recordSubdir_eq rows dirID _ named] at member
    exact datedNow row (List.mem_filter.mp member).1
  · intro id absent
    have different : id ≠ dirID := fun same => absent (same ▸ present)
    dsimp only
    rw [Function.update_of_ne different]
    exact holds.missing id absent

/-- An operation on the tables is the operation on the lists, if it reads a time later than those
before. -/
theorem HistoryStore.Holds.perform {store : HistoryStore} {lists : SubdirLists}
    {stamps : List Timestamp} (holds : store.Holds lists stamps) (call : HistoryCall)
    (later : ∀ earlier ∈ stamps, ∀ now ∈ call.stamp, earlier.instant < now.instant) :
    (call.perform store).Holds (call.refer lists) (stamps ++ call.stamp.toList) := by
  obtain ⟨rows, stored, remembers, dated⟩ := holds.rows
  have since : ∀ row ∈ rows, ∃ now ∈ stamps ++ call.stamp.toList, row.usedAt = now.instant := by
    intro row member
    obtain ⟨now, among, read⟩ := dated row member
    exact ⟨now, List.mem_append_left _ among, read⟩
  cases call with
  | createDir name path =>
    refine ⟨holds.dirs.perform (.create (name, path)), ⟨rows, stored, remembers, since⟩, ?_⟩
    intro id absent
    refine holds.missing id fun present => absent ?_
    simp only [HistoryCall.refer, OrderedList.perform, List.map_append]
    exact List.mem_append_left _ present
  | deleteDir id =>
    refine ⟨holds.dirs.perform (.delete id), ?_, ?_⟩
    · simp only [HistoryCall.perform, HistoryStore.deleteDir, HistoryCall.refer]
      split
      · refine ⟨rows.filter fun row => row.dirID ≠ id, ?_, ?_, ?_⟩
        · rw [stored, List.filter_map]
          rfl
        · have emptied : Function.update lists.entries id [] =
              fun dirID => (lists.entries dirID).filter fun _ => dirID ≠ id := by
            funext dirID
            rw [Function.update_apply]
            by_cases here : dirID = id <;> simp [here]
          rw [emptied]
          exact remembers.filter fun dirID _ => dirID ≠ id
        · exact fun row member => since row (List.mem_filter.mp member).1
      · rename_i none
        have empty := holds.missing id fun present => none ((holds.hasDir id).mpr present)
        rw [← empty, Function.update_eq_self]
        exact ⟨rows, stored, remembers, since⟩
    · intro other absent
      simp only [HistoryCall.refer, Function.update_apply]
      split
      · rfl
      · rename_i different
        refine holds.missing other fun present => absent ?_
        obtain ⟨dir, member, rfl⟩ := List.mem_map.mp present
        refine List.mem_map_of_mem (List.mem_filter.mpr ⟨member, decide_eq_true different⟩)
  | reorderDirs ids =>
    refine ⟨holds.dirs.perform (.reorder ids), ⟨rows, stored, remembers, since⟩, ?_⟩
    intro id absent
    exact holds.missing id fun present =>
      absent ((mem_reordered holds.dirs.distinct id).mpr present)
  | recordSubdir dirID subdir now =>
    simp only [HistoryCall.perform, HistoryCall.refer, HistoryStore.recordSubdir]
    by_cases blank : trimSpace subdir = []
    · simp only [blank, ↓reduceIte, ne_eq, not_true_eq_false, false_and]
      exact ⟨holds.dirs, ⟨rows, stored, remembers, since⟩, holds.missing⟩
    · by_cases present : dirID ∈ lists.dirs.entries.map DirRow.id
      · rw [if_neg blank, if_pos ((holds.hasDir dirID).mpr present), if_pos ⟨blank, present⟩]
        exact holds.record later blank present
      · have absent := mt (holds.hasDir dirID).mp present
        rw [if_neg blank, if_neg absent, if_neg (fun both => present both.2)]
        exact ⟨holds.dirs, ⟨rows, stored, remembers, since⟩, holds.missing⟩
  | deleteSubdir dirID subdir =>
    have filtered : Function.update lists.entries dirID
          ((lists.entries dirID).filter (· ≠ subdir)) =
        fun other => (lists.entries other).filter fun name =>
          ¬ (other = dirID ∧ name = subdir) := by
      funext other
      rw [Function.update_apply]
      by_cases here : other = dirID <;> simp [here]
    simp only [HistoryCall.perform, HistoryCall.refer, HistoryStore.deleteSubdir]
    rw [filtered]
    refine ⟨holds.dirs, ⟨rows.filter fun row => ¬ (row.dirID = dirID ∧ row.subdir = subdir), ?_,
      remembers.filter fun other name => ¬ (other = dirID ∧ name = subdir), ?_⟩, ?_⟩
    · rw [stored, List.filter_map]
      rfl
    · exact fun row member => since row (List.mem_filter.mp member).1
    · intro id absent
      dsimp only
      rw [holds.missing id absent, List.filter_nil]

/-! ### The history of a directory -/

/-- A run of operations on the tables is the run on the lists. -/
theorem historyAfter_holds {calls : List HistoryCall}
    (increasing : (calls.filterMap HistoryCall.stamp).Pairwise fun earlier now =>
      earlier.instant < now.instant) :
    (historyAfter calls).Holds (listsAfter calls) (calls.filterMap HistoryCall.stamp) := by
  induction calls using List.reverseRecOn with
  | nil =>
    refine ⟨holds_of_calls dirKind [], ⟨[], rfl, ⟨.nil, fun dirID => ?_⟩, by simp⟩, fun _ _ => rfl⟩
    exact ⟨[], .nil, .nil, rfl, Nat.zero_le _⟩
  | append_singleton calls call inductionHypothesis =>
    have one : [call].filterMap HistoryCall.stamp = call.stamp.toList := by
      cases stamped : call.stamp <;> simp [stamped]
    rw [List.filterMap_append, one] at increasing ⊢
    obtain ⟨before, -, across⟩ := List.pairwise_append.mp increasing
    rw [historyAfter, listsAfter, List.foldl_append, List.foldl_append]
    refine (inductionHypothesis before).perform call fun earlier among now reads => ?_
    exact across earlier among now (Option.mem_toList.mpr reads)

/-- The directory was deleted: its id was issued, and it is not there. -/
def SubdirLists.Gone (lists : SubdirLists) (id : Int) : Prop :=
  id ≤ lists.dirs.issued ∧ id ∉ lists.dirs.entries.map DirRow.id

/-- Ids are never issued again. -/
theorem SubdirLists.Gone.refer {lists : SubdirLists} {id : Int} (gone : lists.Gone id)
    (distinct : (lists.dirs.entries.map DirRow.id).Nodup) (call : HistoryCall) :
    (call.refer lists).Gone id := by
  obtain ⟨issued, absent⟩ := gone
  cases call with
  | createDir name path =>
    refine ⟨Int.le_add_one issued, fun present => ?_⟩
    simp only [HistoryCall.refer, OrderedList.perform, List.map_append, List.map_cons,
      List.map_nil, List.mem_append, List.mem_singleton] at present
    rcases present with old | new
    · exact absent old
    · change id = lists.dirs.issued + 1 at new
      omega
  | deleteDir other =>
    refine ⟨issued, fun present => absent ?_⟩
    exact (List.filter_sublist.map _).subset present
  | reorderDirs ids =>
    refine ⟨?_, fun present => absent ((mem_reordered distinct id).mp present)⟩
    simp only [HistoryCall.refer, OrderedList.perform]
    split <;> exact issued
  | recordSubdir dirID subdir now =>
    simp only [HistoryCall.refer]
    split <;> exact ⟨issued, absent⟩
  | deleteSubdir dirID subdir => exact ⟨issued, absent⟩

/-- A directory that was deleted has no names, however often operations follow. -/
theorem gone_after {earlier later : List HistoryCall} {id : Int}
    (increasing : ((earlier ++ .deleteDir id :: later).filterMap HistoryCall.stamp).Pairwise
      fun before now => before.instant < now.instant)
    (existed : (historyAfter earlier).hasDir id = true) :
    (listsAfter (earlier ++ .deleteDir id :: later)).Gone id := by
  induction later using List.reverseRecOn with
  | nil =>
    rw [List.filterMap_append] at increasing
    have holds := historyAfter_holds (List.pairwise_append.mp increasing).1
    obtain ⟨dir, member, same⟩ := List.mem_map.mp ((holds.hasDir id).mp existed)
    rw [listsAfter, List.foldl_append]
    refine ⟨?_, fun present => ?_⟩
    · exact same ▸ holds.dirs.issued dir member
    · obtain ⟨other, kept, again⟩ := List.mem_map.mp present
      exact of_decide_eq_true (List.mem_filter.mp kept).2 again
  | append_singleton later call inductionHypothesis =>
    rw [← List.cons_append, ← List.append_assoc] at increasing ⊢
    rw [List.filterMap_append] at increasing
    have before := (List.pairwise_append.mp increasing).1
    rw [listsAfter, List.foldl_append]
    exact (inductionHypothesis before).refer (historyAfter_holds before).dirs.distinct call

/-- The list of a directory is read from its rows. -/
theorem listSubdirs_congr {store other : HistoryStore} {dirID : Int}
    (same : (other.rows.filter fun row => row.dirID = dirID) =
      store.rows.filter fun row => row.dirID = dirID) :
    other.listSubdirs dirID = store.listSubdirs dirID := by
  rw [HistoryStore.listSubdirs, HistoryStore.listSubdirs, newestHistory, newestHistory, same]

/-- Rows may go, if those of the directory stay. -/
theorem filter_filter_dir {rows : List HistoryRow} {dirID : Int} {keeps : HistoryRow → Bool}
    (stay : ∀ row, row.dirID = dirID → keeps row = true) :
    ((rows.filter keeps).filter fun row => row.dirID = dirID) =
      rows.filter fun row => row.dirID = dirID := by
  rw [List.filter_filter]
  refine List.filter_congr fun row _ => ?_
  by_cases here : row.dirID = dirID
  · simp [here, stay row here]
  · simp [here]

theorem upsertHistory_filter {rows : List HistoryRow} {dirID other : Int}
    (different : dirID ≠ other) (subdir usedAt : List Char) :
    ((upsertHistory rows dirID subdir usedAt).filter fun row => row.dirID = other) =
      rows.filter fun row => row.dirID = other := by
  unfold upsertHistory
  split
  · rw [List.filter_map]
    have kept : ((fun row : HistoryRow => decide (row.dirID = other)) ∘ fun row =>
        if row.dirID = dirID ∧ row.subdir = subdir then { row with usedAt } else row) =
        fun row => decide (row.dirID = other) := by
      funext row
      rw [Function.comp_apply]
      split <;> rfl
    rw [kept]
    conv_rhs => rw [← List.map_id (rows.filter fun row => row.dirID = other)]
    refine List.map_congr_left fun row member => if_neg fun found => different ?_
    exact found.1.symm.trans (of_decide_eq_true (List.mem_filter.mp member).2)
  · rw [List.filter_append, List.filter_cons_of_neg (by simpa using different), List.filter_nil,
      List.append_nil]

/-- An operation that is not about a directory leaves its list, in any tables. -/
theorem HistoryCall.listSubdirs_perform (store : HistoryStore) (call : HistoryCall) {dirID : Int}
    (other : call.dir ≠ some dirID) :
    (call.perform store).listSubdirs dirID = store.listSubdirs dirID := by
  refine listSubdirs_congr ?_
  cases call with
  | createDir | reorderDirs => rfl
  | deleteDir id =>
    have different : id ≠ dirID := fun same => other (congrArg some same)
    simp only [perform, HistoryStore.deleteDir]
    split
    · refine filter_filter_dir fun row here => decide_eq_true ?_
      rw [here]
      exact Ne.symm different
    · rfl
  | recordSubdir target subdir now =>
    have different : target ≠ dirID := fun same => other (congrArg some same)
    simp only [perform, HistoryStore.recordSubdir]
    split
    · rfl
    · split
      · refine Eq.trans (filter_filter_dir fun row here => decide_eq_true (.inl ?_))
          (upsertHistory_filter different _ _)
        rw [here]
        exact Ne.symm different
      · rfl
  | deleteSubdir target subdir =>
    have different : target ≠ dirID := fun same => other (congrArg some same)
    exact filter_filter_dir fun row here => decide_eq_true fun found =>
      different (found.1.symm.trans here)

/-- At strictly increasing readings of the clock the list of every directory is that of the
reference machine, a directory that does not exist has none, and neither has one that was deleted
at any time before. In any tables an operation on one directory leaves the lists of the others. -/
theorem subdirHistory_lru :
    (∀ calls : List HistoryCall,
      (calls.filterMap HistoryCall.stamp).Pairwise (fun earlier now =>
        earlier.instant < now.instant) →
      (∀ dirID, (historyAfter calls).listSubdirs dirID = (listsAfter calls).entries dirID) ∧
      (∀ dirID, (historyAfter calls).hasDir dirID = false →
        (historyAfter calls).listSubdirs dirID = []) ∧
      ∀ earlier id later, calls = earlier ++ .deleteDir id :: later →
        (historyAfter earlier).hasDir id = true → (historyAfter calls).listSubdirs id = []) ∧
    ∀ (store : HistoryStore) (call : HistoryCall) (dirID : Int), call.dir ≠ some dirID →
      (call.perform store).listSubdirs dirID = store.listSubdirs dirID := by
  refine ⟨fun calls increasing => ?_, fun store call dirID => call.listSubdirs_perform store⟩
  have holds := historyAfter_holds increasing
  refine ⟨holds.listSubdirs, fun dirID missing => ?_, fun earlier id later spelled existed => ?_⟩
  · rw [holds.listSubdirs]
    refine holds.missing dirID fun present => ?_
    rw [(holds.hasDir dirID).mpr present] at missing
    cases missing
  · rw [holds.listSubdirs]
    subst spelled
    exact holds.missing id (gone_after increasing existed).2

/-- Two launches and a third into the first subdirectory. -/
def repeatedLaunches : List HistoryCall :=
  [.createDir "~".toList "/home".toList,
    .recordSubdir 1 "src".toList ⟨1, by decide, by decide⟩,
    .recordSubdir 1 "docs".toList ⟨2, by decide, by decide⟩,
    .recordSubdir 1 " src ".toList ⟨3, by decide, by decide⟩]

/-- The repeated subdirectory is in front. -/
theorem repeatedLaunches_listed :
    (historyAfter repeatedLaunches).listSubdirs 1 = ["src".toList, "docs".toList] := by
  have increasing : (repeatedLaunches.filterMap HistoryCall.stamp).Pairwise fun earlier now =>
      earlier.instant < now.instant := by
    decide
  rw [(subdirHistory_lru.1 repeatedLaunches increasing).1 1]
  decide

end Multimux
