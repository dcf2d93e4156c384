/-
This file models the lists of tools and directories as the store keeps them. A
row has a position beside its entry, and the list is read in the order of the
positions. A new row goes behind the largest position, a deletion leaves a gap,
and a reorder writes all positions anew once it has checked that the ids are
those of the rows, each exactly once. Seen from outside this is a plain list:
each table holds it, sorted by strictly growing positions.
-/

import Multimux.SessionTable
import Multimux.TextOrder
import Mathlib.Data.Finset.Card
import Mathlib.Data.List.Perm.Basic
import Mathlib.Order.Lattice

namespace Multimux

/-! ### Tables with a position -/

section Tables

variable {Fields Entry : Type*}

/-- What a table with an order holds: how an entry is made from its id and its fields, and what
its id is. -/
structure OrderedKind (Fields Entry : Type*) where
  entry : Int → Fields → Entry
  id : Entry → Int
  id_entry : ∀ number fields, id (entry number fields) = number

/-- A row: an entry and the column `position`. -/
structure OrderedRow (Entry : Type*) where
  entry : Entry
  position : Int

/-- A table, and the largest id it issued. -/
structure OrderedTable (Entry : Type*) where
  rows : List (OrderedRow Entry)
  seq : Int

/-- A table that no row was ever in. -/
def emptyTable : OrderedTable Entry := ⟨[], 0⟩

/-- `COALESCE(MAX(position), 0)`. -/
def maxPosition (rows : List (OrderedRow Entry)) : Int :=
  ((rows.map OrderedRow.position).max?).getD 0

/-- Append a row at the end of the order, under the next id. -/
def insertOrdered (kind : OrderedKind Fields Entry) (table : OrderedTable Entry)
    (fields : Fields) : OrderedTable Entry × Entry :=
  let entry := kind.entry (table.seq + 1) fields
  ({ rows := table.rows ++ [⟨entry, maxPosition table.rows + 1⟩], seq := table.seq + 1 }, entry)

/-- `ORDER BY position, id`. -/
def OrderedRow.before (kind : OrderedKind Fields Entry) (row other : OrderedRow Entry) : Bool :=
  row.position < other.position ||
    (row.position = other.position && kind.id row.entry ≤ kind.id other.entry)

/-- The entries in the order of their positions. -/
def listOrdered (kind : OrderedKind Fields Entry) (table : OrderedTable Entry) : List Entry :=
  (table.rows.mergeSort (OrderedRow.before kind)).map OrderedRow.entry

/-- The rows whose entry has the id, each changed. -/
def changeRow (kind : OrderedKind Fields Entry) (rows : List (OrderedRow Entry)) (id : Int)
    (change : OrderedRow Entry → OrderedRow Entry) : List (OrderedRow Entry) :=
  rows.map fun row => if kind.id row.entry = id then change row else row

/-- Set all fields of the row with the entry's id. -/
def updateOrdered (kind : OrderedKind Fields Entry) (table : OrderedTable Entry) (entry : Entry) :
    OrderedTable Entry :=
  { table with rows := changeRow kind table.rows (kind.id entry) fun row => { row with entry } }

/-- The row with the id is gone; the positions of the others stay. -/
def deleteOrdered (kind : OrderedKind Fields Entry) (table : OrderedTable Entry) (id : Int) :
    OrderedTable Entry :=
  { table with rows := table.rows.filter fun row => kind.id row.entry ≠ id }

/-- What is wrapped in `ErrOrderMismatch`. -/
inductive OrderMismatch
  | count (ids rows : Nat)
  | missing (id : Int)

/-- The text of the error. -/
def OrderMismatch.message : OrderMismatch → String
  | .count ids rows => "order must list every id exactly once: got " ++ toString ids ++
      " ids for " ++ toString rows ++ " rows"
  | .missing id => "order must list every id exactly once: id " ++ toString id ++
      " does not exist"

/-- The loop of `checkIDSet`; a repeat of an id fails the next lookup. -/
def checkEach (existing : Finset Int) : List Int → Except OrderMismatch Unit
  | [] => .ok ()
  | id :: rest =>
    if id ∈ existing then checkEach (existing.erase id) rest else .error (.missing id)

/-- The ids must be those of the rows, each exactly once. -/
def checkIDSet (existing : Finset Int) (ids : List Int) : Except OrderMismatch Unit :=
  if ids.length ≠ existing.card then .error (.count ids.length existing.card)
  else checkEach existing ids

/-- The loop of `reorder`: the ids take the positions after `index`, one by one. -/
def placeEach (kind : OrderedKind Fields Entry) (rows : List (OrderedRow Entry)) (index : Nat) :
    List Int → List (OrderedRow Entry)
  | [] => rows
  | id :: rest =>
    placeEach kind (changeRow kind rows id fun row => { row with position := index + 1 })
      (index + 1) rest

/-- Rewrite the positions; ids that are not those of the rows leave the table as it is. -/
def reorder (kind : OrderedKind Fields Entry) (table : OrderedTable Entry) (ids : List Int) :
    OrderedTable Entry × Except OrderMismatch Unit :=
  match checkIDSet (table.rows.map fun row => kind.id row.entry).toFinset ids with
  | .error mismatch => (table, .error mismatch)
  | .ok () => ({ table with rows := placeEach kind table.rows 0 ids }, .ok ())

/-- The operations of a table. -/
inductive OrderedCall (Fields Entry : Type*)
  | create (fields : Fields)
  | update (entry : Entry)
  | delete (id : Int)
  | reorder (ids : List Int)

/-- What an operation makes of the table. -/
def OrderedCall.perform (kind : OrderedKind Fields Entry) (table : OrderedTable Entry) :
    OrderedCall Fields Entry → OrderedTable Entry
  | .create fields => (insertOrdered kind table fields).1
  | .update entry => updateOrdered kind table entry
  | .delete id => deleteOrdered kind table id
  | .reorder ids => (Multimux.reorder kind table ids).1

/-! ### The list that a table stands for -/

/-- A list of entries, and the largest id issued. -/
structure OrderedList (Entry : Type*) where
  entries : List Entry
  issued : Int

/-- A list that no entry was ever in. -/
def emptyList : OrderedList Entry := ⟨[], 0⟩

/-- The entries in the order of their ids in a list. -/
def arranged (kind : OrderedKind Fields Entry) (entries : List Entry) (ids : List Int) :
    List Entry :=
  ids.filterMap fun id => entries.find? fun entry => kind.id entry = id

/-- Append, replace in place, remove, permute: what the operations do to the list. -/
def OrderedList.perform (kind : OrderedKind Fields Entry) (list : OrderedList Entry) :
    OrderedCall Fields Entry → OrderedList Entry
  | .create fields =>
    ⟨list.entries ++ [kind.entry (list.issued + 1) fields], list.issued + 1⟩
  | .update entry =>
    { list with entries := list.entries.map fun other =>
        if kind.id other = kind.id entry then entry else other }
  | .delete id => { list with entries := list.entries.filter fun entry => kind.id entry ≠ id }
  | .reorder ids =>
    if ids.Perm (list.entries.map kind.id) then
      { list with entries := arranged kind list.entries ids }
    else list

/-- A table holds a list: some order of its rows has strictly growing positions and the entries
of the list. No two entries have one id, and none has one that was not issued. -/
structure OrderedTable.Holds (kind : OrderedKind Fields Entry) (table : OrderedTable Entry)
    (list : OrderedList Entry) : Prop where
  sorted : ∃ rows : List (OrderedRow Entry), rows.Perm table.rows ∧
    rows.Pairwise (fun row other => row.position < other.position) ∧
    list.entries = rows.map OrderedRow.entry
  distinct : (list.entries.map kind.id).Nodup
  issued : ∀ entry ∈ list.entries, kind.id entry ≤ list.issued
  seq : table.seq = list.issued

/-! ### Reading the table -/

variable {kind : OrderedKind Fields Entry} {table : OrderedTable Entry} {list : OrderedList Entry}

/-- A table lists what it holds. -/
theorem OrderedTable.Holds.listOrdered_eq (holds : table.Holds kind list) :
    listOrdered kind table = list.entries := by
  obtain ⟨rows, same, grows, entries⟩ := holds.sorted
  have total : ∀ row other : OrderedRow Entry,
      (OrderedRow.before kind row other || OrderedRow.before kind other row) = true := by
    intro row other
    simp only [OrderedRow.before, Bool.or_eq_true, Bool.and_eq_true, decide_eq_true_eq]
    omega
  have transitive : ∀ row other last : OrderedRow Entry, OrderedRow.before kind row other = true →
      OrderedRow.before kind other last = true → OrderedRow.before kind row last = true := by
    intro row other last
    simp only [OrderedRow.before, Bool.or_eq_true, Bool.and_eq_true, decide_eq_true_eq]
    omega
  have strict : rows.Pairwise fun row other => OrderedRow.before kind row other = true ∧
      OrderedRow.before kind other row = false := by
    refine grows.imp fun {row other} less => ⟨?_, ?_⟩
    · simp [OrderedRow.before, less]
    · simp only [OrderedRow.before, Bool.or_eq_false_iff, Bool.and_eq_false_iff,
        decide_eq_false_iff_not]
      omega
  have equal := mergeSort_eq_of_strict transitive total same strict
  rw [listOrdered, equal, entries]

/-- The positions of a table that holds a list are pairwise distinct. -/
theorem OrderedTable.Holds.positions (holds : table.Holds kind list) :
    (table.rows.map OrderedRow.position).Nodup := by
  obtain ⟨rows, same, grows, -⟩ := holds.sorted
  have positions : (rows.map OrderedRow.position).Nodup :=
    List.pairwise_map.mpr (grows.imp Int.ne_of_lt)
  exact (same.map _).nodup_iff.mp positions

/-- The ids of a table are those of the list. -/
theorem OrderedTable.Holds.ids (holds : table.Holds kind list) :
    (list.entries.map kind.id).Perm (table.rows.map fun row => kind.id row.entry) := by
  obtain ⟨rows, same, -, entries⟩ := holds.sorted
  rw [entries, List.map_map]
  exact same.map _

/-! ### The check of a reorder -/

theorem checkEach_eq_ok {existing : Finset Int} {ids : List Int} :
    checkEach existing ids = .ok () ↔ ids.Nodup ∧ ∀ id ∈ ids, id ∈ existing := by
  induction ids generalizing existing with
  | nil => simp [checkEach]
  | cons id rest inductionHypothesis =>
    rw [checkEach]
    split
    · rename_i present
      rw [inductionHypothesis, List.nodup_cons]
      constructor
      · rintro ⟨distinct, each⟩
        refine ⟨⟨fun again => ?_, distinct⟩, ?_⟩
        · exact (Finset.mem_erase.mp (each id again)).1 rfl
        · intro other member
          rcases List.mem_cons.mp member with rfl | later
          · exact present
          · exact (Finset.mem_erase.mp (each other later)).2
      · rintro ⟨⟨fresh, distinct⟩, each⟩
        refine ⟨distinct, fun other later => Finset.mem_erase.mpr ⟨?_, ?_⟩⟩
        · rintro rfl
          exact fresh later
        · exact each other (List.mem_cons_of_mem _ later)
    · rename_i absent
      simp [absent]

/-- The check passes exactly the permutations of the ids. -/
theorem checkIDSet_eq_ok {present ids : List Int} (distinct : present.Nodup) :
    checkIDSet present.toFinset ids = .ok () ↔ ids.Perm present := by
  have count : present.toFinset.card = present.length :=
    List.toFinset_card_of_nodup distinct
  rw [checkIDSet]
  split
  · rename_i different
    refine ⟨nofun, fun same => absurd ?_ different⟩
    rw [count, same.length_eq]
  · rename_i sameLength
    rw [not_not, count] at sameLength
    rw [checkEach_eq_ok]
    simp only [List.mem_toFinset]
    constructor
    · rintro ⟨once, each⟩
      exact (List.subperm_of_subset once each).perm_of_length_le sameLength.ge
    · intro same
      exact ⟨same.nodup_iff.mpr distinct, fun id member => same.mem_iff.mp member⟩

theorem reorder_cases (kind : OrderedKind Fields Entry) (table : OrderedTable Entry)
    (ids : List Int) :
    (∃ mismatch, reorder kind table ids = (table, .error mismatch)) ∨
      reorder kind table ids =
        ({ table with rows := placeEach kind table.rows 0 ids }, .ok ()) := by
  unfold reorder
  split
  · exact .inl ⟨_, rfl⟩
  · exact .inr rfl

/-- A reorder is accepted exactly if it permutes the list. -/
theorem OrderedTable.Holds.reorder_eq_ok (holds : table.Holds kind list) {ids : List Int} :
    (reorder kind table ids).2 = .ok () ↔ ids.Perm (list.entries.map kind.id) := by
  have distinct := holds.ids.nodup_iff.mp holds.distinct
  rw [holds.ids.congr_right, ← checkIDSet_eq_ok distinct, reorder]
  split
  · rename_i refused
    rw [refused]
  · rename_i passed
    rw [passed]

/-! ### The new positions -/

/-- The row with the position that a reorder gives its id, counted from `index`. -/
def OrderedRow.placed (kind : OrderedKind Fields Entry) (index : Nat) (ids : List Int)
    (row : OrderedRow Entry) : OrderedRow Entry :=
  if kind.id row.entry ∈ ids then
    { row with position := index + ids.idxOf (kind.id row.entry) + 1 }
  else row

/-- Every row gets the place of its id. -/
theorem placeEach_eq (rows : List (OrderedRow Entry)) (index : Nat) {ids : List Int}
    (distinct : ids.Nodup) :
    placeEach kind rows index ids = rows.map (OrderedRow.placed kind index ids) := by
  induction ids generalizing rows index with
  | nil =>
    have unplaced : OrderedRow.placed kind index [] = id := by
      funext row
      simp [OrderedRow.placed]
    rw [unplaced, List.map_id, placeEach]
  | cons id rest inductionHypothesis =>
    obtain ⟨fresh, later⟩ := List.nodup_cons.mp distinct
    rw [placeEach, inductionHypothesis _ _ later, changeRow, List.map_map]
    refine List.map_congr_left fun row _ => ?_
    rw [Function.comp_apply]
    by_cases first : kind.id row.entry = id
    · simp [OrderedRow.placed, first, fresh]
    · by_cases member : kind.id row.entry ∈ rest
      · simp only [OrderedRow.placed, first, ↓reduceIte, member, List.mem_cons, or_true,
          OrderedRow.mk.injEq, true_and]
        rw [List.idxOf_cons_ne _ (Ne.symm first)]
        push_cast
        omega
      · simp [OrderedRow.placed, first, member]

theorem arranged_self {entries : List Entry} (distinct : (entries.map kind.id).Nodup) :
    arranged kind entries (entries.map kind.id) = entries := by
  have finds : ∀ entry ∈ entries,
      (entries.find? fun other => kind.id other = kind.id entry) = some entry := by
    intro entry member
    cases found : entries.find? fun other => kind.id other = kind.id entry with
    | none => exact absurd (decide_eq_true rfl) (List.find?_eq_none.mp found entry member)
    | some other =>
      have same : kind.id other = kind.id entry := by simpa using List.find?_some found
      rw [List.inj_on_of_nodup_map distinct (List.mem_of_find?_eq_some found) member same]
  rw [arranged, List.filterMap_map]
  calc entries.filterMap _ = entries.filterMap some := List.filterMap_congr finds
    _ = entries := List.filterMap_some

/-- Arranging permutes. -/
theorem arranged_perm {entries : List Entry} (distinct : (entries.map kind.id).Nodup)
    {ids : List Int} (same : ids.Perm (entries.map kind.id)) :
    (arranged kind entries ids).Perm entries := by
  have permuted := same.filterMap fun id => entries.find? fun entry => kind.id entry = id
  exact permuted.trans (.of_eq (arranged_self distinct))

/-- The arranged entries have the ids asked for, in their order. -/
theorem map_id_arranged {entries : List Entry} {ids : List Int}
    (each : ∀ id ∈ ids, id ∈ entries.map kind.id) :
    (arranged kind entries ids).map kind.id = ids := by
  rw [arranged, List.map_filterMap]
  calc ids.filterMap _ = ids.filterMap some := by
        refine List.filterMap_congr fun id member => ?_
        cases found : entries.find? fun entry => kind.id entry = id with
        | none =>
          obtain ⟨entry, here, same⟩ := List.mem_map.mp (each id member)
          exact absurd (decide_eq_true same) (List.find?_eq_none.mp found entry here)
        | some entry =>
          have same : kind.id entry = id := by simpa using List.find?_some found
          rw [Option.map_some, same]
    _ = ids := List.filterMap_some

/-- A reorder that permutes the ids permutes the list. -/
theorem OrderedTable.Holds.place (holds : table.Holds kind list) {ids : List Int}
    (permutes : ids.Perm (list.entries.map kind.id)) :
    ({ table with rows := placeEach kind table.rows 0 ids } : OrderedTable Entry).Holds kind
      { list with entries := arranged kind list.entries ids } := by
  obtain ⟨rows, same, grows, entries⟩ := holds.sorted
  have once : ids.Nodup := permutes.nodup_iff.mpr holds.distinct
  have permuted := arranged_perm holds.distinct permutes
  have ordered : (arranged kind list.entries ids).map kind.id = ids :=
    map_id_arranged fun id member => permutes.mem_iff.mp member
  refine ⟨⟨(arranged kind list.entries ids).map fun entry =>
    ⟨entry, ids.idxOf (kind.id entry) + 1⟩, ?_, ?_, ?_⟩, ?_, ?_, holds.seq⟩
  · -- Every row has an id of the list, so what it is after the loop follows from its entry.
    have placed : table.rows.map (OrderedRow.placed kind 0 ids) =
        (table.rows.map OrderedRow.entry).map fun entry =>
          ⟨entry, ids.idxOf (kind.id entry) + 1⟩ := by
      rw [List.map_map]
      refine List.map_congr_left fun row member => ?_
      have among : kind.id row.entry ∈ ids := by
        refine permutes.mem_iff.mpr (holds.ids.mem_iff.mpr ?_)
        exact List.mem_map_of_mem member
      simp [OrderedRow.placed, among]
    dsimp only
    rw [placeEach_eq table.rows 0 once, placed]
    refine List.Perm.map _ (permuted.trans ?_)
    rw [entries]
    exact same.map _
  · refine List.pairwise_map.mpr ?_
    have increases : ids.Pairwise fun id other => ids.idxOf id < ids.idxOf other := by
      rw [List.pairwise_iff_getElem]
      intro first second firstBound secondBound less
      rwa [once.idxOf_getElem, once.idxOf_getElem]
    rw [← ordered, List.pairwise_map, ordered] at increases
    refine increases.imp fun {entry other} less => ?_
    dsimp only
    omega
  · rw [List.map_map]
    exact (List.map_id _).symm
  · rw [ordered]
    exact once
  · intro entry member
    exact holds.issued entry (permuted.mem_iff.mp member)

/-! ### One operation -/

/-- The largest position is no smaller than any. -/
theorem le_maxPosition {rows : List (OrderedRow Entry)} {row : OrderedRow Entry}
    (member : row ∈ rows) : row.position ≤ maxPosition rows := by
  have among : row.position ∈ rows.map OrderedRow.position := List.mem_map_of_mem member
  unfold maxPosition
  cases largest : (rows.map OrderedRow.position).max? with
  | none =>
    rw [List.max?_eq_none_iff] at largest
    rw [largest] at among
    cases among
  | some position => exact (List.max?_eq_some_iff.mp largest).2 _ among

/-- Changing the entries of the rows that keep their ids and positions changes the list alike. -/
theorem OrderedTable.Holds.update (holds : table.Holds kind list) (entry : Entry) :
    (updateOrdered kind table entry).Holds kind (list.perform kind (.update entry)) := by
  obtain ⟨rows, same, grows, entries⟩ := holds.sorted
  have kept : ∀ other, kind.id (if kind.id other = kind.id entry then entry else other) =
      kind.id other := by
    intro other
    split
    · rename_i target
      exact target.symm
    · rfl
  refine ⟨⟨_, same.map _, ?_, ?_⟩, ?_, ?_, holds.seq⟩
  · refine List.pairwise_map.mpr (grows.imp fun {row other} less => ?_)
    split <;> split <;> exact less
  · simp only [OrderedList.perform, entries, List.map_map]
    refine List.map_congr_left fun row _ => ?_
    rw [Function.comp_apply, Function.comp_apply]
    split <;> rfl
  · simp only [OrderedList.perform, List.map_map]
    have ids : kind.id ∘ (fun other => if kind.id other = kind.id entry then entry else other) =
        kind.id := funext kept
    rw [ids]
    exact holds.distinct
  · intro other member
    obtain ⟨before, here, rfl⟩ := List.mem_map.mp member
    rw [kept]
    exact holds.issued before here

/-- Every operation does to the table what it does to the list. -/
theorem OrderedTable.Holds.perform (holds : table.Holds kind list)
    (call : OrderedCall Fields Entry) :
    (call.perform kind table).Holds kind (list.perform kind call) := by
  obtain ⟨rows, same, grows, entries⟩ := holds.sorted
  cases call with
  | create fields =>
    refine ⟨⟨rows ++ [⟨_, maxPosition table.rows + 1⟩], same.append_right _, ?_, ?_⟩, ?_, ?_, ?_⟩
    · refine List.pairwise_append.mpr ⟨grows, List.pairwise_singleton _ _, ?_⟩
      intro row member other new
      obtain rfl := List.mem_singleton.mp new
      exact Int.lt_add_one_of_le (le_maxPosition (same.mem_iff.mp member))
    · simp [OrderedList.perform, entries, holds.seq]
    · rw [OrderedList.perform, List.map_append, List.map_singleton, kind.id_entry]
      refine List.nodup_append'.mpr ⟨holds.distinct, List.nodup_singleton _, ?_⟩
      rintro id member new
      obtain rfl := List.mem_singleton.mp new
      obtain ⟨entry, here, large⟩ := List.mem_map.mp member
      have bound := holds.issued entry here
      omega
    · intro entry member
      rcases List.mem_append.mp member with old | new
      · exact (holds.issued entry old).trans (Int.le_add_one (Int.le_refl _))
      · obtain rfl := List.mem_singleton.mp new
        exact (kind.id_entry _ _).le
    · exact congrArg (· + 1) holds.seq
  | update entry => exact holds.update entry
  | delete id =>
    refine ⟨⟨_, same.filter _, grows.filter _, ?_⟩, ?_, ?_, holds.seq⟩
    · simp only [OrderedList.perform, entries, List.filter_map]
      rfl
    · exact holds.distinct.sublist (List.filter_sublist.map _)
    · intro entry member
      exact holds.issued entry (List.mem_filter.mp member).1
  | reorder ids =>
    simp only [OrderedCall.perform, OrderedList.perform]
    split
    · rename_i permutes
      have accepted := holds.reorder_eq_ok.mpr permutes
      rcases reorder_cases kind table ids with ⟨mismatch, refused⟩ | written
      · rw [refused] at accepted
        cases accepted
      · rw [written]
        exact holds.place permutes
    · rename_i mismatched
      rcases reorder_cases kind table ids with ⟨mismatch, refused⟩ | written
      · rw [refused]
        exact holds
      · exact absurd (holds.reorder_eq_ok.mp (congrArg Prod.snd written)) mismatched

/-- A table after any operations holds the list after them. -/
theorem holds_of_calls (kind : OrderedKind Fields Entry) (calls : List (OrderedCall Fields Entry)) :
    (calls.foldl (OrderedCall.perform kind) emptyTable).Holds kind
      (calls.foldl (OrderedList.perform kind) emptyList) := by
  induction calls using List.reverseRecOn with
  | nil => exact ⟨⟨[], .nil, .nil, rfl⟩, .nil, by simp [emptyList], rfl⟩
  | append_singleton calls call inductionHypothesis =>
    rw [List.foldl_append, List.foldl_append]
    exact inductionHypothesis.perform call

/-- What a table that holds a list shows of it. -/
theorem OrderedTable.Holds.accounts (holds : table.Holds kind list) :
    listOrdered kind table = list.entries ∧
      (∀ fields, listOrdered kind (insertOrdered kind table fields).1 =
        listOrdered kind table ++ [(insertOrdered kind table fields).2]) ∧
      (∀ ids, ((reorder kind table ids).2 = .ok () ↔
          ids.Perm ((listOrdered kind table).map kind.id)) ∧
        ∀ mismatch, (reorder kind table ids).2 = .error mismatch →
          (reorder kind table ids).1 = table) ∧
      (table.rows.map OrderedRow.position).Nodup := by
  have lists := holds.listOrdered_eq
  refine ⟨lists, ?_, ?_, holds.positions⟩
  · intro fields
    have after : (insertOrdered kind table fields).1.Holds kind _ := holds.perform (.create fields)
    rw [lists, after.listOrdered_eq]
    change _ ++ [kind.entry (list.issued + 1) fields] = _ ++ [kind.entry (table.seq + 1) fields]
    rw [holds.seq]
  · intro ids
    rw [lists]
    refine ⟨holds.reorder_eq_ok, fun mismatch refused => ?_⟩
    rcases reorder_cases kind table ids with ⟨other, same⟩ | written
    · rw [same]
    · rw [written] at refused
      cases refused

end Tables

/-! ### Tools -/

/-- The table `tools`. -/
def toolKind : OrderedKind (List Char × List Char) Tool where
  entry id fields := ⟨id, fields.1, fields.2⟩
  id := Tool.id
  id_entry _ _ := rfl

/-- A tool at the end of the list. -/
def createTool (tools : OrderedTable Tool) (name command : List Char) :
    OrderedTable Tool × Tool :=
  insertOrdered toolKind tools (name, command)

/-- The tools in their order. -/
def listTools (tools : OrderedTable Tool) : List Tool := listOrdered toolKind tools

/-- The name and the command of a tool. -/
def updateTool (tools : OrderedTable Tool) (tool : Tool) : OrderedTable Tool :=
  updateOrdered toolKind tools tool

/-- A tool is gone. -/
def deleteTool (tools : OrderedTable Tool) (id : Int) : OrderedTable Tool :=
  deleteOrdered toolKind tools id

/-- The tools in another order. -/
def reorderTools (tools : OrderedTable Tool) (ids : List Int) :
    OrderedTable Tool × Except OrderMismatch Unit :=
  reorder toolKind tools ids

/-- The operations on the tools. -/
inductive ToolCall
  | create (name command : List Char)
  | update (tool : Tool)
  | delete (id : Int)
  | reorder (ids : List Int)

/-- What an operation makes of the tools. -/
def ToolCall.perform (tools : OrderedTable Tool) : ToolCall → OrderedTable Tool
  | .create name command => (createTool tools name command).1
  | .update tool => updateTool tools tool
  | .delete id => deleteTool tools id
  | .reorder ids => (reorderTools tools ids).1

/-- What the call does to a list. -/
def ToolCall.ordered : ToolCall → OrderedCall (List Char × List Char) Tool
  | .create name command => .create (name, command)
  | .update tool => .update tool
  | .delete id => .delete id
  | .reorder ids => .reorder ids

theorem ToolCall.perform_eq (tools : OrderedTable Tool) (call : ToolCall) :
    call.perform tools = call.ordered.perform toolKind tools := by
  cases call <;> rfl

/-- The table and the list after some calls. -/
def toolsAfter (calls : List ToolCall) : OrderedTable Tool :=
  calls.foldl ToolCall.perform emptyTable

/-- The plain list after the same calls. -/
def toolListAfter (calls : List ToolCall) : OrderedList Tool :=
  (calls.map ToolCall.ordered).foldl (OrderedList.perform toolKind) emptyList

theorem toolsAfter_holds (calls : List ToolCall) :
    (toolsAfter calls).Holds toolKind (toolListAfter calls) := by
  have same : toolsAfter calls =
      (calls.map ToolCall.ordered).foldl (OrderedCall.perform toolKind) emptyTable := by
    rw [toolsAfter, List.foldl_map]
    congr 1
    funext tools call
    exact call.perform_eq tools
  rw [same]
  exact holds_of_calls toolKind _

/-! ### Directories -/

/-- A directory as the store keeps it. -/
structure DirRow where
  id : Int
  name : List Char
  path : List Char

/-- The table `dirs`. -/
def dirKind : OrderedKind (List Char × List Char) DirRow where
  entry id fields := ⟨id, fields.1, fields.2⟩
  id := DirRow.id
  id_entry _ _ := rfl

/-- A directory at the end of the list. -/
def createDir (dirs : OrderedTable DirRow) (name path : List Char) :
    OrderedTable DirRow × DirRow :=
  insertOrdered dirKind dirs (name, path)

/-- The directories in their order. -/
def listDirs (dirs : OrderedTable DirRow) : List DirRow := listOrdered dirKind dirs

/-- A directory is gone. -/
def deleteDir (dirs : OrderedTable DirRow) (id : Int) : OrderedTable DirRow :=
  deleteOrdered dirKind dirs id

/-- The directories in another order. -/
def reorderDirs (dirs : OrderedTable DirRow) (ids : List Int) :
    OrderedTable DirRow × Except OrderMismatch Unit :=
  reorder dirKind dirs ids

/-- No operation updates a directory. -/
inductive DirCall
  | create (name path : List Char)
  | delete (id : Int)
  | reorder (ids : List Int)

/-- What an operation makes of the directories. -/
def DirCall.perform (dirs : OrderedTable DirRow) : DirCall → OrderedTable DirRow
  | .create name path => (createDir dirs name path).1
  | .delete id => deleteDir dirs id
  | .reorder ids => (reorderDirs dirs ids).1

/-- What the call does to a list. -/
def DirCall.ordered : DirCall → OrderedCall (List Char × List Char) DirRow
  | .create name path => .create (name, path)
  | .delete id => .delete id
  | .reorder ids => .reorder ids

theorem DirCall.perform_eq (dirs : OrderedTable DirRow) (call : DirCall) :
    call.perform dirs = call.ordered.perform dirKind dirs := by
  cases call <;> rfl

/-- The table after some calls. -/
def dirsAfter (calls : List DirCall) : OrderedTable DirRow :=
  calls.foldl DirCall.perform emptyTable

/-- The plain list after the same calls. -/
def dirListAfter (calls : List DirCall) : OrderedList DirRow :=
  (calls.map DirCall.ordered).foldl (OrderedList.perform dirKind) emptyList

theorem dirsAfter_holds (calls : List DirCall) :
    (dirsAfter calls).Holds dirKind (dirListAfter calls) := by
  have same : dirsAfter calls =
      (calls.map DirCall.ordered).foldl (OrderedCall.perform dirKind) emptyTable := by
    rw [dirsAfter, List.foldl_map]
    congr 1
    funext dirs call
    exact call.perform_eq dirs
  rw [same]
  exact holds_of_calls dirKind _

/-! ### The lists -/

/-- After any calls the tools and the directories are listed as the plain lists after the same
calls. A create answers with what it appended, a reorder is accepted exactly if its ids permute
those of the list and changes nothing otherwise, and positions are pairwise distinct. -/
theorem orderedLists_refine :
    (∀ calls : List ToolCall,
      listTools (toolsAfter calls) = (toolListAfter calls).entries ∧
      (∀ name command, listTools (createTool (toolsAfter calls) name command).1 =
        listTools (toolsAfter calls) ++ [(createTool (toolsAfter calls) name command).2]) ∧
      (∀ ids, ((reorderTools (toolsAfter calls) ids).2 = .ok () ↔
          ids.Perm ((listTools (toolsAfter calls)).map Tool.id)) ∧
        ∀ mismatch, (reorderTools (toolsAfter calls) ids).2 = .error mismatch →
          (reorderTools (toolsAfter calls) ids).1 = toolsAfter calls) ∧
      ((toolsAfter calls).rows.map OrderedRow.position).Nodup) ∧
    ∀ calls : List DirCall,
      listDirs (dirsAfter calls) = (dirListAfter calls).entries ∧
      (∀ name path, listDirs (createDir (dirsAfter calls) name path).1 =
        listDirs (dirsAfter calls) ++ [(createDir (dirsAfter calls) name path).2]) ∧
      (∀ ids, ((reorderDirs (dirsAfter calls) ids).2 = .ok () ↔
          ids.Perm ((listDirs (dirsAfter calls)).map DirRow.id)) ∧
        ∀ mismatch, (reorderDirs (dirsAfter calls) ids).2 = .error mismatch →
          (reorderDirs (dirsAfter calls) ids).1 = dirsAfter calls) ∧
      ((dirsAfter calls).rows.map OrderedRow.position).Nodup := by
  constructor
  · intro calls
    obtain ⟨lists, appends, accepts, positions⟩ := (toolsAfter_holds calls).accounts
    exact ⟨lists, fun name command => appends (name, command), accepts, positions⟩
  · intro calls
    obtain ⟨lists, appends, accepts, positions⟩ := (dirsAfter_holds calls).accounts
    exact ⟨lists, fun name path => appends (name, path), accepts, positions⟩

end Multimux
