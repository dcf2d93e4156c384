/-
This file models the reordering of a settings list in the browser: the list as
it was fetched, the copy that a move puts over it, the requests that save moves
and the fetch that follows each of them, with the table of the server behind
them. The copy is dropped when a save fails and when the ids of the list change,
and never because a save succeeded. The list shown is still the server's as long
as rows are moved as the server has them and stay as they are after a move: what
is added or removed then changes the ids, and a failed save drops the copy.
-/

import Multimux.OrderedRows
import Multimux.Runs

namespace Multimux

section Reorder

variable {Fields Entry : Type*}

/-! ### The hook -/

/-- Move one row; nothing where the list stays the one it was. -/
def moved (items : List Entry) (source target : Int) : Option (List Entry) :=
  if source = target ∨ source < 0 ∨ target < 0 ∨ items.length ≤ source ∨ items.length ≤ target then
    none
  else
    items[source.toNat]?.map fun row => (items.eraseIdx source.toNat).insertIdx target.toNat row

/-- A save under way, and what the server answered: nothing yet, or with an error if it has one. -/
structure OrderSave where
  ids : List Int
  answer : Option (Option String)
  deriving DecidableEq

/-- A list as the server answered it. `completed` is a history variable: the number of saves that
were completed then. -/
structure FetchedList (Entry : Type*) where
  list : List Entry
  completed : Nat
  deriving DecidableEq

/-- How far the last move came: there is none, or a save failed since; its save was not served
yet; it was. -/
inductive LastMove
  | undone
  | sent
  | served
  deriving DecidableEq

/-- The server's table and a panel: what was fetched, the fetch that is out with its answer, and
the state of the hook. `completed` and `lastMove` are history variables: the number of completed
saves, and how far the last move came. -/
structure ReorderPanel (Entry : Type*) where
  server : OrderedTable Entry
  data : Option (FetchedList Entry)
  fetching : Option (Option (FetchedList Entry))
  pending : Option (List Entry)
  error : Option String
  saves : List OrderSave
  completed : Nat
  lastMove : LastMove

/-- A panel that was just opened, over a table of the server. -/
def openedPanel (server : OrderedTable Entry) : ReorderPanel Entry where
  server
  data := none
  fetching := some none
  pending := none
  error := none
  saves := []
  completed := 0
  lastMove := .undone

/-- The list that `useReorder` is given: the fetched one, if there is one. -/
def ReorderPanel.items (panel : ReorderPanel Entry) : List Entry :=
  (panel.data.map FetchedList.list).getD []

/-- The list has the ids of the copy. -/
def sameIds (kind : OrderedKind Fields Entry) (copy items : List Entry) : Bool :=
  copy.length = items.length ∧
    copy.all fun row => items.any fun item => kind.id item = kind.id row

/-- The list that `useReorder` returns. -/
def ReorderPanel.ordered (kind : OrderedKind Fields Entry) (panel : ReorderPanel Entry) :
    List Entry :=
  match panel.pending with
  | none => panel.items
  | some copy => if sameIds kind copy panel.items then copy else panel.items

/-- Fetch the list anew; the answer of a fetch before is not used any more. -/
def ReorderPanel.reload (panel : ReorderPanel Entry) : ReorderPanel Entry :=
  { panel with fetching := some none }

/-- What happens to a panel and to the table behind it. -/
inductive ReorderEvent (Fields Entry : Type*)
  | move (source target : Int)
  | call (call : OrderedCall Fields Entry)
  | serve (index : Nat) (failure : Option String)
  | settle (index : Nat) (lost : Option String)
  | reload
  | answer
  | deliver
  | fetchFails

/-- A save is completed; its error drops the copy. -/
def ReorderPanel.settled (panel : ReorderPanel Entry) (index : Nat) (error : Option String) :
    ReorderPanel Entry :=
  let panel := { panel with saves := panel.saves.eraseIdx index, completed := panel.completed + 1 }
  match error with
  | none => panel.reload
  | some text =>
    { panel with pending := none, error := some text, lastMove := .undone }.reload

/-- A move by the user, a call of anyone, the server's part of a save and its end, the answer of a
fetch and its end. -/
def stepReorder (kind : OrderedKind Fields Entry) (panel : ReorderPanel Entry) :
    ReorderEvent Fields Entry → Option (ReorderPanel Entry)
  | .move source target =>
    match moved (panel.ordered kind) source target with
    | none => some panel
    | some next => some { panel with
        pending := some next
        error := none
        saves := panel.saves ++ [⟨next.map kind.id, none⟩]
        lastMove := .sent }
  | .call call => some { panel with server := call.perform kind panel.server }
  | .serve index failure =>
    match panel.saves[index]? with
    | some ⟨ids, none⟩ =>
      let served : OrderedTable Entry × Option String :=
        match failure with
        | some text => (panel.server, some text)
        | none =>
          match reorder kind panel.server ids with
          | (table, .ok ()) => (table, none)
          | (table, .error mismatch) => (table, some mismatch.message)
      some { panel with
        server := served.1
        saves := panel.saves.set index ⟨ids, some served.2⟩
        lastMove :=
          if panel.lastMove = .sent ∧ index + 1 = panel.saves.length then .served
          else panel.lastMove }
    | _ => none
  | .settle index lost =>
    match panel.saves[index]?, lost with
    | none, _ => none
    | some _, some text => some (panel.settled index (some text))
    | some save, none => save.answer.map (panel.settled index)
  | .reload => some panel.reload
  | .answer =>
    match panel.fetching with
    | some none =>
      some { panel with fetching := some (some ⟨listOrdered kind panel.server, panel.completed⟩) }
    | _ => none
  | .deliver =>
    match panel.fetching with
    | some (some fetched) => some { panel with data := some fetched, fetching := none }
    | _ => none
  | .fetchFails =>
    if panel.fetching.isSome then some { panel with data := none, fetching := none } else none

/-! ### Rows that stay -/

variable {kind : OrderedKind Fields Entry} {copy rows next : List Entry}

/-- The rows of the one list that the other still has are what they were. -/
def KeepsEntries (kind : OrderedKind Fields Entry) (rows next : List Entry) : Prop :=
  ∀ entry ∈ next, kind.id entry ∈ rows.map kind.id → entry ∈ rows

/-- They are what they were, in the order they had. -/
def KeepsRows (kind : OrderedKind Fields Entry) (rows next : List Entry) : Prop :=
  (next.filter fun entry => kind.id entry ∈ rows.map kind.id).Sublist rows

/-- What else the other list has came with an id above the bound. -/
def AddsAbove (kind : OrderedKind Fields Entry) (bound : Int) (rows next : List Entry) : Prop :=
  ∀ entry ∈ next, kind.id entry ∈ rows.map kind.id ∨ bound < kind.id entry

/-- The rows have an id each, and the server issued it. -/
structure Known (kind : OrderedKind Fields Entry) (issued : Int) (rows : List Entry) : Prop where
  distinct : (rows.map kind.id).Nodup
  bounded : ∀ entry ∈ rows, kind.id entry ≤ issued

theorem Known.mono {issued later : Int} (known : Known kind issued rows) (more : issued ≤ later) :
    Known kind later rows :=
  ⟨known.distinct, fun entry member => (known.bounded entry member).trans more⟩

theorem Known.perm {issued : Int} (known : Known kind issued rows) (same : next.Perm rows) :
    Known kind issued next :=
  ⟨(same.map _).nodup_iff.mpr known.distinct,
    fun entry member => known.bounded entry (same.mem_iff.mp member)⟩

theorem OrderedTable.Holds.known {table : OrderedTable Entry} {list : OrderedList Entry}
    (holds : table.Holds kind list) : Known kind table.seq (listOrdered kind table) := by
  rw [holds.listOrdered_eq, holds.seq]
  exact ⟨holds.distinct, holds.issued⟩

theorem KeepsRows.entries (kept : KeepsRows kind rows next) : KeepsEntries kind rows next :=
  fun _ member among => kept.subset (List.mem_filter.mpr ⟨member, decide_eq_true among⟩)

theorem KeepsRows.refl (rows : List Entry) : KeepsRows kind rows rows := List.filter_sublist

/-- A row that was not added has an id of the list before. -/
theorem AddsAbove.old {issued : Int} (added : AddsAbove kind issued rows next)
    (known : Known kind issued copy) {entry : Entry} (member : entry ∈ next)
    (among : kind.id entry ∈ copy.map kind.id) : kind.id entry ∈ rows.map kind.id := by
  obtain ⟨other, here, same⟩ := List.mem_map.mp among
  refine (added entry member).resolve_right fun above => ?_
  have bound := known.bounded other here
  omega

theorem KeepsEntries.trans {issued : Int} (first : KeepsEntries kind copy rows)
    (second : KeepsEntries kind rows next) (added : AddsAbove kind issued rows next)
    (known : Known kind issued copy) : KeepsEntries kind copy next := by
  intro entry member among
  exact first entry (second entry member (added.old known member among)) among

theorem KeepsRows.trans {issued : Int} (first : KeepsRows kind copy rows)
    (second : KeepsRows kind rows next) (added : AddsAbove kind issued rows next)
    (known : Known kind issued copy) : KeepsRows kind copy next := by
  have twice : (next.filter fun entry => kind.id entry ∈ copy.map kind.id) =
      (next.filter fun entry => kind.id entry ∈ rows.map kind.id).filter fun entry =>
        kind.id entry ∈ copy.map kind.id := by
    rw [List.filter_filter]
    refine List.filter_congr fun entry member => ?_
    by_cases among : kind.id entry ∈ copy.map kind.id
    · simp only [among, added.old known member among, decide_true, Bool.and_self]
    · simp only [among, decide_false, Bool.false_and]
  rw [KeepsRows, twice]
  exact (second.filter _).trans first

/-- A list that keeps the rows of a copy and has its ids is the copy. -/
theorem KeepsRows.eq_of_sameIds (kept : KeepsRows kind copy next)
    (distinct : (copy.map kind.id).Nodup) (same : sameIds kind copy next = true) :
    copy = next := by
  simp only [sameIds, List.all_eq_true, List.any_eq_true, decide_eq_true_eq] at same
  obtain ⟨length, each⟩ := same
  have among : copy.map kind.id ⊆ next.map kind.id := by
    intro id member
    obtain ⟨row, here, rfl⟩ := List.mem_map.mp member
    obtain ⟨item, there, equal⟩ := each row here
    exact List.mem_map.mpr ⟨item, there, equal⟩
  have permutes : (copy.map kind.id).Perm (next.map kind.id) := by
    refine (List.subperm_of_subset distinct among).perm_of_length_le ?_
    rw [List.length_map, List.length_map, length]
  have all : (next.filter fun entry => kind.id entry ∈ copy.map kind.id) = next := by
    refine List.filter_eq_self.mpr fun entry member => decide_eq_true ?_
    exact permutes.mem_iff.mpr (List.mem_map_of_mem member)
  rw [KeepsRows, all] at kept
  exact (kept.eq_of_length length.symm).symm

/-- Entries among those of a copy, with its ids in its order, are the copy. -/
theorem KeepsEntries.eq_of_ids (kept : KeepsEntries kind copy next)
    (distinct : (copy.map kind.id).Nodup) (ids : next.map kind.id = copy.map kind.id) :
    next = copy := by
  have inside : ∀ entry ∈ next, entry ∈ copy := fun entry member =>
    kept entry member (ids ▸ List.mem_map_of_mem member)
  refine List.ext_getElem (by simpa using congrArg List.length ids) fun index first second => ?_
  refine List.inj_on_of_nodup_map distinct (inside _ (List.getElem_mem first))
    (List.getElem_mem second) ?_
  have equal : (next.map kind.id)[index]? = (copy.map kind.id)[index]? := by rw [ids]
  simpa [first, second] using equal

/-- What a call leaves of the list, it leaves under its id. -/
theorem OrderedTable.Holds.adds {table : OrderedTable Entry} {list : OrderedList Entry}
    (holds : table.Holds kind list) (call : OrderedCall Fields Entry) :
    AddsAbove kind table.seq (listOrdered kind table)
        (listOrdered kind (call.perform kind table)) ∧
      table.seq ≤ (call.perform kind table).seq := by
  have after := holds.perform call
  rw [holds.listOrdered_eq, after.listOrdered_eq, holds.seq, after.seq]
  cases call with
  | create fields =>
    refine ⟨fun entry member => ?_, Int.le_add_one (Int.le_refl _)⟩
    rcases List.mem_append.mp member with old | new
    · exact .inl (List.mem_map_of_mem old)
    · obtain rfl := List.mem_singleton.mp new
      exact .inr (by rw [kind.id_entry]; exact Int.lt_succ _)
  | update changed =>
    refine ⟨fun entry member => .inl ?_, Int.le_refl _⟩
    obtain ⟨before, here, rfl⟩ := List.mem_map.mp member
    refine List.mem_map.mpr ⟨before, here, ?_⟩
    split
    · assumption
    · rfl
  | delete id =>
    exact ⟨fun entry member => .inl (List.mem_map_of_mem (List.mem_filter.mp member).1),
      Int.le_refl _⟩
  | reorder ids =>
    simp only [OrderedList.perform]
    split
    · rename_i permutes
      refine ⟨fun entry member => .inl ?_, Int.le_refl _⟩
      exact List.mem_map_of_mem ((arranged_perm holds.distinct permutes).mem_iff.mp member)
    · exact ⟨fun entry member => .inl (List.mem_map_of_mem member), Int.le_refl _⟩

/-- A row that was moved is at another place of the same list. -/
theorem moved_perm {source target : Int} (moves : moved rows source target = some next) :
    next.Perm rows := by
  unfold moved at moves
  split at moves
  · cases moves
  · rename_i inside
    simp only [not_or, not_lt, not_le] at inside
    obtain ⟨row, found, rfl⟩ := Option.map_eq_some_iff.mp moves
    obtain ⟨bound, rfl⟩ := List.getElem?_eq_some_iff.mp found
    refine (List.perm_insertIdx _ _ ?_).trans (List.getElem_cons_eraseIdx_perm bound)
    rw [List.length_eraseIdx_of_lt bound]
    omega

/-! ### What the panel shows -/

variable {panel : ReorderPanel Entry}

/-- With no save under way, a list that was answered after the last save is the one returned. -/
def ReorderPanel.ShowsServer (kind : OrderedKind Fields Entry) (panel : ReorderPanel Entry) :
    Prop :=
  panel.saves = [] → ∀ list, panel.data = some ⟨list, panel.completed⟩ →
    panel.ordered kind = list

/-- Rows are moved as the server has them. After a move, until a save fails, no call changes a
row, and once the move's save was served, no call and no earlier save changes their order. -/
def LeavesMoved (kind : OrderedKind Fields Entry) (panel : ReorderPanel Entry) :
    ReorderEvent Fields Entry → Prop
  | .move source target => moved panel.items source target ≠ none →
    KeepsEntries kind panel.items (listOrdered kind panel.server)
  | .call call =>
    (panel.lastMove ≠ .undone →
      KeepsEntries kind (listOrdered kind panel.server)
        (listOrdered kind (call.perform kind panel.server))) ∧
    (panel.lastMove = .served →
      KeepsRows kind (listOrdered kind panel.server)
        (listOrdered kind (call.perform kind panel.server)))
  | .serve index failure => panel.lastMove = .served → failure = none →
    ∀ save, panel.saves[index]? = some save →
      KeepsRows kind (listOrdered kind panel.server)
        (listOrdered kind (reorder kind panel.server save.ids).1)
  | _ => True

/-- A list that the panel got: it is shown, or on its way. -/
def ReorderPanel.Has (panel : ReorderPanel Entry) (fetched : FetchedList Entry) : Prop :=
  panel.data = some fetched ∨ panel.fetching = some (some fetched)

/-- The copy of the last move: its save is the last one under way, or the server took it, or
answered it with an error. -/
def ReorderPanel.Carries (kind : OrderedKind Fields Entry) (panel : ReorderPanel Entry)
    (copy : List Entry) : Prop :=
  match panel.lastMove with
  | .undone => False
  | .sent => ∃ earlier, panel.saves = earlier ++ [⟨copy.map kind.id, none⟩]
  | .served => (∃ save ∈ panel.saves, ∃ text, save.answer = some (some text)) ∨
    KeepsRows kind copy (listOrdered kind panel.server)

/-- A copy has the rows as the server has them, and a list that was answered after the last save
keeps them. -/
structure ReorderPanel.Tracks (kind : OrderedKind Fields Entry) (panel : ReorderPanel Entry) :
    Prop where
  server : ∃ list, panel.server.Holds kind list
  lists : ∀ fetched, panel.Has fetched →
    fetched.completed ≤ panel.completed ∧ Known kind panel.server.seq fetched.list
  copies : ∀ copy, panel.pending = some copy → Known kind panel.server.seq copy ∧
    KeepsEntries kind copy (listOrdered kind panel.server) ∧ panel.Carries kind copy
  kept : ∀ fetched, panel.Has fetched → fetched.completed = panel.completed → panel.saves = [] →
    ∀ copy, panel.pending = some copy → KeepsRows kind copy fetched.list

theorem openedPanel_tracks {server : OrderedTable Entry} {list : OrderedList Entry}
    (holds : server.Holds kind list) : (openedPanel server).Tracks kind :=
  ⟨⟨list, holds⟩, by simp [ReorderPanel.Has, openedPanel], nofun,
    by simp [ReorderPanel.Has, openedPanel]⟩

/-- What is returned depends on the copy and the fetched list. -/
theorem ReorderPanel.ordered_eq_iff {list : List Entry} (items : panel.items = list) :
    panel.ordered kind = list ↔
      ∀ copy, panel.pending = some copy → sameIds kind copy list = true → copy = list := by
  unfold ReorderPanel.ordered
  cases pending : panel.pending with
  | none => simp [items]
  | some copy =>
    dsimp only
    rw [items]
    split_ifs with same
    · simp [same]
    · simp [same]

theorem ReorderPanel.Tracks.showsServer (tracks : panel.Tracks kind) : panel.ShowsServer kind := by
  intro saved list there
  have items : panel.items = list := by rw [ReorderPanel.items, there]; rfl
  refine (ReorderPanel.ordered_eq_iff items).mpr fun copy pending same => ?_
  have kept := tracks.kept _ (.inl there) rfl saved copy pending
  exact kept.eq_of_sameIds (tracks.copies copy pending).1.distinct same

/-- A row is moved in the copy, or in the fetched list. -/
theorem ReorderPanel.ordered_cases (kind : OrderedKind Fields Entry)
    (panel : ReorderPanel Entry) :
    panel.ordered kind = panel.items ∨ panel.pending = some (panel.ordered kind) := by
  unfold ReorderPanel.ordered
  cases pending : panel.pending with
  | none => exact .inl rfl
  | some copy =>
    dsimp only
    split_ifs
    · exact .inr rfl
    · exact .inl rfl

/-- The fetched list has ids that the server issued. -/
theorem ReorderPanel.Tracks.items (tracks : panel.Tracks kind) :
    Known kind panel.server.seq panel.items := by
  rw [ReorderPanel.items]
  cases data : panel.data with
  | none => exact ⟨List.nodup_nil, fun _ member => absurd member List.not_mem_nil⟩
  | some fetched => exact (tracks.lists fetched (.inl data)).2

/-- What a move puts over the list is as the server has it. -/
theorem ReorderPanel.Tracks.moved (tracks : panel.Tracks kind) {source target : Int}
    (asServer : Multimux.moved panel.items source target ≠ none →
      KeepsEntries kind panel.items (listOrdered kind panel.server))
    {copy : List Entry} (moves : Multimux.moved (panel.ordered kind) source target = some copy) :
    Known kind panel.server.seq copy ∧
      KeepsEntries kind copy (listOrdered kind panel.server) := by
  have same := moved_perm moves
  have ids := same.map kind.id
  have shown : Known kind panel.server.seq (panel.ordered kind) ∧
      KeepsEntries kind (panel.ordered kind) (listOrdered kind panel.server) := by
    rcases panel.ordered_cases kind with fetched | pending
    · rw [fetched] at moves ⊢
      refine ⟨tracks.items, asServer ?_⟩
      rw [moves]
      exact Option.some_ne_none copy
    · obtain ⟨known, entries, -⟩ := tracks.copies _ pending
      exact ⟨known, entries⟩
  refine ⟨shown.1.perm same, fun entry member among => same.mem_iff.mpr ?_⟩
  exact shown.2 entry member (ids.mem_iff.mp among)

/-! ### Each event -/

theorem ReorderPanel.Carries.moved {copy : List Entry} (carries : panel.Carries kind copy) :
    panel.lastMove ≠ .undone := by
  intro undone
  rw [ReorderPanel.Carries, undone] at carries
  exact carries

/-- With no save under way, the server took the last move. -/
theorem ReorderPanel.Carries.kept {copy : List Entry} (carries : panel.Carries kind copy)
    (saved : panel.saves = []) : KeepsRows kind copy (listOrdered kind panel.server) := by
  unfold ReorderPanel.Carries at carries
  rw [saved] at carries
  split at carries
  · exact carries.elim
  · obtain ⟨earlier, spelled⟩ := carries
    simp at spelled
  · rcases carries with ⟨save, member, -⟩ | kept
    · exact absurd member List.not_mem_nil
    · exact kept

theorem ReorderPanel.Tracks.call (tracks : panel.Tracks kind) (call : OrderedCall Fields Entry)
    (leaves : LeavesMoved kind panel (.call call)) :
    ({ panel with server := call.perform kind panel.server } : ReorderPanel Entry).Tracks
      kind := by
  obtain ⟨list, holds⟩ := tracks.server
  obtain ⟨added, grows⟩ := holds.adds call
  refine ⟨⟨_, holds.perform call⟩, fun fetched there => ?_, fun copy pending => ?_, tracks.kept⟩
  · obtain ⟨earlier, known⟩ := tracks.lists fetched there
    exact ⟨earlier, known.mono grows⟩
  · obtain ⟨known, entries, carries⟩ := tracks.copies copy pending
    refine ⟨known.mono grows, entries.trans (leaves.1 carries.moved) added known, ?_⟩
    unfold ReorderPanel.Carries at carries ⊢
    dsimp only
    split at carries
    · exact carries
    · exact carries
    · rename_i served
      exact carries.imp_right fun kept => kept.trans (leaves.2 served) added known

/-- What a served save leaves of the copy of the last move. -/
theorem ReorderPanel.Carries.serve {copy : List Entry} {index : Nat} {ids : List Int}
    {table : OrderedTable Entry} {answer : Option String}
    (carries : panel.Carries kind copy) (unserved : panel.saves[index]? = some ⟨ids, none⟩)
    (last : ids = copy.map kind.id → answer.isSome ∨ KeepsRows kind copy (listOrdered kind table))
    (later : panel.lastMove = .served → KeepsRows kind copy (listOrdered kind panel.server) →
      KeepsRows kind copy (listOrdered kind table)) :
    ({ panel with
        server := table
        saves := panel.saves.set index ⟨ids, some answer⟩
        lastMove :=
          if panel.lastMove = .sent ∧ index + 1 = panel.saves.length then .served
          else panel.lastMove } : ReorderPanel Entry).Carries kind copy := by
  obtain ⟨bound, here⟩ := List.getElem?_eq_some_iff.mp unserved
  unfold ReorderPanel.Carries at carries ⊢
  dsimp only
  split at carries
  · exact carries.elim
  · rename_i sent
    obtain ⟨earlier, spelled⟩ := carries
    rw [sent]
    by_cases newest : index + 1 = panel.saves.length
    · rw [if_pos ⟨rfl, newest⟩]
      have place : index = earlier.length := by simpa [spelled] using newest
      have same : ids = copy.map kind.id := by
        simpa [spelled, place] using unserved.symm
      rcases last same with failed | kept
      · obtain ⟨text, rfl⟩ := Option.isSome_iff_exists.mp failed
        exact .inl ⟨_, List.mem_set bound _, text, rfl⟩
      · exact .inr kept
    · rw [if_neg fun both => newest both.2]
      have before : index < earlier.length := by
        rw [spelled, List.length_append, List.length_singleton] at bound newest
        omega
      exact ⟨earlier.set index ⟨ids, some answer⟩, by rw [spelled, List.set_append_left _ _ before]⟩
  · rename_i served
    rw [served, if_neg fun both => nomatch both.1]
    refine carries.imp ?_ (later served)
    rintro ⟨save, member, text, failed⟩
    obtain ⟨place, there⟩ := List.mem_iff_getElem?.mp member
    have apart : index ≠ place := by
      rintro rfl
      cases there.symm.trans unserved
      cases failed
    exact ⟨save, List.mem_of_getElem? ((List.getElem?_set_ne apart).trans there), text, failed⟩

/-- A save that is answered with an error leaves the table as it is. -/
theorem ReorderPanel.Tracks.refused (tracks : panel.Tracks kind) {index : Nat} {ids : List Int}
    (unserved : panel.saves[index]? = some ⟨ids, none⟩) (text : String) :
    ({ panel with
        saves := panel.saves.set index ⟨ids, some (some text)⟩
        lastMove :=
          if panel.lastMove = .sent ∧ index + 1 = panel.saves.length then .served
          else panel.lastMove } : ReorderPanel Entry).Tracks kind := by
  refine ⟨tracks.server, tracks.lists, fun copy pending => ?_, fun fetched there fresh saved => ?_⟩
  · obtain ⟨known, entries, carries⟩ := tracks.copies copy pending
    exact ⟨known, entries, carries.serve unserved (fun _ => .inl rfl) fun _ kept => kept⟩
  · exact tracks.kept fetched there fresh (by simpa using saved)

/-- A save that is taken brings the rows into the order of its ids. -/
theorem ReorderPanel.Tracks.taken (tracks : panel.Tracks kind) {index : Nat} {ids : List Int}
    (unserved : panel.saves[index]? = some ⟨ids, none⟩)
    (accepted : (reorder kind panel.server ids).2 = .ok ())
    (leaves : panel.lastMove = .served → KeepsRows kind (listOrdered kind panel.server)
      (listOrdered kind (reorder kind panel.server ids).1)) :
    ({ panel with
        server := (reorder kind panel.server ids).1
        saves := panel.saves.set index ⟨ids, some none⟩
        lastMove :=
          if panel.lastMove = .sent ∧ index + 1 = panel.saves.length then .served
          else panel.lastMove } : ReorderPanel Entry).Tracks kind := by
  obtain ⟨list, holds⟩ := tracks.server
  obtain ⟨added, grows⟩ := holds.adds (.reorder ids)
  have permutes := holds.reorder_eq_ok.mp accepted
  have after := holds.perform (.reorder ids)
  have lists : listOrdered kind (reorder kind panel.server ids).1 =
      arranged kind list.entries ids := by
    have listed := after.listOrdered_eq
    rw [OrderedList.perform, if_pos permutes] at listed
    exact listed
  refine ⟨⟨_, after⟩, fun fetched there => ?_, fun copy pending => ?_,
    fun fetched there fresh saved => tracks.kept fetched there fresh (by simpa using saved)⟩
  · obtain ⟨earlier, known⟩ := tracks.lists fetched there
    exact ⟨earlier, known.mono grows⟩
  · obtain ⟨known, entries, carries⟩ := tracks.copies copy pending
    have kept : KeepsEntries kind copy (listOrdered kind (reorder kind panel.server ids).1) := by
      intro entry member among
      refine entries entry ?_ among
      rw [holds.listOrdered_eq]
      exact (arranged_perm holds.distinct permutes).mem_iff.mp (lists ▸ member)
    refine ⟨known.mono grows, kept, carries.serve unserved (fun same => .inr ?_) ?_⟩
    · have arranges : (listOrdered kind (reorder kind panel.server ids).1).map kind.id =
          copy.map kind.id := by
        have ordered := congrArg (List.map kind.id) lists
        rw [map_id_arranged fun id member => permutes.mem_iff.mp member] at ordered
        exact ordered.trans same
      rw [kept.eq_of_ids known.distinct arranges]
      exact KeepsRows.refl copy
    · exact fun served before => before.trans (leaves served) added known

theorem ReorderPanel.Tracks.settled (tracks : panel.Tracks kind) {index : Nat}
    {error : Option String}
    (succeeds : error = none → ∃ ids, panel.saves[index]? = some ⟨ids, some none⟩) :
    (panel.settled index error).Tracks kind := by
  have data : ∀ fetched, (panel.settled index error).Has fetched → panel.Has fetched := by
    intro fetched there
    cases error <;> exact .inl (there.resolve_right nofun)
  have later : (panel.settled index error).completed = panel.completed + 1 := by
    cases error <;> rfl
  have table : (panel.settled index error).server = panel.server := by
    cases error <;> rfl
  refine ⟨table ▸ tracks.server, fun fetched there => ?_, fun copy pending => ?_,
    fun fetched there fresh => ?_⟩
  · obtain ⟨earlier, known⟩ := tracks.lists fetched (data fetched there)
    rw [later, table]
    exact ⟨Nat.le_succ_of_le earlier, known⟩
  · cases error with
    | some text => cases pending
    | none =>
      obtain ⟨ids, there⟩ := succeeds rfl
      obtain ⟨known, entries, carries⟩ := tracks.copies copy pending
      refine ⟨known, entries, ?_⟩
      unfold ReorderPanel.Carries at carries ⊢
      change match panel.lastMove with
        | .undone => False
        | .sent => ∃ earlier, panel.saves.eraseIdx index = earlier ++ [⟨copy.map kind.id, none⟩]
        | .served => (∃ save ∈ panel.saves.eraseIdx index, ∃ text,
            save.answer = some (some text)) ∨ KeepsRows kind copy (listOrdered kind panel.server)
      split at carries
      · exact carries
      · -- the last save is not answered, so it is an earlier one that is completed
        obtain ⟨earlier, spelled⟩ := carries
        rw [spelled] at there ⊢
        have before : index < earlier.length := by
          have bound := (List.getElem?_eq_some_iff.mp there).1
          rw [List.length_append, List.length_singleton] at bound
          refine Nat.lt_of_le_of_ne (Nat.lt_succ_iff.mp bound) ?_
          rintro rfl
          simp at there
        exact ⟨earlier.eraseIdx index, List.eraseIdx_append_of_lt_length before _⟩
      · refine carries.imp_left ?_
        rintro ⟨save, member, text, failed⟩
        obtain ⟨place, found⟩ := List.mem_iff_getElem?.mp member
        refine ⟨save, List.mem_eraseIdx_iff_getElem?.mpr ⟨place, ?_, found⟩, text, failed⟩
        rintro rfl
        cases found.symm.trans there
        cases failed
  · have earlier := (tracks.lists fetched (data fetched there)).1
    omega

/-- A panel with no list that it had not before. -/
theorem ReorderPanel.Tracks.fewer (tracks : panel.Tracks kind) {data : Option (FetchedList Entry)}
    {fetching : Option (Option (FetchedList Entry))}
    (has : ∀ fetched, ({ panel with data, fetching } : ReorderPanel Entry).Has fetched →
      panel.Has fetched) : ({ panel with data, fetching } : ReorderPanel Entry).Tracks kind :=
  ⟨tracks.server, fun fetched there => tracks.lists fetched (has fetched there), tracks.copies,
    fun fetched there => tracks.kept fetched (has fetched there)⟩

/-- A step as permitted keeps what holds of the copy. -/
theorem tracks_step {after : ReorderPanel Entry} {event : ReorderEvent Fields Entry}
    (tracks : panel.Tracks kind) (leaves : LeavesMoved kind panel event)
    (taken : stepReorder kind panel event = some after) : after.Tracks kind := by
  cases event with
  | move source target =>
    simp only [stepReorder] at taken
    split at taken <;> cases taken
    · exact tracks
    · rename_i copy moves
      refine ⟨tracks.server, tracks.lists, fun other pending => ?_, fun _ _ _ saved => ?_⟩
      · obtain rfl : copy = other := Option.some.inj pending
        obtain ⟨known, entries⟩ := tracks.moved leaves moves
        exact ⟨known, entries, panel.saves, rfl⟩
      · simp at saved
  | call call =>
    cases taken
    exact tracks.call call leaves
  | serve index failure =>
    simp only [stepReorder] at taken
    split at taken
    · rename_i ids unserved
      cases taken
      cases failure with
      | some text => exact tracks.refused unserved text
      | none =>
        rcases reorder_cases kind panel.server ids with ⟨mismatch, refused⟩ | written
        · rw [refused]
          exact tracks.refused unserved mismatch.message
        · have accepted := tracks.taken unserved (congrArg Prod.snd written) fun served =>
            leaves served rfl _ unserved
          rw [written] at accepted ⊢
          exact accepted
    · cases taken
  | settle index lost =>
    simp only [stepReorder] at taken
    split at taken
    · cases taken
    · cases taken
      exact tracks.settled nofun
    · rename_i save there
      obtain ⟨error, answered, rfl⟩ := Option.map_eq_some_iff.mp taken
      refine tracks.settled fun succeeded => ⟨save.ids, ?_⟩
      rw [there, ← succeeded, ← answered]
  | reload =>
    cases taken
    exact tracks.fewer fun _ there => .inl (there.resolve_right nofun)
  | answer =>
    simp only [stepReorder] at taken
    split at taken
    · cases taken
      obtain ⟨list, holds⟩ := tracks.server
      refine ⟨⟨list, holds⟩, ?_, tracks.copies, ?_⟩
      · rintro fetched (there | there)
        · exact tracks.lists fetched (.inl there)
        · cases there
          exact ⟨Nat.le_refl _, holds.known⟩
      · rintro fetched (there | there) fresh saved copy pending
        · exact tracks.kept fetched (.inl there) fresh saved copy pending
        · cases there
          exact (tracks.copies copy pending).2.2.kept saved
    · cases taken
  | deliver =>
    simp only [stepReorder] at taken
    split at taken
    · rename_i fetched answered
      cases taken
      refine tracks.fewer fun other there => ?_
      rcases there with delivered | fetching
      · cases delivered
        exact .inr answered
      · cases fetching
    · cases taken
  | fetchFails =>
    simp only [stepReorder] at taken
    split at taken
    · cases taken
      exact tracks.fewer (by simp [ReorderPanel.Has])
    · cases taken

/-- A panel whose rows are moved as the server has them, and are left as they were moved, shows
the server's list once all saves are completed and a list was fetched since. -/
theorem reorder_shows (kind : OrderedKind Fields Entry) (server : OrderedTable Entry)
    (list : OrderedList Entry) (holds : server.Holds kind list)
    (events : List (ReorderEvent Fields Entry)) (final : ReorderPanel Entry)
    (run : Run (stepReorder kind) (LeavesMoved kind) (openedPanel server) events final) :
    final.ShowsServer kind := by
  have tracks : final.Tracks kind := run.invariant (ReorderPanel.Tracks kind)
    (openedPanel_tracks holds) fun _ _ _ => tracks_step
  exact tracks.showsServer

/-- The panel with a list that was answered just now. -/
def ReorderPanel.loaded (panel : ReorderPanel Entry) (list : List Entry) : ReorderPanel Entry :=
  { panel with data := some ⟨list, panel.completed⟩, fetching := none }

theorem ReorderPanel.loaded_items (panel : ReorderPanel Entry) (list : List Entry) :
    (panel.loaded list).items = list := rfl

theorem run_loaded {panel : ReorderPanel Entry} (out : panel.fetching = some none) :
    Run (stepReorder kind) (LeavesMoved kind) panel [.answer, .deliver]
      (panel.loaded (listOrdered kind panel.server)) := by
  refine Run.of_exec ?_ ?_
  · simp [exec, stepReorder, out, ReorderPanel.loaded]
  · simp [Permitted, stepReorder, out, LeavesMoved]

end Reorder

/-- A server with two tools. -/
def twoTools : OrderedTable Tool where
  rows := [⟨⟨1, ['z', 's', 'h'], ['z', 's', 'h']⟩, 1⟩, ⟨⟨2, ['t', 'o', 'p'], ['t', 'o', 'p']⟩, 2⟩]
  seq := 2

theorem listOrdered_twoTools : listOrdered toolKind twoTools =
    [⟨1, ['z', 's', 'h'], ['z', 's', 'h']⟩, ⟨2, ['t', 'o', 'p'], ['t', 'o', 'p']⟩] := by
  simp [listOrdered, twoTools, OrderedRow.before, List.mergeSort,
    List.MergeSort.Internal.splitInTwo]

/-- The second tool is moved to the front, and the move is saved. -/
def movedAndSaved : List (ReorderEvent (List Char × List Char) Tool) :=
  [.answer, .deliver, .move 1 0, .serve 0 none, .settle 0 none]

/-- The panel then fetches the list anew and still holds the copy. -/
theorem run_movedAndSaved : ∃ panel, Run (stepReorder toolKind) (LeavesMoved toolKind)
      (openedPanel twoTools) movedAndSaved panel ∧ panel.saves = [] ∧ panel.fetching = some none ∧
    panel.pending = some [⟨2, ['t', 'o', 'p'], ['t', 'o', 'p']⟩,
      ⟨1, ['z', 's', 'h'], ['z', 's', 'h']⟩] ∧
    panel.server.rows = [⟨⟨1, ['z', 's', 'h'], ['z', 's', 'h']⟩, 2⟩,
      ⟨⟨2, ['t', 'o', 'p'], ['t', 'o', 'p']⟩, 1⟩] := by
  have loaded : Run (stepReorder toolKind) (LeavesMoved toolKind) (openedPanel twoTools)
      [.answer, .deliver] _ := run_loaded rfl
  have asServer : KeepsEntries toolKind
      [⟨1, ['z', 's', 'h'], ['z', 's', 'h']⟩, ⟨2, ['t', 'o', 'p'], ['t', 'o', 'p']⟩]
      (listOrdered toolKind twoTools) := by
    rw [listOrdered_twoTools]
    exact fun _ member _ => member
  rw [show (openedPanel twoTools).server = twoTools from rfl, listOrdered_twoTools] at loaded
  have saved := loaded.append (Run.of_exec
    (show exec (stepReorder toolKind) _ [.move 1 0, .serve 0 none, .settle 0 none] = some _ from
      rfl)
    ⟨fun _ => asServer, fun served => LastMove.noConfusion served, trivial, trivial⟩)
  exact ⟨_, saved, rfl, rfl, rfl, rfl⟩

theorem moved_tools_shown : ∃ final, Run (stepReorder toolKind) (LeavesMoved toolKind)
      (openedPanel twoTools) (movedAndSaved ++ [.answer, .deliver]) final ∧
    final.ordered toolKind = [⟨2, ['t', 'o', 'p'], ['t', 'o', 'p']⟩,
      ⟨1, ['z', 's', 'h'], ['z', 's', 'h']⟩] := by
  obtain ⟨panel, saved, done, out, -, rows⟩ := run_movedAndSaved
  have run := saved.append (run_loaded out)
  have listed : listOrdered toolKind panel.server = [⟨2, ['t', 'o', 'p'], ['t', 'o', 'p']⟩,
      ⟨1, ['z', 's', 'h'], ['z', 's', 'h']⟩] := by
    simp [listOrdered, rows, toolKind, OrderedRow.before, List.mergeSort,
      List.MergeSort.Internal.splitInTwo]
  have holds := holds_of_calls toolKind
    [.create (['z', 's', 'h'], ['z', 's', 'h']), .create (['t', 'o', 'p'], ['t', 'o', 'p'])]
  exact ⟨_, run, (reorder_shows toolKind twoTools _ holds _ _ run done _ rfl).trans listed⟩

/-- After a move was saved, the panel goes on to show the command that a tool had before it. -/
theorem edited_tool_masked :
    ¬ ∀ (server : OrderedTable Tool)
        (events : List (ReorderEvent (List Char × List Char) Tool)) (final : ReorderPanel Tool),
        Run (stepReorder toolKind) anything (openedPanel server) events final →
        final.ShowsServer toolKind := by
  intro always
  obtain ⟨panel, saved, none, out, pending, rows⟩ := run_movedAndSaved
  obtain ⟨edited, changed⟩ : ∃ edited, edited = ({ panel with
      server := updateOrdered toolKind panel.server ⟨1, ['z', 's', 'h'], ['b', 'a', 's', 'h']⟩ } :
        ReorderPanel Tool) := ⟨_, rfl⟩
  have listed : listOrdered toolKind edited.server =
      [⟨2, ['t', 'o', 'p'], ['t', 'o', 'p']⟩, ⟨1, ['z', 's', 'h'], ['b', 'a', 's', 'h']⟩] := by
    rw [changed]
    simp [listOrdered, updateOrdered, changeRow, rows, toolKind, OrderedRow.before, List.mergeSort,
      List.MergeSort.Internal.splitInTwo]
  have taken : stepReorder toolKind panel
      (.call (.update ⟨1, ['z', 's', 'h'], ['b', 'a', 's', 'h']⟩)) = some edited := by
    rw [changed]
    rfl
  have run := (saved.unrestricted.snoc trivial taken).append
    (run_loaded (by rw [changed]; exact out)).unrestricted
  have shown := always _ _ _ run (by rw [changed]; exact none) _ rfl
  have same := (ReorderPanel.ordered_eq_iff (edited.loaded_items _)).mp shown _
    (by rw [changed]; exact pending) (by rw [listed]; decide)
  rw [listed] at same
  exact absurd same (by simp)

end Multimux
