/-
This file models the grid page: browser tabs that show a layout, write it to
the daemon and fetch it back. A tab has at most one write in flight and holds
the newest edit back until it returns; a fetch is issued, answered by the
daemon and delivered at three different moments; the daemon's broadcast waits
in each tab's socket until it is read. Every one of these is a step of its own,
so a run interleaves the tabs, their requests and the events in any way. The
history variables record which commit an answer, an event or a shown layout
belongs to, and no step reads them. A divider that is dragged puts its sizes
into the layout on screen without a write; that is left out, and only its end
is an edit here.
-/

import Multimux.Layout
import Multimux.Runs

namespace Multimux

/-! ### Edits -/

/-- The edits of the layout, as the page's handlers make them. -/
inductive LayoutEdit
  | attachSession (tile : Tile)
  | placeSession (tile : Tile)
  | removeTile (index : Nat)
  | swapTiles (source target : Nat)
  | setCols (cols : ℚ)
  | adoptSizes (rowSizes : Option (List ℚ)) (colSizes : Option (List (List ℚ)))
  | removeTilesWhere (keys : List String)

/-- What a handler makes of the layout on screen, if it does not return early: a session is
attached once, only an occupied slot is removed, and a drag swaps two different slots. -/
def LayoutEdit.update (layout : Layout) : LayoutEdit → Option Layout
  | .attachSession tile =>
    if tileKey tile ∈ layout.placed.map tileKey then none else some (addTile layout tile)
  | .placeSession tile => some (addTile layout tile)
  | .removeTile index =>
    match layout.tiles[index]? with
    | some (some _) => some (Multimux.removeTile layout index)
    | _ => none
  | .swapTiles source target =>
    if bounds : source < layout.tiles.length ∧ target < layout.tiles.length ∧ source ≠ target then
      some (Multimux.swapTiles layout ⟨source, bounds.1⟩ ⟨target, bounds.2.1⟩)
    else none
  | .setCols cols => some (Multimux.setCols layout cols)
  | .adoptSizes rowSizes colSizes => some (Multimux.adoptSizes layout rowSizes colSizes)
  | .removeTilesWhere keys =>
    some (Multimux.removeTilesWhere layout fun tile => tileKey tile ∈ keys)

/-- The keys of the tiles an edit of the layout names for removal. -/
def LayoutEdit.removes (layout : Layout) : LayoutEdit → List String
  | .removeTile index => ((layout.tiles[index]?).join.map tileKey).toList
  | .removeTilesWhere keys => keys
  | _ => []

/-! ### Tabs -/

/-- What the daemon answers a fetch: the document it stores, if that is a layout, and as a
history variable the number of the commit that stored it. -/
structure LayoutAnswer where
  document : Option Layout
  version : Nat

/-- A fetch of the layout that has been issued. -/
structure LayoutGet where
  writingAtIssue : Bool
  editSerial : Nat
  settleInitial : Bool
  answer : Option LayoutAnswer

/-- A write of the layout that has not returned; `committed` is a history variable, the commit
it became. -/
structure LayoutPut where
  layout : Layout
  committed : Option Nat

/-- The events that make a tab fetch the layout. -/
inductive EventType
  | hello
  | layoutChanged
  deriving DecidableEq

/-- An event in a tab's socket; `version` is a history variable, the newest commit when it was
sent. -/
structure LayoutEvent where
  type : EventType
  version : Nat

/-- A `terminateSession` that awaits its DELETE, with the index it captured. -/
structure Termination where
  tile : Tile
  tileIndex : Nat

/-- A tab of the page. `layout` is the newest layout, which is the one on screen. The last
three fields are history variables: the commit of the layout last adopted or written, whether
an answer was ever adopted, and the keys that the edits so far removed. -/
structure Tab where
  layout : Layout
  layoutSettled : Bool
  pendingWrite : Option Layout
  writeInFlight : Option LayoutPut
  layoutEditSerial : Nat
  gets : List LayoutGet
  connected : Bool
  events : List LayoutEvent
  terminations : List Termination
  shownVersion : Option Nat
  loaded : Bool
  removed : List String

/-- A write is out or held back. -/
def Tab.writing (tab : Tab) : Bool := tab.writeInFlight.isSome || tab.pendingWrite.isSome

/-- The held layout is sent, unless a write is out. -/
def Tab.flushLayout (tab : Tab) : Tab :=
  match tab.writeInFlight, tab.pendingWrite with
  | none, some layout =>
    { tab with
      pendingWrite := none
      writeInFlight := some { layout, committed := none } }
  | _, _ => tab

/-- An edit: the new layout is shown and is to be written. -/
def Tab.persist (tab : Tab) (next : Layout) : Tab :=
  Tab.flushLayout { tab with
    layout := next
    layoutEditSerial := tab.layoutEditSerial + 1
    pendingWrite := some next }

/-- A fetch is issued; it remembers whether a write was out and how many edits there were. -/
def Tab.refreshLayout (tab : Tab) (settleInitial : Bool) : Tab :=
  let get : LayoutGet :=
    { writingAtIssue := tab.writing
      editSerial := tab.layoutEditSerial
      settleInitial
      answer := none }
  { tab with gets := tab.gets ++ [get] }

/-- An answer that can predate a local edit is not adopted. -/
def Tab.discards (tab : Tab) (get : LayoutGet) : Bool :=
  get.writingAtIssue || tab.writing || get.editSerial != tab.layoutEditSerial

/-- An answer is shown, unless it is discarded. -/
def Tab.adoptAnswer (tab : Tab) (get : LayoutGet) (answer : LayoutAnswer) : Tab :=
  if tab.discards get then tab
  else
    match answer.document with
    | some layout => { tab with
        layout := layout.normalized
        shownVersion := some answer.version
        loaded := true }
    | none => { tab with shownVersion := some answer.version }

/-- The first fetch is over, however it ended. -/
def Tab.settle (tab : Tab) (get : LayoutGet) : Tab :=
  { tab with layoutSettled := tab.layoutSettled || get.settleInitial }

/-- A tab that was just opened: its initial fetch is out. -/
def newTab : Tab :=
  Tab.refreshLayout
    { layout := emptyLayout
      layoutSettled := false
      pendingWrite := none
      writeInFlight := none
      layoutEditSerial := 0
      gets := []
      connected := false
      events := []
      terminations := []
      shownVersion := none
      loaded := false
      removed := [] } true

/-- What happens in one tab: its socket connects, the user edits or terminates, a request
returns, an event is read, or the page comes back into view. A fetch is answered before it
returns, unless it fails. -/
inductive TabAction
  | connect
  | edit (edit : LayoutEdit)
  | terminateSession (tileIndex : Nat)
  | deleteSettled (index : Nat)
  | putSettled
  | readEvent
  | resync
  | answerGet (index : Nat)
  | getSettled (index : Nat)
  | getFailed (index : Nat)

/-- One action of a tab, under the document that the daemon stores. -/
def Tab.step (stored : Option Layout) (version : Nat) (tab : Tab) : TabAction → Option Tab
  | .connect =>
    if tab.connected then none
    else some { tab with connected := true, events := tab.events ++ [⟨.hello, version⟩] }
  | .edit edit =>
    (edit.update tab.layout).map fun next =>
      { tab with removed := tab.removed ++ edit.removes tab.layout }.persist next
  | .terminateSession tileIndex =>
    match tab.layout.tiles[tileIndex]? with
    | some (some tile) =>
      some { tab with terminations := tab.terminations ++ [{ tile, tileIndex }] }
    | _ => none
  | .deleteSettled index => (tab.terminations[index]?).map fun termination =>
      { tab with
        terminations := tab.terminations.eraseIdx index
        removed := tab.removed ++ [tileKey termination.tile] }.persist
          (removeTile tab.layout termination.tileIndex)
  | .putSettled => tab.writeInFlight.map fun _ => { tab with writeInFlight := none }.flushLayout
  | .readEvent =>
    match tab.events with
    | [] => none
    | _ :: events => some ({ tab with events }.refreshLayout false)
  | .resync => some (tab.refreshLayout false)
  | .answerGet index =>
    match tab.gets[index]? with
    | none => none
    | some get =>
      if get.answer.isSome then none
      else some { tab with
        gets := tab.gets.set index
          { get with answer := some { document := stored, version } } }
  | .getSettled index =>
    match tab.gets[index]? with
    | none => none
    | some get => get.answer.map fun answer =>
        ({ tab with gets := tab.gets.eraseIdx index }.adoptAnswer get answer).settle get
  | .getFailed index => (tab.gets[index]?).map fun get =>
      { tab with gets := tab.gets.eraseIdx index }.settle get

/-! ### The daemon and its tabs -/

/-- The daemon's layout document, where it is a layout, the number of commits so far as a
history variable, and the open tabs. -/
structure Grid where
  stored : Option Layout
  version : Nat
  tabs : List Tab

/-- A tab is opened, something happens in one, or the daemon stores a write. -/
inductive GridAction
  | openTab
  | inTab (index : Nat) (action : TabAction)
  | commitPut (index : Nat)

/-- The broadcast of a commit, as it reaches the socket of a tab. -/
def Tab.notify (version : Nat) (tab : Tab) : Tab :=
  if tab.connected then { tab with events := tab.events ++ [⟨.layoutChanged, version⟩] } else tab

/-- `handlePutLayout` stores the document and broadcasts `layout_changed`. -/
def Grid.handlePutLayout (grid : Grid) (index : Nat) (tab : Tab) (put : LayoutPut) : Grid :=
  let version := grid.version + 1
  let tabs := grid.tabs.set index { tab with
    writeInFlight := some { put with committed := some version }
    shownVersion := some version }
  { stored := some put.layout, version, tabs := tabs.map (Tab.notify version) }

/-- One action of the whole grid. -/
def Grid.step (grid : Grid) : GridAction → Option Grid
  | .openTab => some { grid with tabs := grid.tabs ++ [newTab] }
  | .inTab index action => do
    let tab ← grid.tabs[index]?
    let after ← tab.step grid.stored grid.version action
    return { grid with tabs := grid.tabs.set index after }
  | .commitPut index => do
    let tab ← grid.tabs[index]?
    let put ← tab.writeInFlight
    if put.committed.isSome then none else return grid.handlePutLayout index tab put

/-- The daemon with the layout it stores, before any tab is open. -/
def storedLayout (stored : Option Layout) : Grid := { stored, version := 0, tabs := [] }

/-! ### Steps, taken apart -/

theorem Grid.step_inTab {grid next : Grid} {index : Nat} {action : TabAction}
    (taken : grid.step (.inTab index action) = some next) :
    ∃ tab after, grid.tabs[index]? = some tab ∧
      tab.step grid.stored grid.version action = some after ∧
      next = { grid with tabs := grid.tabs.set index after } := by
  obtain ⟨tab, present, taken⟩ := Option.bind_eq_some_iff.mp taken
  obtain ⟨after, stepped, taken⟩ := Option.bind_eq_some_iff.mp taken
  cases taken
  exact ⟨tab, after, present, stepped, rfl⟩

theorem Grid.step_commitPut {grid next : Grid} {index : Nat}
    (taken : grid.step (.commitPut index) = some next) :
    ∃ tab put, grid.tabs[index]? = some tab ∧ tab.writeInFlight = some put ∧
      put.committed = none ∧ next = grid.handlePutLayout index tab put := by
  obtain ⟨tab, present, taken⟩ := Option.bind_eq_some_iff.mp taken
  obtain ⟨put, inFlight, taken⟩ := Option.bind_eq_some_iff.mp taken
  split at taken
  · cases taken
  · rename_i uncommitted
    cases taken
    exact ⟨tab, put, present, inFlight, Option.not_isSome_iff_eq_none.mp uncommitted, rfl⟩

/-- After an edit the newest layout is what will be written: it is held back, or it is the
write in flight. -/
theorem Tab.persist_cases (tab : Tab) (next : Layout) :
    (tab.writeInFlight = none ∧ tab.persist next = { tab with
      layout := next
      layoutEditSerial := tab.layoutEditSerial + 1
      pendingWrite := none
      writeInFlight := some { layout := next, committed := none } }) ∨
    (tab.writeInFlight ≠ none ∧ tab.persist next = { tab with
      layout := next
      layoutEditSerial := tab.layoutEditSerial + 1
      pendingWrite := some next }) := by
  unfold Tab.persist Tab.flushLayout
  cases flight : tab.writeInFlight with
  | none => exact .inl ⟨rfl, rfl⟩
  | some put =>
    exact .inr ⟨by simp, by simp⟩

theorem Tab.persist_layout (tab : Tab) (next : Layout) : (tab.persist next).layout = next := by
  rcases tab.persist_cases next with ⟨-, persisted⟩ | ⟨-, persisted⟩ <;> rw [persisted]

theorem Tab.adoptAnswer_discarded {tab : Tab} {get : LayoutGet} (answer : LayoutAnswer)
    (discarded : tab.discards get = true) : tab.adoptAnswer get answer = tab :=
  if_pos discarded

theorem Tab.adoptAnswer_kept {tab : Tab} {get : LayoutGet} (answer : LayoutAnswer)
    (kept : tab.discards get = false) : tab.adoptAnswer get answer = { tab with
      layout := (answer.document.map Layout.normalized).getD tab.layout
      shownVersion := some answer.version
      loaded := tab.loaded || answer.document.isSome } := by
  unfold Tab.adoptAnswer
  rw [kept, if_neg Bool.false_ne_true]
  cases answer.document <;> simp

end Multimux
