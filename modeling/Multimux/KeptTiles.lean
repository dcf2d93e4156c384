/-
This file follows the tiles of the layout that the daemon held when a tab was
opened. The tab starts from the empty layout and every edit builds on the
newest layout it has, so an edit made before an answer was adopted writes a
document without the stored tiles. Once an answer was adopted, every document
the tab writes has all the stored tiles but those that the edits named for
removal, as long as a termination empties no slot of another session.
-/

import Multimux.Grid

namespace Multimux

/-! ### Documents that keep the tiles -/

/-- The tiles of a stored document, none if it is not a layout. -/
def placedTiles (document : Option Layout) : List Tile := (document.map Layout.placed).getD []

/-- Every tile of the original document is among the tiles, or its key was removed. -/
def KeepsTiles (original : Option Layout) (removed : List String) (tiles : List Tile) : Prop :=
  ∀ tile ∈ placedTiles original, tileKey tile ∉ removed → tile ∈ tiles

theorem KeepsTiles.more_removed {original : Option Layout} {removed : List String}
    {tiles : List Tile} (keeps : KeepsTiles original removed tiles) (more : List String) :
    KeepsTiles original (removed ++ more) tiles := fun tile member unnamed =>
  keeps tile member fun named => unnamed (List.mem_append_left more named)

/-- Emptying a slot drops at most its tile. -/
theorem mem_placed_removeTile {layout : Layout} {index : Nat} {dropped tile : Tile}
    (occupied : layout.tiles[index]? = some (some dropped)) (placed : tile ∈ layout.placed) :
    tile = dropped ∨ tile ∈ (removeTile layout index).placed := by
  obtain ⟨before, after⟩ := placed_removeTile_occupied occupied
  rw [before, List.mem_append, List.mem_cons] at placed
  rw [after, List.mem_append]
  rcases placed with front | same | back
  · exact .inr (.inl front)
  · exact .inl same
  · exact .inr (.inr back)

/-- An edit keeps every tile that it does not name for removal. -/
theorem LayoutEdit.mem_update {layout next : Layout} {edit : LayoutEdit}
    (updated : edit.update layout = some next) {tile : Tile} (placed : tile ∈ layout.placed)
    (unnamed : tileKey tile ∉ edit.removes layout) : tile ∈ next.placed := by
  cases edit with
  | attachSession added =>
    simp only [LayoutEdit.update] at updated
    split at updated <;> cases updated
    rw [placed_addTile]
    exact List.mem_append_left _ placed
  | placeSession added =>
    cases updated
    rw [placed_addTile]
    exact List.mem_append_left _ placed
  | removeTile index =>
    simp only [LayoutEdit.update] at updated
    split at updated <;> cases updated
    rename_i dropped occupied
    refine (mem_placed_removeTile occupied placed).resolve_left ?_
    rintro rfl
    exact unnamed (by simp [LayoutEdit.removes, occupied])
  | swapTiles source target =>
    simp only [LayoutEdit.update] at updated
    split at updated <;> cases updated
    exact (placed_swapTiles ..).mem_iff.mpr placed
  | setCols cols =>
    cases updated
    rwa [placed_setCols]
  | adoptSizes rowSizes colSizes =>
    cases updated
    rwa [placed_adoptSizes]
  | removeTilesWhere keys =>
    cases updated
    rw [placed_removeTilesWhere, List.mem_filter]
    exact ⟨placed, by simpa [LayoutEdit.removes] using unnamed⟩

/-- A slot is emptied for a session: it holds one of the session's tiles, or nothing. -/
def EmptiesOwn (layout : Layout) (termination : Termination) : Prop :=
  match layout.tiles[termination.tileIndex]? with
  | some (some tile) => tileKey tile = tileKey termination.tile
  | _ => True

instance (layout : Layout) (termination : Termination) :
    Decidable (EmptiesOwn layout termination) := by
  unfold EmptiesOwn
  split <;> infer_instance

theorem mem_removeTile_of_emptiesOwn {layout : Layout} {termination : Termination}
    (own : EmptiesOwn layout termination) {tile : Tile} (placed : tile ∈ layout.placed)
    (unnamed : tileKey tile ≠ tileKey termination.tile) :
    tile ∈ (removeTile layout termination.tileIndex).placed := by
  unfold EmptiesOwn at own
  split at own
  · rename_i dropped occupied
    refine (mem_placed_removeTile occupied placed).resolve_left ?_
    rintro rfl
    exact unnamed own
  · rename_i empty
    rwa [placed_removeTile_empty empty]

/-! ### Runs of a single tab -/

/-- A tab just opened on a daemon that holds a document. -/
def openedOn (original : Option Layout) : Grid :=
  { stored := original, version := 0, tabs := [newTab] }

/-- No other tab opens. -/
def SingleTab : GridAction → Prop
  | .openTab => False
  | _ => True

/-- The user edits only after an answer was adopted (or where the daemon held no tile), and a
termination empties no slot of another session. -/
def EditsAfterLoading (original : Option Layout) (grid : Grid) : GridAction → Prop
  | .inTab index (.edit _) =>
    ∀ tab ∈ grid.tabs[index]?, tab.loaded = true ∨ placedTiles original = []
  | .inTab index (.deleteSettled place) =>
    ∀ tab ∈ grid.tabs[index]?, ∀ termination ∈ tab.terminations[place]?,
      EmptiesOwn tab.layout termination
  | _ => True

instance SingleTab.decidable : DecidablePred SingleTab
  | .openTab => .isFalse id
  | .inTab _ _ => .isTrue trivial
  | .commitPut _ => .isTrue trivial

instance EditsAfterLoading.decidable (original : Option Layout) (grid : Grid) :
    DecidablePred (EditsAfterLoading original grid) := by
  intro action
  unfold EditsAfterLoading
  split <;> infer_instance

/-- The tiles are kept wherever a document can come from: the daemon, the answers on their way,
the writes, and the tab's own layout unless it is still the empty one. -/
structure TilesKept (original stored : Option Layout) (tab : Tab) : Prop where
  stored : KeepsTiles original tab.removed (placedTiles stored)
  layout : KeepsTiles original tab.removed tab.layout.placed ∨
    tab.loaded = false ∧ tab.layout.placed = [] ∧ tab.terminations = []
  pending : ∀ layout ∈ tab.pendingWrite, KeepsTiles original tab.removed layout.placed
  flight : ∀ put ∈ tab.writeInFlight, KeepsTiles original tab.removed put.layout.placed
  answers : ∀ get ∈ tab.gets, ∀ answer ∈ get.answer,
    KeepsTiles original tab.removed (placedTiles answer.document)

variable {original stored : Option Layout} {tab : Tab}

/-- An edit that keeps the tiles, made on a tab where they are kept. -/
theorem TilesKept.persist (kept : TilesKept original stored tab) (named : List String)
    (terminations : List Termination) {next : Layout}
    (keeps : KeepsTiles original (tab.removed ++ named) next.placed) :
    TilesKept original stored ({ tab with
      terminations
      removed := tab.removed ++ named }.persist next) := by
  have flight : ∀ put ∈ tab.writeInFlight,
      KeepsTiles original (tab.removed ++ named) put.layout.placed := fun put member =>
    (kept.flight put member).more_removed named
  have answers : ∀ get ∈ tab.gets, ∀ answer ∈ get.answer,
      KeepsTiles original (tab.removed ++ named) (placedTiles answer.document) :=
    fun get member answer answered => (kept.answers get member answer answered).more_removed named
  rcases Tab.persist_cases { tab with terminations, removed := tab.removed ++ named } next with
    ⟨-, persisted⟩ | ⟨-, persisted⟩
  · rw [persisted]
    refine ⟨kept.stored.more_removed named, .inl keeps, by simp, ?_, answers⟩
    rintro put written
    cases written
    exact keeps
  · rw [persisted]
    refine ⟨kept.stored.more_removed named, .inl keeps, ?_, flight, answers⟩
    rintro layout held
    cases held
    exact keeps

/-- A write that returns hands over to the one held back. -/
theorem TilesKept.flush (kept : TilesKept original stored tab) :
    TilesKept original stored { tab with writeInFlight := none }.flushLayout := by
  unfold Tab.flushLayout
  dsimp only
  split
  · rename_i layout _ held
    refine ⟨kept.stored, kept.layout, by simp, ?_, kept.answers⟩
    rintro put written
    cases written
    exact kept.pending layout held
  · exact ⟨kept.stored, kept.layout, kept.pending, by simp, kept.answers⟩

/-- A fetch that goes out has no answer yet. -/
theorem TilesKept.refresh (kept : TilesKept original stored tab) (settleInitial : Bool) :
    TilesKept original stored (tab.refreshLayout settleInitial) := by
  refine ⟨kept.stored, kept.layout, kept.pending, kept.flight, ?_⟩
  intro get member answer answered
  rcases List.mem_append.mp member with old | new
  · exact kept.answers get old answer answered
  · cases List.mem_singleton.mp new
    cases answered

/-- An answer that is adopted keeps the tiles, since it did on its way. -/
theorem TilesKept.adopt (kept : TilesKept original stored tab) (get : LayoutGet)
    {answer : LayoutAnswer}
    (keeps : KeepsTiles original tab.removed (placedTiles answer.document)) :
    TilesKept original stored ((tab.adoptAnswer get answer).settle get) := by
  obtain ⟨store, layout, pending, flight, answers⟩ := kept
  unfold Tab.settle Tab.adoptAnswer
  split
  · exact ⟨store, layout, pending, flight, answers⟩
  · split
    · rename_i document found
      refine ⟨store, .inl ?_, pending, flight, answers⟩
      dsimp only
      rw [Layout.placed_normalized]
      rwa [found] at keeps
    · exact ⟨store, layout, pending, flight, answers⟩

theorem TilesKept.erase (kept : TilesKept original stored tab) (index : Nat) :
    TilesKept original stored { tab with gets := tab.gets.eraseIdx index } :=
  ⟨kept.stored, kept.layout, kept.pending, kept.flight, fun get member =>
    kept.answers get (List.mem_of_mem_eraseIdx member)⟩

/-- Every action of the tab that the runs allow keeps the tiles. -/
theorem TilesKept.step (kept : TilesKept original stored tab) {version : Nat}
    {action : TabAction} {after : Tab} (taken : tab.step stored version action = some after)
    (edits : ∀ edit, action = .edit edit → tab.loaded = true ∨ placedTiles original = [])
    (empties : ∀ index, action = .deleteSettled index → ∀ termination ∈ tab.terminations[index]?,
      EmptiesOwn tab.layout termination) : TilesKept original stored after := by
  cases action with
  | connect =>
    simp only [Tab.step] at taken
    split at taken <;> cases taken
    exact ⟨kept.stored, kept.layout, kept.pending, kept.flight, kept.answers⟩
  | edit edit =>
    obtain ⟨next, updated, rfl⟩ := Option.map_eq_some_iff.mp taken
    refine kept.persist (edit.removes tab.layout) tab.terminations fun tile member unnamed => ?_
    rw [List.mem_append, not_or] at unnamed
    have loaded : tab.loaded = true := by
      refine (edits edit rfl).resolve_right fun none => ?_
      rw [none] at member
      cases member
    rcases kept.layout with keeps | ⟨unloaded, -, -⟩
    · exact edit.mem_update updated (keeps tile member unnamed.1) unnamed.2
    · rw [loaded] at unloaded
      cases unloaded
  | terminateSession tileIndex =>
    simp only [Tab.step] at taken
    split at taken <;> cases taken
    rename_i tile occupied
    refine ⟨kept.stored, .inl ?_, kept.pending, kept.flight, kept.answers⟩
    rcases kept.layout with keeps | ⟨-, empty, -⟩
    · exact keeps
    · have placed := Layout.mem_placed.mpr (List.mem_of_getElem? occupied)
      rw [empty] at placed
      cases placed
  | deleteSettled index =>
    obtain ⟨termination, pending, rfl⟩ := Option.map_eq_some_iff.mp taken
    refine kept.persist _ (tab.terminations.eraseIdx index) fun tile member unnamed => ?_
    rw [List.mem_append, not_or, List.mem_singleton] at unnamed
    rcases kept.layout with keeps | ⟨-, -, none⟩
    · exact mem_removeTile_of_emptiesOwn (empties index rfl termination pending)
        (keeps tile member unnamed.1) unnamed.2
    · rw [none] at pending
      cases pending
  | putSettled =>
    obtain ⟨put, -, rfl⟩ := Option.map_eq_some_iff.mp taken
    exact kept.flush
  | readEvent =>
    simp only [Tab.step] at taken
    split at taken <;> cases taken
    rename_i events _
    have read : TilesKept original stored { tab with events } :=
      ⟨kept.stored, kept.layout, kept.pending, kept.flight, kept.answers⟩
    exact read.refresh false
  | resync =>
    cases taken
    exact kept.refresh false
  | answerGet index =>
    simp only [Tab.step] at taken
    split at taken
    · cases taken
    · rename_i get present
      split at taken <;> cases taken
      refine ⟨kept.stored, kept.layout, kept.pending, kept.flight, ?_⟩
      intro other member answer answered
      rcases List.mem_or_eq_of_mem_set member with old | rfl
      · exact kept.answers other old answer answered
      · cases answered
        exact kept.stored
  | getSettled index =>
    simp only [Tab.step] at taken
    split at taken
    · cases taken
    · rename_i get present
      obtain ⟨answer, answered, rfl⟩ := Option.map_eq_some_iff.mp taken
      exact (kept.erase index).adopt get
        (kept.answers get (List.mem_of_getElem? present) answer answered)
  | getFailed index =>
    obtain ⟨get, -, rfl⟩ := Option.map_eq_some_iff.mp taken
    have erased := kept.erase index
    exact ⟨erased.stored, erased.layout, erased.pending, erased.flight, erased.answers⟩

/-! ### The documents a tab writes -/

theorem tilesKept_newTab (original : Option Layout) : TilesKept original original newTab := by
  refine ⟨fun tile member _ => member, .inr ⟨rfl, placed_emptyLayout, rfl⟩, by simp [newTab,
    Tab.refreshLayout], by simp [newTab, Tab.refreshLayout], ?_⟩
  intro get member answer answered
  cases List.mem_singleton.mp member
  cases answered

/-- In every such run there is the one tab, and it keeps the tiles. -/
theorem tilesKept_run {original : Option Layout} {actions : List GridAction} {grid : Grid}
    (run : Run Grid.step
      (fun grid action => SingleTab action ∧ EditsAfterLoading original grid action)
      (openedOn original) actions grid) :
    ∃ tab, grid.tabs = [tab] ∧ TilesKept original grid.stored tab := by
  refine run.invariant (fun grid => ∃ tab, grid.tabs = [tab] ∧ TilesKept original grid.stored tab)
    ⟨newTab, rfl, tilesKept_newTab original⟩ ?_
  rintro grid action next ⟨tab, alone, kept⟩ permitted taken
  cases action with
  | openTab => cases permitted.1
  | inTab index action =>
    obtain ⟨other, after, present, stepped, rfl⟩ := Grid.step_inTab taken
    rw [alone] at present
    obtain ⟨rfl, rfl⟩ : index = 0 ∧ tab = other := by
      cases index with
      | zero => exact ⟨rfl, Option.some.inj present⟩
      | succ index => simp at present
    refine ⟨after, by rw [alone]; rfl, kept.step stepped ?_ ?_⟩
    · rintro edit rfl
      exact permitted.2 tab (by rw [alone]; rfl)
    · rintro place rfl
      exact permitted.2 tab (by rw [alone]; rfl)
  | commitPut index =>
    obtain ⟨other, put, present, inFlight, -, rfl⟩ := Grid.step_commitPut taken
    rw [alone] at present
    obtain ⟨rfl, rfl⟩ : index = 0 ∧ tab = other := by
      cases index with
      | zero => exact ⟨rfl, Option.some.inj present⟩
      | succ index => simp at present
    refine ⟨_, by unfold Grid.handlePutLayout; rw [alone]; rfl, ?_⟩
    have written := kept.flight put inFlight
    have flight : ∀ other ∈ some { put with committed := some (grid.version + 1) },
        KeepsTiles original tab.removed other.layout.placed := by
      rintro _ ⟨⟩
      exact written
    unfold Tab.notify
    split <;> exact ⟨written, kept.layout, kept.pending, flight, kept.answers⟩

/-- In every run of a single tab in which edits come after loading and terminations empty no
slot of another session, every document the tab writes has each tile of the layout the daemon
held when the tab was opened, unless an edit so far removed it. -/
theorem writes_keep_tiles (original : Option Layout) (actions : List GridAction) (grid : Grid)
    (run : Run Grid.step
      (fun grid action => SingleTab action ∧ EditsAfterLoading original grid action)
      (openedOn original) actions grid)
    (tab : Tab) (present : tab ∈ grid.tabs) (put : LayoutPut)
    (written : tab.writeInFlight = some put) (tile : Tile) (held : tile ∈ placedTiles original)
    (unnamed : tileKey tile ∉ tab.removed) : tile ∈ put.layout.placed := by
  obtain ⟨single, alone, kept⟩ := tilesKept_run run
  rw [alone, List.mem_singleton] at present
  subst present
  exact kept.flight put written tile held unnamed

/-- Two sessions side by side. -/
def twoSessions : Option Layout := some (normalize [localTile 1, localTile 2] 2 none none)

/-- A tab that loaded two sessions and removed the first writes the second. -/
theorem removal_keeps_the_other :
    ∃ grid tab put, exec Grid.step (openedOn twoSessions)
        [.inTab 0 (.answerGet 0), .inTab 0 (.getSettled 0), .inTab 0 (.edit (.removeTile 0))] =
        some grid ∧
      tab ∈ grid.tabs ∧ tab.writeInFlight = some put ∧ localTile 2 ∈ put.layout.placed := by
  obtain ⟨grid, reached, test⟩ := exists_of_exec Grid.step (openedOn twoSessions)
    [.inTab 0 (.answerGet 0), .inTab 0 (.getSettled 0), .inTab 0 (.edit (.removeTile 0))]
    (fun grid => grid.tabs.any fun tab => tab.writeInFlight.isSome &&
      tileKey (localTile 2) ∉ tab.removed) (by decide)
  obtain ⟨tab, present, test⟩ := List.any_eq_true.mp test
  rw [Bool.and_eq_true, decide_eq_true_eq] at test
  obtain ⟨put, written⟩ := Option.isSome_iff_exists.mp test.1
  exact ⟨grid, tab, put, reached, present, written,
    writes_keep_tiles twoSessions _ grid (Run.of_exec reached (by decide)) tab present put
      written (localTile 2) (by decide) test.2⟩

/-- A session attached before the first answer came back: the tab writes a layout with that
session only. -/
theorem early_edit_drops_tiles :
    ¬ ∀ (original : Option Layout) (actions : List GridAction) (grid : Grid),
        Run Grid.step (fun _ action => SingleTab action) (openedOn original) actions grid →
        ∀ tab ∈ grid.tabs, ∀ put, tab.writeInFlight = some put →
          ∀ tile ∈ placedTiles original, tileKey tile ∉ tab.removed → tile ∈ put.layout.placed := by
  intro always
  obtain ⟨grid, reached, test⟩ := exists_of_exec Grid.step (openedOn twoSessions)
    [.inTab 0 (.edit (.attachSession (localTile 3)))]
    (fun grid => grid.tabs.any fun tab => tab.writeInFlight.any (fun put =>
      localTile 1 ∉ put.layout.placed) && tileKey (localTile 1) ∉ tab.removed) (by decide)
  obtain ⟨tab, present, test⟩ := List.any_eq_true.mp test
  rw [Bool.and_eq_true, decide_eq_true_eq, Option.any_eq_true] at test
  obtain ⟨⟨put, written, missing⟩, unnamed⟩ := test
  have kept := always twoSessions _ grid (Run.of_exec reached (by decide)) tab present put written
    (localTile 1) (by decide) unnamed
  exact absurd kept (of_decide_eq_true missing)

end Multimux
