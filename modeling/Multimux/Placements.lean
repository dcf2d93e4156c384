/-
This file asks whether a session is placed once. The handlers of a tab hold the
set of sessions placed in the layout of its last render, and attaching checks
it; the response of a launch places its session without a check. Both add the
tile to the newest layout. A session is placed once as long as a tab comes by
the session that it launches through the response alone, and a session is
attached on a render that shows it, if the newest layout has it. Where another
tab attached the new session and that edit was adopted before the response, the
session is placed twice.
-/

import Multimux.Grid
import Mathlib.Data.List.Nodup

namespace Multimux

/-! ### Renders and launches -/

/-- The daemon and its tabs with, for every tab, the layout of its last render, the launches
whose response is on its way to a tab, and the keys of the sessions that were created. -/
structure PlacingGrid where
  grid : Grid
  rendered : List Layout
  launches : List (Nat × Tile)
  created : List String

/-- What happens to the daemon and its tabs; the tiles are added by two actions of their own. -/
inductive PlacingAction
  | openTab
  | render (index : Nat)
  | launch (index : Nat) (tile : Tile)
  | placeSession (place : Nat)
  | attachSession (index : Nat) (tile : Tile)
  | inTab (index : Nat) (action : TabAction)
  | commitPut (index : Nat)

/-- The sessions placed in a tile. -/
def placedKeys (layout : Layout) : List String := layout.placed.map tileKey

/-- The edits that add a tile, which `attachSession` and `placeSession` make here. -/
def TabAction.adds : TabAction → Bool
  | .edit (.attachSession _) => true
  | .edit (.placeSession _) => true
  | _ => false

/-- `persist` of `addTile`, on the newest layout. -/
def Grid.persistTile (grid : Grid) (index : Nat) (tile : Tile) : Option Grid :=
  grid.step (.inTab index (.edit (.placeSession tile)))

/-- A created session has a new key; its launch awaits the response. A session is attached from
the list of the sessions there are, unless the last render has it placed. -/
def PlacingGrid.step (placing : PlacingGrid) : PlacingAction → Option PlacingGrid
  | .openTab => (placing.grid.step .openTab).map fun grid =>
      { placing with
        grid
        rendered := placing.rendered ++ [emptyLayout] }
  | .render index => (placing.grid.tabs[index]?).map fun tab =>
      { placing with rendered := placing.rendered.set index tab.layout }
  | .launch index tile =>
    if tileKey tile ∈ placing.created then none
    else some { placing with
      launches := placing.launches ++ [(index, tile)]
      created := placing.created ++ [tileKey tile] }
  | .placeSession place =>
    match placing.launches[place]? with
    | some (index, tile) => (placing.grid.persistTile index tile).map fun grid =>
        { placing with
          grid
          launches := placing.launches.eraseIdx place }
    | none => none
  | .attachSession index tile =>
    match placing.rendered[index]? with
    | some layout =>
      if tileKey tile ∉ placing.created ∨ tileKey tile ∈ placedKeys layout then none
      else (placing.grid.persistTile index tile).map fun grid => { placing with grid }
    | none => none
  | .inTab index action =>
    if action.adds then none
    else (placing.grid.step (.inTab index action)).map fun grid => { placing with grid }
  | .commitPut index => (placing.grid.step (.commitPut index)).map fun grid =>
      { placing with grid }

/-- The daemon with the layout it stores and the sessions it has, before any tab is open. -/
def placingOn (stored : Option Layout) (created : List String) : PlacingGrid :=
  { grid := storedLayout stored, rendered := [], launches := [], created }

/-- A session is attached on a render that shows it if the newest layout has it, and not by the
tab that awaits the response of its launch; nor does that tab adopt a layout with the session. -/
def PlacingGrid.KeepsPace (placing : PlacingGrid) : PlacingAction → Prop
  | .attachSession index tile =>
    (∀ tab ∈ placing.grid.tabs[index]?, ∀ layout ∈ placing.rendered[index]?,
      tileKey tile ∈ placedKeys tab.layout → tileKey tile ∈ placedKeys layout) ∧
    ∀ launch ∈ placing.launches, launch.1 = index → tileKey launch.2 ≠ tileKey tile
  | .inTab index (.getSettled place) =>
    ∀ tab ∈ placing.grid.tabs[index]?, ∀ get ∈ tab.gets[place]?, tab.discards get = false →
      ∀ answer ∈ get.answer, ∀ document ∈ answer.document,
        ∀ launch ∈ placing.launches, launch.1 = index → tileKey launch.2 ∉ placedKeys document
  | _ => True

instance PlacingGrid.KeepsPace.decidable (placing : PlacingGrid) :
    ∀ action, Decidable (placing.KeepsPace action)
  | .attachSession index tile => inferInstanceAs (Decidable
      ((∀ tab ∈ placing.grid.tabs[index]?, ∀ layout ∈ placing.rendered[index]?,
          tileKey tile ∈ placedKeys tab.layout → tileKey tile ∈ placedKeys layout) ∧
        ∀ launch ∈ placing.launches, launch.1 = index → tileKey launch.2 ≠ tileKey tile))
  | .inTab index (.getSettled place) => inferInstanceAs (Decidable
      (∀ tab ∈ placing.grid.tabs[index]?, ∀ get ∈ tab.gets[place]?, tab.discards get = false →
        ∀ answer ∈ get.answer, ∀ document ∈ answer.document,
          ∀ launch ∈ placing.launches, launch.1 = index →
            tileKey launch.2 ∉ placedKeys document))
  | .openTab | .render _ | .launch _ _ | .placeSession _ | .commitPut _ => .isTrue trivial
  | .inTab _ .connect | .inTab _ (.edit _) | .inTab _ (.terminateSession _)
  | .inTab _ (.deleteSettled _) | .inTab _ .putSettled | .inTab _ .readEvent
  | .inTab _ .resync | .inTab _ (.answerGet _) | .inTab _ (.getFailed _) => .isTrue trivial

/-! ### Distinct tiles -/

/-- The tiles of a layout have pairwise distinct keys. -/
def Layout.Distinct (layout : Layout) : Prop := (placedKeys layout).Nodup

instance Layout.Distinct.decidable (layout : Layout) : Decidable layout.Distinct :=
  inferInstanceAs (Decidable (placedKeys layout).Nodup)

/-- The tiles have distinct keys, each of a session that was created. -/
structure Layout.PlacedOnce (created : List String) (layout : Layout) : Prop where
  distinct : layout.Distinct
  created : ∀ key ∈ placedKeys layout, key ∈ created

section Layouts

variable {created later : List String} {layout next : Layout}

theorem Layout.PlacedOnce.mono (placed : layout.PlacedOnce created) (more : created ⊆ later) :
    layout.PlacedOnce later :=
  ⟨placed.distinct, fun key member => more (placed.created key member)⟩

theorem Layout.PlacedOnce.subperm (placed : layout.PlacedOnce created)
    (fewer : (placedKeys next).Subperm (placedKeys layout)) : next.PlacedOnce created := by
  obtain ⟨keys, same, sublist⟩ := id fewer
  exact ⟨same.nodup_iff.mp (placed.distinct.sublist sublist),
    fun key member => placed.created key (fewer.subset member)⟩

theorem subperm_of_placed (placed : next.placed = layout.placed) :
    (placedKeys next).Subperm (placedKeys layout) :=
  (List.Perm.of_eq (congrArg (List.map tileKey) placed)).subperm

theorem Layout.PlacedOnce.normalized (placed : layout.PlacedOnce created) :
    layout.normalized.PlacedOnce created :=
  placed.subperm (subperm_of_placed layout.placed_normalized)

theorem placedOnce_emptyLayout : emptyLayout.PlacedOnce created := by
  have keys : placedKeys emptyLayout = [] := congrArg (List.map tileKey) placed_emptyLayout
  refine ⟨?_, ?_⟩
  · rw [Layout.Distinct, keys]
    exact List.nodup_nil
  · rw [keys]
    exact fun _ member => absurd member List.not_mem_nil

theorem subperm_removeTile (layout : Layout) (index : Nat) :
    (placedKeys (removeTile layout index)).Subperm (placedKeys layout) := by
  by_cases occupied : ∃ tile, layout.tiles[index]? = some (some tile)
  · obtain ⟨tile, found⟩ := occupied
    obtain ⟨before, after⟩ := placed_removeTile_occupied found
    rw [placedKeys, placedKeys, before, after]
    exact (((List.sublist_cons_self ..).append_left _).map tileKey).subperm
  · rw [not_exists] at occupied
    exact subperm_of_placed (placed_removeTile_empty occupied)

/-- A tile whose key is new. -/
theorem Layout.PlacedOnce.addTile (placed : layout.PlacedOnce created) {tile : Tile}
    (known : tileKey tile ∈ created) (fresh : tileKey tile ∉ placedKeys layout) :
    (addTile layout tile).PlacedOnce created := by
  have keys : placedKeys (Multimux.addTile layout tile) = placedKeys layout ++ [tileKey tile] := by
    rw [placedKeys, placed_addTile, List.map_append, List.map_singleton]
    rfl
  refine ⟨?_, fun key member => ?_⟩
  · rw [Layout.Distinct, keys]
    exact placed.distinct.append (List.nodup_singleton _) (List.disjoint_singleton.mpr fresh)
  · rw [keys] at member
    rcases List.mem_append.mp member with old | new
    · exact placed.created key old
    · exact List.mem_singleton.mp new ▸ known

/-- An edit that adds no tile leaves the tiles that there were, or some of them. -/
theorem LayoutEdit.subperm_update {edit : LayoutEdit}
    (adds : TabAction.adds (.edit edit) = false) (updated : edit.update layout = some next) :
    (placedKeys next).Subperm (placedKeys layout) := by
  cases edit with
  | attachSession tile => cases adds
  | placeSession tile => cases adds
  | removeTile index =>
    simp only [LayoutEdit.update] at updated
    split at updated <;> cases updated
    exact subperm_removeTile layout index
  | swapTiles source target =>
    simp only [LayoutEdit.update] at updated
    split at updated <;> cases updated
    exact ((placed_swapTiles layout _ _).map tileKey).subperm
  | setCols cols =>
    cases updated
    exact subperm_of_placed (placed_setCols layout cols)
  | adoptSizes rowSizes colSizes =>
    cases updated
    exact subperm_of_placed (placed_adoptSizes layout rowSizes colSizes)
  | removeTilesWhere keys =>
    cases updated
    rw [placedKeys, placed_removeTilesWhere]
    exact (List.filter_sublist.map tileKey).subperm

end Layouts

/-! ### The layouts of a tab -/

/-- Every layout that the tab shows, is to write or was answered with has its tiles once. -/
structure Tab.PlacedOnce (created : List String) (tab : Tab) : Prop where
  layout : tab.layout.PlacedOnce created
  pending : ∀ layout ∈ tab.pendingWrite, layout.PlacedOnce created
  flight : ∀ put ∈ tab.writeInFlight, put.layout.PlacedOnce created
  answers : ∀ get ∈ tab.gets, ∀ answer ∈ get.answer, ∀ document ∈ answer.document,
    document.PlacedOnce created

namespace Tab.PlacedOnce

variable {tab after : Tab} {created later : List String}

theorem mono (placed : tab.PlacedOnce created) (more : created ⊆ later) :
    tab.PlacedOnce later :=
  ⟨placed.layout.mono more, fun layout held => (placed.pending layout held).mono more,
    fun put sent => (placed.flight put sent).mono more,
    fun get member answer answered document found =>
      (placed.answers get member answer answered document found).mono more⟩

theorem flush (placed : tab.PlacedOnce created) : tab.flushLayout.PlacedOnce created := by
  unfold flushLayout
  split
  · rename_i layout _ held
    refine ⟨placed.layout, by simp, ?_, placed.answers⟩
    intro put written
    cases written
    exact placed.pending layout held
  · exact placed

theorem persist (placed : tab.PlacedOnce created) {next : Layout} (kept : next.PlacedOnce created) :
    (tab.persist next).PlacedOnce created := by
  refine flush ⟨kept, ?_, placed.flight, placed.answers⟩
  intro layout held
  cases held
  exact kept

theorem refresh (placed : tab.PlacedOnce created) (settleInitial : Bool) :
    (tab.refreshLayout settleInitial).PlacedOnce created := by
  refine ⟨placed.layout, placed.pending, placed.flight, ?_⟩
  intro get member answer answered
  rcases List.mem_append.mp member with old | new
  · exact placed.answers get old answer answered
  · cases List.mem_singleton.mp new
    cases answered

/-- Requests that are over, or an answer that brings the stored document. -/
theorem answered (placed : tab.PlacedOnce created) {gets : List LayoutGet}
    (brings : ∀ get ∈ gets, get ∈ tab.gets ∨
      ∀ answer ∈ get.answer, ∀ document ∈ answer.document, document.PlacedOnce created) :
    Tab.PlacedOnce created { tab with gets } :=
  ⟨placed.layout, placed.pending, placed.flight, fun get member =>
    (brings get member).elim (placed.answers get) id⟩

theorem adopt (placed : tab.PlacedOnce created) (get : LayoutGet) {answer : LayoutAnswer}
    (document : ∀ layout ∈ answer.document, layout.PlacedOnce created) :
    ((tab.adoptAnswer get answer).settle get).PlacedOnce created := by
  obtain ⟨layout, pending, flight, answers⟩ := placed
  unfold Tab.settle Tab.adoptAnswer
  split
  · exact ⟨layout, pending, flight, answers⟩
  · split
    · rename_i found
      exact ⟨(document _ found).normalized, pending, flight, answers⟩
    · exact ⟨layout, pending, flight, answers⟩

theorem newTab : Multimux.newTab.PlacedOnce created :=
  refresh ⟨placedOnce_emptyLayout, by simp, by simp, by simp⟩ true

/-- A step whose edit, if it is one, keeps the tiles placed. -/
theorem step (placed : tab.PlacedOnce created) {stored : Option Layout} {version : Nat}
    (document : ∀ layout ∈ stored, layout.PlacedOnce created) {action : TabAction}
    (edits : ∀ edit next, action = .edit edit → edit.update tab.layout = some next →
      next.PlacedOnce created)
    (taken : tab.step stored version action = some after) : after.PlacedOnce created := by
  cases action with
  | connect =>
    simp only [Tab.step] at taken
    split at taken <;> cases taken
    exact ⟨placed.layout, placed.pending, placed.flight, placed.answers⟩
  | edit edit =>
    obtain ⟨next, updated, rfl⟩ := Option.map_eq_some_iff.mp taken
    have named : Tab.PlacedOnce created
        { tab with removed := tab.removed ++ edit.removes tab.layout } :=
      ⟨placed.layout, placed.pending, placed.flight, placed.answers⟩
    exact named.persist (edits edit next rfl updated)
  | terminateSession tileIndex =>
    simp only [Tab.step] at taken
    split at taken <;> cases taken
    exact ⟨placed.layout, placed.pending, placed.flight, placed.answers⟩
  | deleteSettled index =>
    obtain ⟨termination, -, rfl⟩ := Option.map_eq_some_iff.mp taken
    have named : Tab.PlacedOnce created { tab with
        terminations := tab.terminations.eraseIdx index
        removed := tab.removed ++ [tileKey termination.tile] } :=
      ⟨placed.layout, placed.pending, placed.flight, placed.answers⟩
    exact named.persist (placed.layout.subperm (subperm_removeTile _ termination.tileIndex))
  | putSettled =>
    obtain ⟨put, -, rfl⟩ := Option.map_eq_some_iff.mp taken
    exact flush ⟨placed.layout, placed.pending, by simp, placed.answers⟩
  | readEvent =>
    simp only [Tab.step] at taken
    split at taken <;> cases taken
    rename_i events _
    have read : Tab.PlacedOnce created { tab with events } :=
      ⟨placed.layout, placed.pending, placed.flight, placed.answers⟩
    exact read.refresh false
  | resync =>
    cases taken
    exact placed.refresh false
  | answerGet index =>
    simp only [Tab.step] at taken
    split at taken
    · cases taken
    · split at taken <;> cases taken
      refine placed.answered fun get member => ?_
      refine (List.mem_or_eq_of_mem_set member).imp_right ?_
      rintro rfl answer answered
      cases answered
      exact document
  | getSettled index =>
    simp only [Tab.step] at taken
    split at taken
    · cases taken
    · rename_i get present
      obtain ⟨answer, answered, rfl⟩ := Option.map_eq_some_iff.mp taken
      have erased := placed.answered fun other member =>
        .inl (List.mem_of_mem_eraseIdx (i := index) member)
      exact erased.adopt get
        (placed.answers get (List.mem_of_getElem? present) answer answered)
  | getFailed index =>
    obtain ⟨get, -, rfl⟩ := Option.map_eq_some_iff.mp taken
    have erased := placed.answered fun other member =>
      .inl (List.mem_of_mem_eraseIdx (i := index) member)
    exact ⟨erased.layout, erased.pending, erased.flight, erased.answers⟩

end Tab.PlacedOnce

/-- A step that adds no tile leaves the tiles that the tab showed, or some of them, unless it
adopts a document. -/
theorem Tab.step_shown {tab after : Tab} {stored : Option Layout} {version : Nat}
    {action : TabAction} (adds : action.adds = false)
    (taken : tab.step stored version action = some after) :
    (placedKeys after.layout).Subperm (placedKeys tab.layout) ∨
      ∃ place get answer document, action = .getSettled place ∧ tab.gets[place]? = some get ∧
        tab.discards get = false ∧ get.answer = some answer ∧ answer.document = some document ∧
        placedKeys after.layout = placedKeys document := by
  cases action with
  | connect =>
    simp only [Tab.step] at taken
    split at taken <;> cases taken
    exact .inl (List.Subperm.refl _)
  | edit edit =>
    obtain ⟨next, updated, rfl⟩ := Option.map_eq_some_iff.mp taken
    rw [Tab.persist_layout]
    exact .inl (edit.subperm_update adds updated)
  | terminateSession tileIndex =>
    simp only [Tab.step] at taken
    split at taken <;> cases taken
    exact .inl (List.Subperm.refl _)
  | deleteSettled index =>
    obtain ⟨termination, -, rfl⟩ := Option.map_eq_some_iff.mp taken
    rw [Tab.persist_layout]
    exact .inl (subperm_removeTile _ _)
  | putSettled =>
    obtain ⟨put, -, rfl⟩ := Option.map_eq_some_iff.mp taken
    unfold Tab.flushLayout
    split <;> exact .inl (List.Subperm.refl _)
  | readEvent =>
    simp only [Tab.step] at taken
    split at taken <;> cases taken
    exact .inl (List.Subperm.refl _)
  | resync =>
    cases taken
    exact .inl (List.Subperm.refl _)
  | answerGet index =>
    simp only [Tab.step] at taken
    split at taken
    · cases taken
    · split at taken <;> cases taken
      exact .inl (List.Subperm.refl _)
  | getSettled index =>
    simp only [Tab.step] at taken
    split at taken
    · cases taken
    · rename_i get present
      obtain ⟨answer, answered, rfl⟩ := Option.map_eq_some_iff.mp taken
      unfold Tab.settle Tab.adoptAnswer
      split
      · exact .inl (List.Subperm.refl _)
      · rename_i adopted
        split
        · rename_i document found
          refine .inr ⟨index, get, answer, document, rfl, present, ?_, answered, found, ?_⟩
          · exact Bool.not_eq_true _ ▸ adopted
          · exact congrArg (List.map tileKey) document.placed_normalized
        · exact .inl (List.Subperm.refl _)
  | getFailed index =>
    obtain ⟨get, -, rfl⟩ := Option.map_eq_some_iff.mp taken
    exact .inl (List.Subperm.refl _)

/-! ### The layouts of the daemon and its tabs -/

/-- Every layout there is has its tiles once. -/
structure Grid.PlacedOnce (created : List String) (grid : Grid) : Prop where
  stored : ∀ layout ∈ grid.stored, layout.PlacedOnce created
  tabs : ∀ tab ∈ grid.tabs, tab.PlacedOnce created

namespace Grid.PlacedOnce

variable {grid next : Grid} {created later : List String} {index : Nat}

theorem mono (placed : grid.PlacedOnce created) (more : created ⊆ later) :
    grid.PlacedOnce later :=
  ⟨fun layout held => (placed.stored layout held).mono more,
    fun tab member => (placed.tabs tab member).mono more⟩

theorem openTab (placed : grid.PlacedOnce created) :
    Grid.PlacedOnce created { grid with tabs := grid.tabs ++ [newTab] } := by
  refine ⟨placed.stored, fun tab member => ?_⟩
  rcases List.mem_append.mp member with old | new
  · exact placed.tabs tab old
  · cases List.mem_singleton.mp new
    exact Tab.PlacedOnce.newTab

theorem inTab (placed : grid.PlacedOnce created) {action : TabAction}
    (edits : ∀ tab ∈ grid.tabs[index]?, ∀ edit layout, action = .edit edit →
      edit.update tab.layout = some layout → layout.PlacedOnce created)
    (taken : grid.step (.inTab index action) = some next) : next.PlacedOnce created := by
  obtain ⟨tab, after, present, stepped, rfl⟩ := Grid.step_inTab taken
  have member := List.mem_of_getElem? present
  refine ⟨placed.stored, fun other there => ?_⟩
  rcases List.mem_or_eq_of_mem_set there with old | rfl
  · exact placed.tabs other old
  · exact (placed.tabs tab member).step placed.stored (edits tab present) stepped

theorem commitPut (placed : grid.PlacedOnce created)
    (taken : grid.step (.commitPut index) = some next) : next.PlacedOnce created := by
  obtain ⟨tab, put, present, written, -, rfl⟩ := Grid.step_commitPut taken
  have sent := placed.tabs tab (List.mem_of_getElem? present)
  refine ⟨?_, fun other there => ?_⟩
  · intro layout committed
    cases committed
    exact sent.flight put written
  · obtain ⟨before, listed, rfl⟩ := List.mem_map.mp there
    have kept : before.PlacedOnce created := by
      rcases List.mem_or_eq_of_mem_set listed with old | rfl
      · exact placed.tabs before old
      · refine ⟨sent.layout, sent.pending, ?_, sent.answers⟩
        intro again same
        cases same
        exact sent.flight put written
    unfold Tab.notify
    split
    · exact ⟨kept.layout, kept.pending, kept.flight, kept.answers⟩
    · exact kept

theorem persistTile (placed : grid.PlacedOnce created) {tile : Tile}
    (known : tileKey tile ∈ created)
    (fresh : ∀ tab ∈ grid.tabs[index]?, tileKey tile ∉ placedKeys tab.layout)
    (taken : grid.persistTile index tile = some next) : next.PlacedOnce created := by
  refine placed.inTab (fun tab present edit layout same updated => ?_) taken
  cases same
  cases updated
  have shown := (placed.tabs tab (List.mem_of_getElem? present)).layout
  exact shown.addTile known (fresh tab present)

end Grid.PlacedOnce

/-! ### Launches that are out -/

/-- No tab shows a session whose launch it awaits. -/
def Awaited (tabs : List Tab) (launches : List (Nat × Tile)) : Prop :=
  ∀ launch ∈ launches, ∀ tab ∈ tabs[launch.1]?, tileKey launch.2 ∉ placedKeys tab.layout

section Awaited

variable {tabs : List Tab} {launches : List (Nat × Tile)} {index : Nat} {after : Tab}

/-- A tab is replaced by one that does not show them either. -/
theorem Awaited.set (awaited : Awaited tabs launches)
    (own : ∀ launch ∈ launches, launch.1 = index → tileKey launch.2 ∉ placedKeys after.layout) :
    Awaited (tabs.set index after) launches := by
  intro launch member tab there
  rcases getElem?_set_cases there with ⟨same, rfl⟩ | ⟨-, old⟩
  · exact own launch member same
  · exact awaited launch member tab old

theorem Awaited.openTab (awaited : Awaited tabs launches) :
    Awaited (tabs ++ [newTab]) launches := by
  intro launch member tab there
  rcases getElem?_concat_cases there with old | ⟨-, rfl⟩
  · exact awaited launch member tab old
  · change tileKey launch.2 ∉ emptyLayout.placed.map tileKey
    rw [placed_emptyLayout]
    exact List.not_mem_nil

/-- A commit changes no layout that a tab shows. -/
theorem Awaited.commitPut {grid next : Grid} (awaited : Awaited grid.tabs launches)
    (taken : grid.step (.commitPut index) = some next) : Awaited next.tabs launches := by
  obtain ⟨tab, put, present, -, -, rfl⟩ := Grid.step_commitPut taken
  intro launch member other there
  rw [Grid.handlePutLayout, Option.mem_def, List.getElem?_map] at there
  obtain ⟨before, listed, rfl⟩ := Option.map_eq_some_iff.mp there
  have shown : (before.notify (grid.version + 1)).layout = before.layout := by
    unfold Tab.notify
    split <;> rfl
  rw [shown]
  rcases getElem?_set_cases listed with ⟨same, rfl⟩ | ⟨-, old⟩
  · exact awaited launch member tab (same ▸ present)
  · exact awaited launch member before old

/-- A tab that shows one more session, which it does not await. -/
theorem Awaited.persistTile {grid next : Grid} {tile : Tile}
    (awaited : Awaited grid.tabs launches)
    (other : ∀ launch ∈ launches, launch.1 = index → tileKey launch.2 ≠ tileKey tile)
    (taken : grid.persistTile index tile = some next) : Awaited next.tabs launches := by
  obtain ⟨tab, after, present, stepped, rfl⟩ := Grid.step_inTab taken
  cases stepped
  refine awaited.set fun launch member same shown => ?_
  rw [Tab.persist_layout, placedKeys, placed_addTile, List.map_append] at shown
  rcases List.mem_append.mp shown with old | new
  · exact awaited launch member tab (same ▸ present) old
  · exact other launch member same (List.mem_singleton.mp new)

end Awaited

/-! ### Runs -/

namespace PlacingGrid

variable {placing next : PlacingGrid}

/-- Every layout there is, or was rendered last, has its tiles once, and the launches that are
out are those of different sessions, which the tabs that await them do not show. -/
structure PlacedOnce (placing : PlacingGrid) : Prop where
  grid : placing.grid.PlacedOnce placing.created
  rendered : ∀ layout ∈ placing.rendered, layout.PlacedOnce placing.created
  launched : ∀ launch ∈ placing.launches, tileKey launch.2 ∈ placing.created
  apart : (placing.launches.map fun launch => tileKey launch.2).Nodup
  awaited : Awaited placing.grid.tabs placing.launches

/-- A session that was created just now is in no layout. -/
theorem PlacedOnce.launch (placed : placing.PlacedOnce) {index : Nat} {tile : Tile}
    (taken : placing.step (.launch index tile) = some next) : next.PlacedOnce := by
  simp only [PlacingGrid.step] at taken
  split at taken
  · cases taken
  · rename_i new
    cases taken
    have more : placing.created ⊆ placing.created ++ [tileKey tile] := List.subset_append_left ..
    refine ⟨placed.grid.mono more, fun layout member => (placed.rendered layout member).mono more,
      fun launch member => ?_, ?_, fun launch member tab there => ?_⟩
    · rcases List.mem_append.mp member with old | last
      · exact more (placed.launched launch old)
      · obtain rfl := List.mem_singleton.mp last
        exact List.mem_append_right _ (List.mem_singleton_self _)
    · rw [List.map_append]
      refine placed.apart.append (List.nodup_singleton _) (List.disjoint_singleton.mpr ?_)
      intro again
      obtain ⟨launch, member, same⟩ := List.mem_map.mp again
      have known := placed.launched launch member
      rw [same] at known
      exact new known
    · rcases List.mem_append.mp member with old | last
      · exact placed.awaited launch old tab there
      · obtain rfl := List.mem_singleton.mp last
        have shown := (placed.grid.tabs tab (List.mem_of_getElem? there)).layout
        exact fun member => new (shown.created _ member)

/-- The response of a launch finds its session in no layout of its tab. -/
theorem PlacedOnce.placeSession (placed : placing.PlacedOnce) {place : Nat}
    (taken : placing.step (.placeSession place) = some next) : next.PlacedOnce := by
  simp only [PlacingGrid.step] at taken
  split at taken
  · rename_i index tile there
    obtain ⟨grid, persisted, rfl⟩ := Option.map_eq_some_iff.mp taken
    have member := List.mem_of_getElem? there
    have fresh : ∀ tab ∈ placing.grid.tabs[index]?, tileKey tile ∉ placedKeys tab.layout :=
      placed.awaited _ member
    have others : ∀ launch ∈ placing.launches.eraseIdx place,
        tileKey launch.2 ≠ tileKey tile := by
      intro launch among same
      obtain ⟨other, apart, found⟩ := List.mem_eraseIdx_iff_getElem?.mp among
      have bound := (List.getElem?_eq_some_iff.mp found).1
      refine apart ((List.getElem?_inj (by simpa using bound) placed.apart).mp ?_)
      rw [List.getElem?_map, List.getElem?_map, found, there]
      exact congrArg some same
    have fewer := List.eraseIdx_sublist placing.launches place
    refine ⟨placed.grid.persistTile (placed.launched _ member) fresh persisted, placed.rendered,
      fun launch among => placed.launched launch (fewer.subset among),
      placed.apart.sublist (fewer.map _), ?_⟩
    have awaited : Awaited placing.grid.tabs (placing.launches.eraseIdx place) :=
      fun launch among => placed.awaited launch (fewer.subset among)
    exact awaited.persistTile (fun launch among _ => others launch among) persisted
  · cases taken

/-- A session that is attached was neither rendered nor awaited. -/
theorem PlacedOnce.attachSession (placed : placing.PlacedOnce) {index : Nat} {tile : Tile}
    (keeps : placing.KeepsPace (.attachSession index tile))
    (taken : placing.step (.attachSession index tile) = some next) : next.PlacedOnce := by
  simp only [PlacingGrid.step] at taken
  split at taken
  · rename_i layout shown
    split at taken
    · cases taken
    · rename_i unplaced
      obtain ⟨grid, persisted, rfl⟩ := Option.map_eq_some_iff.mp taken
      obtain ⟨known, unrendered⟩ := not_or.mp unplaced
      refine ⟨placed.grid.persistTile (not_not.mp known) (fun tab there newest => ?_) persisted,
        placed.rendered, placed.launched, placed.apart,
        placed.awaited.persistTile keeps.2 persisted⟩
      exact unrendered (keeps.1 tab there layout shown newest)
  · cases taken

theorem PlacedOnce.inTab (placed : placing.PlacedOnce) {index : Nat} {action : TabAction}
    (keeps : placing.KeepsPace (.inTab index action))
    (taken : placing.step (.inTab index action) = some next) : next.PlacedOnce := by
  simp only [PlacingGrid.step] at taken
  split at taken
  · cases taken
  · rename_i adding
    have adds : action.adds = false := Bool.not_eq_true _ ▸ adding
    obtain ⟨grid, stepped, rfl⟩ := Option.map_eq_some_iff.mp taken
    refine ⟨placed.grid.inTab (fun tab present edit layout same updated => ?_) stepped,
      placed.rendered, placed.launched, placed.apart, ?_⟩
    · subst same
      have shown := (placed.grid.tabs tab (List.mem_of_getElem? present)).layout
      exact shown.subperm (edit.subperm_update adds updated)
    · obtain ⟨tab, after, present, performed, rfl⟩ := Grid.step_inTab stepped
      refine placed.awaited.set fun launch member own shown => ?_
      rcases Tab.step_shown adds performed with
        fewer | ⟨place, get, answer, document, rfl, issued, adopted, answered, found, same⟩
      · exact placed.awaited launch member tab (own ▸ present) (fewer.subset shown)
      · rw [same] at shown
        exact keeps tab present get issued adopted answer answered document found launch member
          own shown

theorem PlacedOnce.step (placed : placing.PlacedOnce) {action : PlacingAction}
    (keeps : placing.KeepsPace action) (taken : placing.step action = some next) :
    next.PlacedOnce := by
  cases action with
  | openTab =>
    cases taken
    refine ⟨placed.grid.openTab, fun layout member => ?_, placed.launched, placed.apart,
      placed.awaited.openTab⟩
    rcases List.mem_append.mp member with old | new
    · exact placed.rendered layout old
    · cases List.mem_singleton.mp new
      exact placedOnce_emptyLayout
  | render index =>
    obtain ⟨tab, present, rfl⟩ := Option.map_eq_some_iff.mp taken
    refine ⟨placed.grid, fun layout member => ?_, placed.launched, placed.apart, placed.awaited⟩
    rcases List.mem_or_eq_of_mem_set member with old | rfl
    · exact placed.rendered layout old
    · exact (placed.grid.tabs tab (List.mem_of_getElem? present)).layout
  | launch index launched => exact placed.launch taken
  | placeSession place => exact placed.placeSession taken
  | attachSession index attached => exact placed.attachSession keeps taken
  | inTab index action => exact placed.inTab keeps taken
  | commitPut index =>
    obtain ⟨grid, committed, rfl⟩ := Option.map_eq_some_iff.mp taken
    exact ⟨placed.grid.commitPut committed, placed.rendered, placed.launched, placed.apart,
      placed.awaited.commitPut committed⟩

theorem placingOn_placedOnce {stored : Option Layout} {created : List String}
    (placed : ∀ layout ∈ stored, layout.PlacedOnce created) :
    (placingOn stored created).PlacedOnce :=
  ⟨⟨placed, by simp [placingOn, storedLayout]⟩, by simp [placingOn], by simp [placingOn],
    List.nodup_nil, by simp [Awaited, placingOn]⟩

end PlacingGrid

/-- A daemon that stores a layout with distinct tiles, of sessions it created, and its tabs show,
render and store layouts with distinct tiles, where the sessions are placed as `KeepsPace` says. -/
theorem sessions_placed_once {stored : Option Layout} {created : List String}
    (placed : ∀ layout ∈ stored, layout.PlacedOnce created) {actions : List PlacingAction}
    {final : PlacingGrid}
    (run : Run PlacingGrid.step PlacingGrid.KeepsPace (placingOn stored created) actions final) :
    (∀ tab ∈ final.grid.tabs, tab.layout.Distinct) ∧
      (∀ layout ∈ final.rendered, layout.Distinct) ∧
      ∀ layout ∈ final.grid.stored, layout.Distinct := by
  have once : final.PlacedOnce := run.invariant PlacingGrid.PlacedOnce
    (PlacingGrid.placingOn_placedOnce placed) fun _ _ _ placed keeps taken =>
      placed.step keeps taken
  exact ⟨fun tab member => (once.grid.tabs tab member).layout.distinct,
    fun layout member => (once.rendered layout member).distinct,
    fun layout held => (once.grid.stored layout held).distinct⟩

/-- Two tabs load the empty grid, and one launches a session. -/
def launchedByFirst : List PlacingAction :=
  [.openTab, .openTab, .inTab 0 .connect, .inTab 0 (.answerGet 0), .inTab 0 (.getSettled 0),
    .inTab 1 (.answerGet 0), .inTab 1 (.getSettled 0), .launch 0 (localTile 1)]

/-- The launch returns and is written before the other tab looks, which then attaches a session
that was there. -/
def placedByFirst : List PlacingAction :=
  launchedByFirst ++ [.placeSession 0, .render 0, .commitPut 0, .inTab 1 .resync,
    .inTab 1 (.answerGet 0), .inTab 1 (.getSettled 0), .render 1, .attachSession 1 (localTile 2),
    .render 1, .commitPut 1]

theorem placedByFirst_distinct :
    ∃ final, Run PlacingGrid.step PlacingGrid.KeepsPace (placingOn none ["local:2"]) placedByFirst
        final ∧
      (∃ layout ∈ final.grid.stored, placedKeys layout = ["local:1", "local:2"]) ∧
      (∀ tab ∈ final.grid.tabs, tab.layout.Distinct) ∧
      (∀ layout ∈ final.rendered, layout.Distinct) ∧
      ∀ layout ∈ final.grid.stored, layout.Distinct := by
  obtain ⟨final, computed, passed⟩ := exists_of_exec PlacingGrid.step
    (placingOn none ["local:2"]) placedByFirst
    (fun placing => decide (∃ layout ∈ placing.grid.stored,
      placedKeys layout = ["local:1", "local:2"])) (by decide)
  have run : Run PlacingGrid.step PlacingGrid.KeepsPace (placingOn none ["local:2"])
      placedByFirst final := Run.of_exec computed (by decide)
  exact ⟨final, run, of_decide_eq_true passed, sessions_placed_once (by simp) run⟩

/-- The other tab attaches the new session and writes; the first adopts that before its launch
returns. -/
def attachedMeanwhile : List PlacingAction :=
  launchedByFirst ++ [.attachSession 1 (localTile 1), .commitPut 1, .inTab 0 .readEvent,
    .inTab 0 (.answerGet 0), .inTab 0 (.getSettled 0), .inTab 0 .readEvent,
    .inTab 0 (.answerGet 0), .inTab 0 (.getSettled 0), .render 0, .placeSession 0, .render 0,
    .commitPut 0]

/-- The session is then placed twice, on the screen of the first tab and in what the daemon
stores. -/
theorem session_placed_twice :
    ∃ placing, Run PlacingGrid.step anything (placingOn none []) attachedMeanwhile placing ∧
      ¬ ((∀ tab ∈ placing.grid.tabs, tab.layout.Distinct) ∨
        (∀ layout ∈ placing.rendered, layout.Distinct) ∨
          ∀ layout ∈ placing.grid.stored, layout.Distinct) := by
  obtain ⟨placing, computed, passed⟩ := exists_of_exec PlacingGrid.step (placingOn none [])
    attachedMeanwhile (fun placing => decide (¬ ((∀ tab ∈ placing.grid.tabs, tab.layout.Distinct) ∨
        (∀ layout ∈ placing.rendered, layout.Distinct) ∨
          ∀ layout ∈ placing.grid.stored, layout.Distinct))) (by decide)
  exact ⟨placing, Run.of_exec_anything computed, of_decide_eq_true passed⟩

end Multimux
