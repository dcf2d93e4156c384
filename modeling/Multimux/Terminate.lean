/-
This file asks which tile goes when a terminated session's DELETE has settled.
The handler captured a slot of the layout before it awaited the DELETE, and
every edit repacks the tiles, so the slot need not be the session's any more.
The content here is which steps in between do harm: every DELETE that waits can
settle, whichever is next, and remove its own session's tile and no other,
exactly as long as each edit, completion and adopted layout leaves the tiles of
the sessions that wait in the slots they were captured in.
-/

import Multimux.CanonicalForm
import Multimux.Grid

namespace Multimux

/-! ### Removing a slot and removing a session -/

/-- How many tiles of the layout have the key. -/
def Layout.countKey (layout : Layout) (key : String) : Nat :=
  layout.placed.countP fun tile => tileKey tile = key

/-- The slot holds the only tile of the session, or is empty while the session has none. -/
def OwnSlot (layout : Layout) (index : Nat) (key : String) : Prop :=
  match layout.tiles[index]? with
  | some (some tile) => tileKey tile = key ∧ layout.countKey key = 1
  | _ => layout.countKey key = 0

instance (layout : Layout) (index : Nat) (key : String) : Decidable (OwnSlot layout index key) := by
  unfold OwnSlot
  split <;> infer_instance

/-- Taking out the tile at one place of `count` leaves another in its place: it comes after that,
or it is the last one that goes, or there was nothing any more. -/
def SparesRemoval (count removed index : Nat) : Prop :=
  count ≤ index ∨ index < removed ∨ removed = index ∧ count = index + 1

/-- Exchanging two places leaves a tile in its place: neither is its own, or one is empty, so that
the tile of the other goes to the end. -/
def SparesExchange (count a b index : Nat) : Prop :=
  if a < count ∧ b < count then index ≠ a ∧ index ≠ b
  else SparesRemoval count (min a b) index

/-- An edit leaves the tile of a session that waits in its place, and the place without one where
the tile is gone. -/
def LayoutEdit.Spares (placed : List Tile) (index : Nat) (key : String) : LayoutEdit → Prop
  | .attachSession tile | .placeSession tile => tileKey tile = key ↔ index = placed.length
  | .removeTile removed => SparesRemoval placed.length removed index
  | .swapTiles source target => SparesExchange placed.length source target index
  | .setCols _ | .adoptSizes _ _ => True
  | .removeTilesWhere keys => placed.length ≤ index ∨
      if key ∈ keys then (placed.filter fun tile => tileKey tile ∉ keys).length ≤ index
      else ∀ tile ∈ placed.take index, tileKey tile ∉ keys

/-- What happens in a tab spares its terminations that wait: an edit or another completion leaves
their tiles in place, an answer that is adopted has them in the same place, and a session that is
terminated is placed once. -/
def Tab.Spares (tab : Tab) : TabAction → Prop
  | .edit edit => ∀ waiting ∈ tab.terminations,
      edit.Spares tab.layout.placed waiting.tileIndex (tileKey waiting.tile)
  | .terminateSession tileIndex => ∀ tile ∈ (tab.layout.tiles[tileIndex]?).join,
      tab.layout.countKey (tileKey tile) = 1
  | .deleteSettled index => ∀ settled ∈ tab.terminations[index]?,
      ∀ waiting ∈ tab.terminations.eraseIdx index,
        SparesRemoval tab.layout.placed.length settled.tileIndex waiting.tileIndex
  | .getSettled index => ∀ get ∈ tab.gets[index]?, ∀ answer ∈ get.answer,
      tab.discards get = false → ∀ document ∈ answer.document, ∀ waiting ∈ tab.terminations,
        OwnSlot document.normalized waiting.tileIndex (tileKey waiting.tile)
  | _ => True

/-- A step of the page spares the terminations that wait. -/
def SparesWaiting (grid : Grid) : GridAction → Prop
  | .inTab index action => ∀ tab ∈ grid.tabs[index]?, tab.Spares action
  | _ => True

instance SparesRemoval.decidable (count removed index : Nat) :
    Decidable (SparesRemoval count removed index) :=
  inferInstanceAs (Decidable (_ ∨ _ ∨ _))

instance SparesExchange.decidable (count a b index : Nat) :
    Decidable (SparesExchange count a b index) := by
  unfold SparesExchange
  infer_instance

instance LayoutEdit.Spares.decidable (placed : List Tile) (index : Nat) (key : String) :
    ∀ edit : LayoutEdit, Decidable (edit.Spares placed index key)
  | .attachSession _ | .placeSession _ => inferInstanceAs (Decidable (_ ↔ _))
  | .removeTile _ | .swapTiles _ _ => by unfold LayoutEdit.Spares; infer_instance
  | .setCols _ | .adoptSizes _ _ => .isTrue trivial
  | .removeTilesWhere _ => by unfold LayoutEdit.Spares; infer_instance

instance Tab.Spares.decidable (tab : Tab) : ∀ action, Decidable (tab.Spares action)
  | .edit _ | .terminateSession _ | .deleteSettled _ | .getSettled _ => by
    unfold Tab.Spares
    infer_instance
  | .connect | .putSettled | .readEvent | .resync | .answerGet _ | .getFailed _ => .isTrue trivial

instance SparesWaiting.decidable (grid : Grid) : ∀ action, Decidable (SparesWaiting grid action)
  | .inTab _ _ => by
    unfold SparesWaiting
    infer_instance
  | .openTab | .commitPut _ => .isTrue trivial

/-! ### The place of a tile -/

/-- The key is at the place and at no other, or neither the key is there nor the place. -/
structure OwnPlace (placed : List Tile) (index : Nat) (key : String) : Prop where
  only : ∀ (place : Nat) (tile : Tile), placed[place]? = some tile → tileKey tile = key →
    place = index
  there : ∀ tile, placed[index]? = some tile → tileKey tile = key

theorem OwnPlace.gone {placed : List Tile} {index : Nat} {key : String}
    (own : OwnPlace placed index key) (beyond : placed.length ≤ index) {tile : Tile}
    (member : tile ∈ placed) : tileKey tile ≠ key := by
  intro same
  obtain ⟨place, found⟩ := List.getElem?_of_mem member
  obtain rfl := own.only place tile found same
  exact absurd (List.getElem?_eq_some_iff.mp found).1 (Nat.not_lt.mpr beyond)

theorem ownPlace_of_gone {placed : List Tile} {index : Nat} {key : String}
    (beyond : placed.length ≤ index) (gone : ∀ tile ∈ placed, tileKey tile ≠ key) :
    OwnPlace placed index key where
  only _ tile found same := absurd same (gone tile (List.mem_of_getElem? found))
  there tile found := by
    rw [List.getElem?_eq_none beyond] at found
    cases found

/-- With a tile at the place, the key is its own and neither before nor behind it. -/
theorem ownPlace_append_iff {front back : List Tile} {tile : Tile} {key : String} :
    OwnPlace (front ++ tile :: back) front.length key ↔ tileKey tile = key ∧
      (∀ other ∈ front, tileKey other ≠ key) ∧ ∀ other ∈ back, tileKey other ≠ key := by
  have here : (front ++ tile :: back)[front.length]? = some tile := by simp
  constructor
  · rintro ⟨only, there⟩
    refine ⟨there tile here, fun other member same => ?_, fun other member same => ?_⟩
    · obtain ⟨place, found⟩ := List.getElem?_of_mem member
      have bound := (List.getElem?_eq_some_iff.mp found).1
      have moved := only place other ((List.getElem?_append_left bound).trans found) same
      omega
    · obtain ⟨place, found⟩ := List.getElem?_of_mem member
      have behind : (front ++ tile :: back)[front.length + (place + 1)]? = some other := by
        rw [List.getElem?_append_right (Nat.le_add_right _ _), Nat.add_sub_cancel_left]
        exact found
      have moved := only _ other behind same
      omega
  · rintro ⟨own, before, behind⟩
    refine ⟨fun place other found same => ?_, fun other found => ?_⟩
    · rw [List.getElem?_append] at found
      split at found
      · exact absurd same (before other (List.mem_of_getElem? found))
      · cases rest : place - front.length with
        | zero => omega
        | succ later =>
          rw [rest, List.getElem?_cons_succ] at found
          exact absurd same (behind other (List.mem_of_getElem? found))
    · rw [here, Option.some.injEq] at found
      exact found ▸ own

theorem ownSlot_iff {layout : Layout} (form : layout.CanonicalForm) (index : Nat) (key : String) :
    OwnSlot layout index key ↔ OwnPlace layout.placed index key := by
  have occupied : ∀ (place : Nat) (tile : Tile), layout.tiles[place]? = some (some tile) ↔
      layout.placed[place]? = some tile := by
    intro place tile
    rw [form.front]
    exact getElem?_packed
  unfold OwnSlot Layout.countKey
  split
  · rename_i tile here
    obtain ⟨bound, rfl⟩ := List.getElem?_eq_some_iff.mp ((occupied index tile).mp here)
    have length : (layout.placed.take index).length = index :=
      List.length_take_of_le (Nat.le_of_lt bound)
    have split : layout.placed.take index ++ layout.placed[index] ::
        layout.placed.drop (index + 1) = layout.placed := by
      rw [← List.drop_eq_getElem_cons bound, List.take_append_drop]
    generalize layout.placed[index] = tile at split
    generalize layout.placed.drop (index + 1) = back at split
    generalize layout.placed.take index = front at split length
    rw [← split, ← length, ownPlace_append_iff]
    refine and_congr_right fun own => ?_
    rw [List.countP_append, List.countP_cons, if_pos (decide_eq_true own)]
    constructor
    · intro one
      obtain ⟨before, behind⟩ : front.countP (fun tile => tileKey tile = key) = 0 ∧
          back.countP (fun tile => tileKey tile = key) = 0 := by omega
      exact ⟨fun other member => by simpa using List.countP_eq_zero.mp before other member,
        fun other member => by simpa using List.countP_eq_zero.mp behind other member⟩
    · rintro ⟨before, behind⟩
      rw [List.countP_eq_zero.mpr fun other member => by simpa using before other member,
        List.countP_eq_zero.mpr fun other member => by simpa using behind other member]
  · rename_i empty
    have beyond : layout.placed.length ≤ index := by
      by_contra inside
      exact empty _ ((occupied index _).mpr (List.getElem?_eq_getElem (Nat.lt_of_not_le inside)))
    rw [List.countP_eq_zero]
    constructor
    · exact fun none => ownPlace_of_gone beyond fun tile member => by simpa using none tile member
    · exact fun own tile member => by simpa using own.gone beyond member

/-- A tile that is added leaves the place exactly when it is the session's own that comes there,
or neither. -/
theorem OwnPlace.concat_iff {placed : List Tile} {index : Nat} {key : String}
    (own : OwnPlace placed index key) (tile : Tile) :
    OwnPlace (placed ++ [tile]) index key ↔ (tileKey tile = key ↔ index = placed.length) := by
  have last : (placed ++ [tile])[placed.length]? = some tile := List.getElem?_concat_length
  constructor
  · intro after
    exact ⟨fun same => (after.only _ tile last same).symm,
      fun same => after.there tile (same ▸ last)⟩
  · intro spares
    refine ⟨fun place other found same => ?_, fun other found => ?_⟩
    · rcases getElem?_concat_cases found with old | ⟨rfl, rfl⟩
      · exact own.only place other old same
      · exact (spares.mp same).symm
    · rcases getElem?_concat_cases found with old | ⟨beyond, rfl⟩
      · exact own.there other old
      · exact spares.mpr beyond

/-- A tile that is taken out leaves the place exactly when the removal spares it. -/
theorem OwnPlace.eraseIdx_iff {placed : List Tile} {index : Nat} {key : String}
    (own : OwnPlace placed index key) (removed : Nat) :
    OwnPlace (placed.eraseIdx removed) index key ↔
      SparesRemoval placed.length removed index := by
  have erased : ∀ place : Nat, (placed.eraseIdx removed)[place]? =
      if place < removed then placed[place]? else placed[place + 1]? := fun place =>
    List.getElem?_eraseIdx
  constructor
  · intro after
    by_contra moved
    obtain ⟨inside, moved⟩ := not_or.mp moved
    obtain ⟨before, moved⟩ := not_or.mp moved
    have found := List.getElem?_eq_getElem (Nat.lt_of_not_le inside)
    have here := own.there _ found
    rcases Nat.lt_or_eq_of_le (Nat.le_of_not_lt before) with earlier | rfl
    · -- the session's tile moves forward by one
      have shifted : (placed.eraseIdx removed)[index - 1]? = some placed[index] := by
        rw [erased, if_neg (by omega), Nat.sub_add_cancel (by omega)]
        exact found
      have same := after.only _ _ shifted here
      omega
    · -- the tile after it comes into its place
      have bound : removed + 1 < placed.length := by omega
      have next : (placed.eraseIdx removed)[removed]? = some placed[removed + 1] := by
        rw [erased, if_neg (Nat.lt_irrefl _)]
        exact List.getElem?_eq_getElem bound
      have same := own.only _ _ (List.getElem?_eq_getElem bound) (after.there _ next)
      omega
  · intro spares
    refine ⟨fun place tile found same => ?_, fun tile found => ?_⟩
    · rw [erased] at found
      split at found
      · exact own.only place tile found same
      · have shifted := own.only _ tile found same
        have bound := (List.getElem?_eq_some_iff.mp found).1
        rcases spares with beyond | before | ⟨rfl, -⟩
        · exact absurd same (own.gone beyond (List.mem_of_getElem? found))
        · omega
        · omega
    · rw [erased] at found
      split at found
      · exact own.there tile found
      · have bound := (List.getElem?_eq_some_iff.mp found).1
        rcases spares with beyond | before | ⟨rfl, last⟩
        · omega
        · omega
        · omega

/-- Tiles that are taken out by their keys leave the place exactly when none of them comes before
the session's own, or its own goes and all behind it do. -/
theorem OwnPlace.filter_iff {placed : List Tile} {index : Nat} {key : String}
    (own : OwnPlace placed index key) (keys : List String) :
    OwnPlace (placed.filter fun tile => tileKey tile ∉ keys) index key ↔
      (LayoutEdit.removeTilesWhere keys).Spares placed index key := by
  by_cases beyond : placed.length ≤ index
  · refine iff_of_true (ownPlace_of_gone ?_ ?_) (.inl beyond)
    · exact Nat.le_trans (List.length_filter_le _ _) beyond
    · exact fun tile member => own.gone beyond (List.mem_of_mem_filter member)
  · have bound := Nat.lt_of_not_le beyond
    have length : (placed.take index).length = index :=
      List.length_take_of_le (Nat.le_of_lt bound)
    have split : placed.take index ++ placed[index] :: placed.drop (index + 1) = placed := by
      rw [← List.drop_eq_getElem_cons bound, List.take_append_drop]
    simp only [LayoutEdit.Spares, beyond, false_or]
    generalize placed[index] = tile at split
    generalize placed.drop (index + 1) = back at split
    generalize placed.take index = front at split length
    subst split length
    obtain ⟨rfl, before, behind⟩ := ownPlace_append_iff.mp own
    rw [List.filter_append]
    by_cases named : tileKey tile ∈ keys
    · rw [if_pos named, List.filter_cons_of_neg (by simpa using named)]
      have gone : ∀ other ∈ front.filter (fun tile => tileKey tile ∉ keys) ++
          back.filter (fun tile => tileKey tile ∉ keys), tileKey other ≠ tileKey tile := by
        intro other member
        rcases List.mem_append.mp member with left | right
        · exact before other (List.mem_of_mem_filter left)
        · exact behind other (List.mem_of_mem_filter right)
      constructor
      · intro after
        by_contra inside
        have found := List.getElem?_eq_getElem (Nat.lt_of_not_le inside)
        exact gone _ (List.mem_of_getElem? found) (after.there _ found)
      · exact fun few => ownPlace_of_gone few gone
    · rw [if_neg named, List.filter_cons_of_pos (by simpa using named)]
      constructor
      · intro after other member
        have same := after.only _ tile (List.getElem?_append_right (Nat.le_refl _) |>.trans
          (by simp)) rfl
        simpa using List.length_filter_eq_length_iff.mp same other member
      · intro kept
        rw [List.filter_eq_self.mpr fun other member => by simpa using kept other member]
        exact ownPlace_append_iff.mpr ⟨rfl, before, fun other member =>
          behind other (List.mem_of_mem_filter member)⟩

/-- A tile that goes to the end leaves the place exactly as its removal does. -/
theorem OwnPlace.move_iff {placed : List Tile} {index source : Nat} {key : String} {tile : Tile}
    (own : OwnPlace placed index key) (found : placed[source]? = some tile) :
    OwnPlace (placed.eraseIdx source ++ [tile]) index key ↔
      SparesRemoval placed.length source index := by
  obtain ⟨bound, rfl⟩ := List.getElem?_eq_some_iff.mp found
  have length : (placed.eraseIdx source).length = placed.length - 1 :=
    List.length_eraseIdx_of_lt bound
  constructor
  · intro after
    by_contra moved
    obtain ⟨inside, moved⟩ := not_or.mp moved
    obtain ⟨before, moved⟩ := not_or.mp moved
    have there := List.getElem?_eq_getElem (Nat.lt_of_not_le inside)
    have here := own.there _ there
    rcases Nat.lt_or_eq_of_le (Nat.le_of_not_lt before) with earlier | rfl
    · have shifted : (placed.eraseIdx source ++ [placed[source]])[index - 1]? =
          some placed[index] := by
        rw [List.getElem?_append_left (by omega), List.getElem?_eraseIdx, if_neg (by omega),
          Nat.sub_add_cancel (by omega)]
        exact there
      have same := after.only _ _ shifted here
      omega
    · have same := after.only _ _ List.getElem?_concat_length here
      omega
  · intro spares
    refine (((own.eraseIdx_iff source).mpr spares).concat_iff _).mpr
      ⟨fun same => ?_, fun last => ?_⟩
    · obtain rfl := own.only source _ found same
      rcases spares with beyond | before | ⟨-, last⟩ <;> omega
    · rw [length] at last
      rcases spares with beyond | before | ⟨rfl, -⟩
      · omega
      · omega
      · exact own.there _ found

/-- Two places that are exchanged leave a third exactly when the exchange spares it. -/
theorem OwnPlace.exchange_iff {placed : List Tile} {index : Nat} {key : String}
    (own : OwnPlace placed index key) {a b : Nat} (apart : a ≠ b) :
    OwnPlace (exchange placed a b) index key ↔ SparesExchange placed.length a b index := by
  have vacant : ∀ {place : Nat}, placed[place]? = none → placed.length ≤ place :=
    List.getElem?_eq_none_iff.mp
  have inside : ∀ {place : Nat} {tile : Tile}, placed[place]? = some tile →
      place < placed.length := fun found => (List.getElem?_eq_some_iff.mp found).1
  unfold exchange SparesExchange
  cases atA : placed[a]? with
  | none =>
    have beyondA := vacant atA
    rw [if_neg (by omega)]
    cases atB : placed[b]? with
    | none =>
      have beyondB := vacant atB
      refine iff_of_true own ?_
      unfold SparesRemoval
      omega
    | some second =>
      have boundB := inside atB
      rw [Nat.min_eq_right (by omega)]
      exact own.move_iff atB
  | some first =>
    have boundA := inside atA
    cases atB : placed[b]? with
    | none =>
      have beyondB := vacant atB
      rw [if_neg (by omega), Nat.min_eq_left (by omega)]
      exact own.move_iff atA
    | some second =>
      have boundB := inside atB
      rw [if_pos ⟨boundA, boundB⟩]
      have exchanged : ∀ place : Nat, ((placed.set a second).set b first)[place]? =
          if place = b then some first else if place = a then some second else placed[place]? := by
        intro place
        rw [List.getElem?_set, List.getElem?_set, List.length_set]
        by_cases last : b = place
        · subst last
          simp [boundB]
        · by_cases front : a = place
          · subst front
            simp [boundA, last, Ne.symm last]
          · simp [last, front, Ne.symm last, Ne.symm front]
      constructor
      · intro after
        refine ⟨?_, ?_⟩
        · rintro rfl
          have moved := after.only b first (by rw [exchanged, if_pos rfl]) (own.there first atA)
          exact apart moved.symm
        · rintro rfl
          have moved := after.only a second (by rw [exchanged, if_neg apart, if_pos rfl])
            (own.there second atB)
          exact apart moved
      · rintro ⟨notA, notB⟩
        refine ⟨fun place tile found same => ?_, fun tile found => ?_⟩
        · rw [exchanged] at found
          split at found
          · cases found
            exact absurd (own.only a _ atA same).symm notA
          · split at found
            · cases found
              exact absurd (own.only b _ atB same).symm notB
            · exact own.only place tile found same
        · rw [exchanged, if_neg notB, if_neg notA] at found
          exact own.there tile found

/-- An edit keeps the form of a layout, and keeps the place of a session that waits exactly when
it spares it. -/
theorem LayoutEdit.ownPlace_update {layout next : Layout} {edit : LayoutEdit}
    (form : layout.CanonicalForm) (updated : edit.update layout = some next) :
    next.CanonicalForm ∧ ∀ index key, OwnPlace layout.placed index key →
      (OwnPlace next.placed index key ↔ edit.Spares layout.placed index key) := by
  cases edit with
  | attachSession tile =>
    simp only [LayoutEdit.update] at updated
    split at updated <;> cases updated
    exact ⟨canonicalForm_normalize .., fun index key own => placed_addTile layout tile ▸
      own.concat_iff tile⟩
  | placeSession tile =>
    cases updated
    exact ⟨canonicalForm_normalize .., fun index key own => placed_addTile layout tile ▸
      own.concat_iff tile⟩
  | removeTile removed =>
    simp only [LayoutEdit.update] at updated
    split at updated <;> cases updated
    exact ⟨canonicalForm_normalize .., fun index key own => form.placed_removeTile removed ▸
      own.eraseIdx_iff removed⟩
  | swapTiles source target =>
    simp only [LayoutEdit.update] at updated
    split at updated <;> cases updated
    rename_i bounds
    refine ⟨canonicalForm_normalize .., fun index key own => ?_⟩
    rw [form.placed_swapTiles]
    exact own.exchange_iff bounds.2.2
  | setCols cols =>
    cases updated
    exact ⟨canonicalForm_normalize .., fun index key own =>
      iff_of_true (placed_setCols layout cols ▸ own) trivial⟩
  | adoptSizes rowSizes colSizes =>
    cases updated
    exact ⟨canonicalForm_normalize .., fun index key own =>
      iff_of_true (placed_adoptSizes layout rowSizes colSizes ▸ own) trivial⟩
  | removeTilesWhere keys =>
    cases updated
    refine ⟨form.removeTilesWhere _, fun index key own => ?_⟩
    have kept : (Multimux.removeTilesWhere layout fun tile => tileKey tile ∈ keys).placed =
        layout.placed.filter fun tile => tileKey tile ∉ keys := by simp
    rw [kept]
    exact own.filter_iff keys

/-! ### Tabs -/

/-- What a step makes of the layout and the terminations that wait. -/
inductive Tab.Changes (tab after : Tab) : TabAction → Prop
  | none {action : TabAction} (layout : after.layout = tab.layout)
      (terminations : after.terminations = tab.terminations) (spares : tab.Spares action) :
      Changes tab after action
  | edits {edit : LayoutEdit} {next : Layout} (updated : edit.update tab.layout = some next)
      (layout : after.layout = next) (terminations : after.terminations = tab.terminations) :
      Changes tab after (.edit edit)
  | captures {tileIndex : Nat} {tile : Tile}
      (here : tab.layout.tiles[tileIndex]? = some (some tile)) (layout : after.layout = tab.layout)
      (terminations : after.terminations = tab.terminations ++ [⟨tile, tileIndex⟩]) :
      Changes tab after (.terminateSession tileIndex)
  | completes {index : Nat} {settled : Termination}
      (pending : tab.terminations[index]? = some settled)
      (layout : after.layout = removeTile tab.layout settled.tileIndex)
      (terminations : after.terminations = tab.terminations.eraseIdx index) :
      Changes tab after (.deleteSettled index)
  | adopts {index : Nat} {get : LayoutGet} {answer : LayoutAnswer} {document : Layout}
      (issued : tab.gets[index]? = some get) (answered : get.answer = some answer)
      (kept : tab.discards get = false) (read : answer.document = some document)
      (layout : after.layout = document.normalized)
      (terminations : after.terminations = tab.terminations) :
      Changes tab after (.getSettled index)

theorem Tab.Changes.form {tab after : Tab} {action : TabAction}
    (changes : tab.Changes after action) (form : tab.layout.CanonicalForm) :
    after.layout.CanonicalForm := by
  cases changes with
  | none layout => exact layout ▸ form
  | edits updated layout => exact layout ▸ (LayoutEdit.ownPlace_update form updated).1
  | captures _ layout => exact layout ▸ form
  | completes _ layout =>
    rw [layout]
    exact canonicalForm_normalize ..
  | adopts _ _ _ _ layout =>
    rw [layout]
    exact canonicalForm_normalize ..

/-- Every termination that waits has its session's tile in the slot that it captured. -/
def Tab.InPlace (tab : Tab) : Prop :=
  ∀ waiting ∈ tab.terminations,
    OwnPlace tab.layout.placed waiting.tileIndex (tileKey waiting.tile)

/-- A step of a tab keeps what waits in place exactly when it spares it. -/
theorem Tab.InPlace.step_iff {tab after : Tab} (inPlace : tab.InPlace)
    (form : tab.layout.CanonicalForm) {action : TabAction} (changes : tab.Changes after action) :
    after.InPlace ↔ tab.Spares action := by
  cases changes with
  | none layout terminations spares =>
    refine iff_of_true ?_ spares
    rw [Tab.InPlace, layout, terminations]
    exact inPlace
  | edits updated layout terminations =>
    rw [Tab.InPlace, layout, terminations]
    exact forall₂_congr fun waiting member =>
      (LayoutEdit.ownPlace_update form updated).2 _ _ (inPlace waiting member)
  | @captures tileIndex tile here layout terminations =>
    have own := ownSlot_iff form tileIndex (tileKey tile)
    simp only [OwnSlot, here, true_and] at own
    rw [Tab.InPlace, layout, terminations, List.forall_mem_append, List.forall_mem_singleton, ← own]
    simp only [Tab.Spares, here, Option.join_some, Option.mem_def, Option.some.injEq, forall_eq']
    exact and_iff_right inPlace
  | @completes index settled pending layout terminations =>
    rw [Tab.InPlace, layout, terminations]
    simp only [Tab.Spares, pending, Option.mem_def, Option.some.injEq, forall_eq']
    refine forall₂_congr fun waiting member => ?_
    rw [form.placed_removeTile]
    exact (inPlace waiting (List.mem_of_mem_eraseIdx member)).eraseIdx_iff settled.tileIndex
  | adopts issued answered kept read layout terminations =>
    rw [Tab.InPlace, layout, terminations]
    simp only [Tab.Spares, issued, answered, kept, read, Option.mem_def, Option.some.injEq,
      forall_eq', forall_const]
    exact forall₂_congr fun waiting _ => (ownSlot_iff (canonicalForm_normalize ..) _ _).symm

/-! ### The page -/

/-- In every tab every termination that waits has its session's tile in place. -/
def Grid.InPlace (grid : Grid) : Prop := ∀ tab ∈ grid.tabs, tab.InPlace

end Multimux
