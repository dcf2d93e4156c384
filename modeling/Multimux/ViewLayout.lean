/-
This file models what a tab that shows only some directories makes of the
stored layout. The tiles that show are packed again, beside the index that each
has in the stored layout, and an overlay sorts the pairs by the places of their
keys in its order. Tiles and indices travel as pairs throughout, so what a view
slot shows and where it points are told by one list, which sorting permutes.
-/

import Multimux.CanonicalForm
import Multimux.TextOrder

namespace Multimux

/-! ### Views -/

/-- A view of a layout, and the index in the layout of each occupied slot. -/
@[ext]
structure FilteredView where
  view : Layout
  map : List Nat
  mapped : ∀ slot tile, view.tiles[slot]? = some (some tile) → slot < map.length

/-- A tile in a packed layout stands where it stands in the list of tiles. -/
theorem getElem?_normalize {tiles : List Tile} {cols : ℚ} {rowSizes : Option (List ℚ)}
    {colSizes : Option (List (List ℚ))} {slot : Nat} {tile : Tile} :
    (normalize (tiles.map some) cols rowSizes colSizes).tiles[slot]? = some (some tile) ↔
      tiles[slot]? = some tile := by
  simp only [normalize, reduceOption_map_some]
  exact getElem?_packed

/-- The view of some tiles, each with its index. -/
def packView (shown : List (Tile × Nat)) (cols : ℚ) (rowSizes : Option (List ℚ))
    (colSizes : Option (List (List ℚ))) : FilteredView where
  view := normalize ((shown.map Prod.fst).map some) cols rowSizes colSizes
  map := shown.map Prod.snd
  mapped slot tile occupied := by
    have bound := (List.getElem?_eq_some_iff.mp (getElem?_normalize.mp occupied)).1
    simpa only [List.length_map] using bound

/-- The occupied slots that are visible, each with its index. -/
def visibleSlots (layout : Layout) (isVisible : Tile → Bool) : List (Tile × Nat) :=
  layout.tiles.zipIdx.filterMap fun slot => (slot.1.filter isVisible).map fun tile => (tile, slot.2)

/-- The view of the tiles that pass the filter. -/
def filterLayout (layout : Layout) (isVisible : Tile → Bool) : FilteredView :=
  packView (visibleSlots layout isVisible) layout.shape.cols layout.rowSizes layout.colSizes

/-! ### Overlays -/

/-- One directory's arrangement. Its order holds keys, which do not go stale as indices do. -/
structure Overlay where
  cols : ℚ
  order : List String
  rowSizes : List ℚ
  colSizes : List (List ℚ)

/-- The keys of the occupied tiles, in the order they appear. -/
def orderOf (view : Layout) : List String := view.tiles.reduceOption.map tileKey

/-- The overlay of what is on screen. -/
def seedOverlay (view : Layout) : Overlay where
  cols := view.shape.cols
  order := orderOf view
  rowSizes := view.rowSizes.getD []
  colSizes := view.colSizes.getD []

/-- The rank of a key: the index of its last entry. -/
def rank (order : List String) (key : String) : Option Nat := order.zipIdx.reverse.lookup key

/-- The difference of two ranks, where a missing one counts as infinite; the difference of two
missing ones is not a number, which a sort takes for no difference. -/
def compareRanks : Option Nat → Option Nat → Ordering
  | some one, some other => compare one other
  | some _, none => .lt
  | none, some _ => .gt
  | none, none => .eq

/-- The order that the pairs are sorted by. -/
def ranksBefore (order : List String) (one other : Tile × Nat) : Bool :=
  (compareRanks (rank order (tileKey one.1)) (rank order (tileKey other.1))).isLE

/-- The occupied slots of a view, each with the index it maps to. -/
def FilteredView.pairs (packed : FilteredView) : List (Tile × Nat) :=
  packed.view.tiles.zipIdx.filterMap fun slot =>
    slot.1.bind fun tile => packed.map[slot.2]?.map fun real => (tile, real)

/-- Reorder a view by an overlay, and take the overlay's columns and sizes. -/
def applyOverlay (packed : FilteredView) : Option Overlay → FilteredView
  | none => packed
  | some overlay =>
    packView (packed.pairs.mergeSort (ranksBefore overlay.order)) overlay.cols overlay.rowSizes
      overlay.colSizes

/-! ### Ranks -/

section Ranks

variable {order : List String}

theorem rank_eq_none {key : String} : rank order key = none ↔ key ∉ order := by
  simp only [rank, List.lookup_eq_none_iff, List.mem_reverse, List.mem_zipIdx_iff_getElem?,
    bne_iff_ne, ne_eq, Prod.forall]
  constructor
  · intro absent member
    obtain ⟨place, found⟩ := List.getElem?_of_mem member
    exact absent key place found rfl
  · rintro absent other place found rfl
    exact absent (List.mem_of_getElem? found)

/-- In an order without repeats the rank of a key is its place. -/
theorem rank_of_nodup (distinct : order.Nodup) {place : Nat} {key : String}
    (there : order[place]? = some key) : rank order key = some place := by
  cases ranked : rank order key with
  | none => exact absurd (List.mem_of_getElem? there) (rank_eq_none.mp ranked)
  | some other =>
    obtain ⟨before, after, split, -⟩ := List.lookup_eq_some_iff.mp ranked
    have member : (key, other) ∈ order.zipIdx := by
      rw [← List.mem_reverse, split]
      exact List.mem_append_right _ List.mem_cons_self
    have found : order[other]? = some key := List.mem_zipIdx_iff_getElem?.mp member
    have bound := (List.getElem?_eq_some_iff.mp there).1
    rw [(List.getElem?_inj bound distinct).mp (there.trans found.symm)]

theorem compareRanks_trans {one other last : Option Nat}
    (first : (compareRanks one other).isLE = true)
    (second : (compareRanks other last).isLE = true) : (compareRanks one last).isLE = true := by
  cases one <;> cases other <;> cases last <;>
    simp_all [compareRanks, Nat.isLE_compare]
  exact Nat.le_trans first second

theorem compareRanks_total (one other : Option Nat) :
    ((compareRanks one other).isLE || (compareRanks other one).isLE) = true := by
  cases one <;> cases other <;> simp [compareRanks, Nat.isLE_compare]
  exact Nat.le_total _ _

end Ranks

/-! ### Pairs -/

/-- Tiles behind some others, read with the indices of all of them. -/
theorem pairs_append (before shown : List (Tile × Nat)) :
    (((shown.map Prod.fst).map some).zipIdx before.length).filterMap (fun slot =>
      slot.1.bind fun tile =>
        ((before ++ shown).map Prod.snd)[slot.2]?.map fun real => (tile, real)) = shown := by
  induction shown generalizing before with
  | nil => rfl
  | cons pair rest inductionHypothesis =>
    have later := inductionHypothesis (before ++ [pair])
    rw [List.append_assoc, List.singleton_append, List.length_append, List.length_singleton]
      at later
    have here : ((before ++ pair :: rest).map Prod.snd)[before.length]? = some pair.2 := by
      rw [List.getElem?_map, List.getElem?_append_right (Nat.le_refl _), Nat.sub_self]
      rfl
    rw [List.map_cons, List.map_cons, List.zipIdx_cons, List.filterMap_cons]
    simp only [Option.bind_some, here, Option.map_some, later]

variable {shown : List (Tile × Nat)} {cols : ℚ} {rowSizes : Option (List ℚ)}
  {colSizes : Option (List (List ℚ))}

/-- A packed view is read back as the pairs that it was made of. -/
@[simp]
theorem pairs_packView : (packView shown cols rowSizes colSizes).pairs = shown := by
  have whole := pairs_append [] shown
  simp only [FilteredView.pairs, packView, normalize, reduceOption_map_some, List.zipIdx_append,
    List.filterMap_append]
  rw [List.length_nil, List.nil_append] at whole
  rw [whole, List.append_right_eq_self, List.filterMap_eq_nil_iff]
  intro slot member
  rw [List.eq_of_mem_replicate (List.fst_mem_of_mem_zipIdx member), Option.bind_none]

theorem occupied_packView {slot : Nat} {tile : Tile} :
    (packView shown cols rowSizes colSizes).view.tiles[slot]? = some (some tile) ↔
      (shown.map Prod.fst)[slot]? = some tile := getElem?_normalize

@[simp]
theorem placed_packView : (packView shown cols rowSizes colSizes).view.placed =
    shown.map Prod.fst := by
  rw [packView, placed_normalize, reduceOption_map_some]

/-- What a packed view shows in an occupied slot is what its map leads to, where the pairs are
slots of the layout. -/
theorem slot_packView {layout : Layout}
    (each : ∀ pair ∈ shown, layout.tiles[pair.2]? = some (some pair.1)) {slot : Nat} {tile : Tile}
    (occupied : (packView shown cols rowSizes colSizes).view.tiles[slot]? = some (some tile)) :
    ∃ real, (packView shown cols rowSizes colSizes).map[slot]? = some real ∧
      layout.tiles[real]? = some (some tile) := by
  rw [occupied_packView, List.getElem?_map] at occupied
  obtain ⟨pair, there, rfl⟩ := Option.map_eq_some_iff.mp occupied
  refine ⟨pair.2, ?_, each pair (List.mem_of_getElem? there)⟩
  rw [packView, List.getElem?_map, there]
  rfl

/-! ### The slots that are visible -/

section Visible

variable {layout : Layout} {isVisible : Tile → Bool}

theorem mem_visibleSlots {pair : Tile × Nat} :
    pair ∈ visibleSlots layout isVisible ↔
      layout.tiles[pair.2]? = some (some pair.1) ∧ isVisible pair.1 = true := by
  simp only [visibleSlots, List.mem_filterMap, List.mem_zipIdx_iff_getElem?]
  constructor
  · rintro ⟨⟨cell, real⟩, there, made⟩
    obtain ⟨tile, kept, rfl⟩ := Option.map_eq_some_iff.mp made
    obtain ⟨rfl, visible⟩ := Option.filter_eq_some_iff.mp kept
    exact ⟨there, visible⟩
  · rintro ⟨there, visible⟩
    refine ⟨(some pair.1, pair.2), there, ?_⟩
    rw [Option.filter_some_pos visible]
    rfl

/-- The indices grow. -/
theorem visibleSlots_sorted :
    (visibleSlots layout isVisible).Pairwise fun one other => one.2 < other.2 := by
  have indices : layout.tiles.zipIdx.Pairwise fun one other => one.2 < other.2 := by
    rw [← List.pairwise_map (f := Prod.snd) (R := (· < ·)), List.zipIdx_map_snd]
    exact List.pairwise_lt_range'
  refine indices.filterMap _ fun one other before pair made pair' made' => ?_
  obtain ⟨tile, -, rfl⟩ := Option.map_eq_some_iff.mp made
  obtain ⟨tile', -, rfl⟩ := Option.map_eq_some_iff.mp made'
  exact before

theorem map_fst_visibleSlots :
    (visibleSlots layout isVisible).map Prod.fst = layout.placed.filter isVisible := by
  have from' : ∀ (cells : List (Option Tile)) (start : Nat),
      ((cells.zipIdx start).filterMap fun slot =>
        (slot.1.filter isVisible).map fun tile => (tile, slot.2)).map Prod.fst =
      cells.reduceOption.filter isVisible := by
    intro cells
    induction cells with
    | nil => exact fun _ => rfl
    | cons cell rest inductionHypothesis =>
      intro start
      have later := inductionHypothesis (start + 1)
      rw [List.zipIdx_cons, List.filterMap_cons]
      cases cell with
      | none => exact later
      | some tile =>
        rw [List.reduceOption_cons_of_some, List.filter_cons]
        cases visible : isVisible tile <;> simp [Option.filter_some, visible, later]
  exact from' layout.tiles 0

end Visible

/-! ### Arranged views -/

/-- A view of the layout's visible slots, in some order. -/
structure FilteredView.Arranges (filtered : FilteredView) (layout : Layout)
    (isVisible : Tile → Bool) : Prop where
  slots : filtered.pairs.Perm (visibleSlots layout isVisible)
  packed : ∃ cols rowSizes colSizes, filtered = packView filtered.pairs cols rowSizes colSizes

section Arranged

variable {layout : Layout} {isVisible : Tile → Bool} {filtered : FilteredView}

theorem arranges_packView (same : shown.Perm (visibleSlots layout isVisible)) :
    (packView shown cols rowSizes colSizes).Arranges layout isVisible where
  slots := by rwa [pairs_packView]
  packed := ⟨cols, rowSizes, colSizes, by rw [pairs_packView]⟩

theorem arranges_filterLayout (layout : Layout) (isVisible : Tile → Bool) :
    (filterLayout layout isVisible).Arranges layout isVisible :=
  arranges_packView (.refl _)

theorem FilteredView.Arranges.applyOverlay (arranges : filtered.Arranges layout isVisible)
    (overlay : Option Overlay) : (applyOverlay filtered overlay).Arranges layout isVisible := by
  cases overlay with
  | none => exact arranges
  | some overlay => exact arranges_packView ((List.mergeSort_perm _ _).trans arranges.slots)

theorem FilteredView.Arranges.slot (arranges : filtered.Arranges layout isVisible) {slot : Nat}
    {tile : Tile} (occupied : filtered.view.tiles[slot]? = some (some tile)) :
    ∃ real, filtered.map[slot]? = some real ∧ layout.tiles[real]? = some (some tile) := by
  obtain ⟨cols, rowSizes, colSizes, packed⟩ := arranges.packed
  rw [packed] at occupied ⊢
  exact slot_packView (fun pair member =>
    (mem_visibleSlots.mp (arranges.slots.mem_iff.mp member)).1) occupied

theorem FilteredView.Arranges.map_eq (arranges : filtered.Arranges layout isVisible) :
    filtered.map = filtered.pairs.map Prod.snd := by
  obtain ⟨cols, rowSizes, colSizes, packed⟩ := arranges.packed
  conv_lhs => rw [packed]
  rfl

theorem FilteredView.Arranges.placed_eq (arranges : filtered.Arranges layout isVisible) :
    filtered.view.placed = filtered.pairs.map Prod.fst := by
  obtain ⟨cols, rowSizes, colSizes, packed⟩ := arranges.packed
  conv_lhs => rw [packed]
  exact placed_packView

theorem FilteredView.Arranges.length_map (arranges : filtered.Arranges layout isVisible) :
    filtered.map.length = filtered.view.placed.length := by
  rw [arranges.map_eq, arranges.placed_eq, List.length_map, List.length_map]

theorem FilteredView.Arranges.nodup_map (arranges : filtered.Arranges layout isVisible) :
    filtered.map.Nodup := by
  have indices : ((visibleSlots layout isVisible).map Prod.snd).Nodup :=
    List.pairwise_map.mpr (visibleSlots_sorted.imp Nat.ne_of_lt)
  rw [arranges.map_eq]
  exact (arranges.slots.map _).nodup_iff.mpr indices

theorem FilteredView.Arranges.mem_map (arranges : filtered.Arranges layout isVisible)
    {real : Nat} : real ∈ filtered.map ↔
      ∃ tile, layout.tiles[real]? = some (some tile) ∧ isVisible tile = true := by
  rw [arranges.map_eq, (arranges.slots.map _).mem_iff, List.mem_map]
  simp only [mem_visibleSlots, Prod.exists]
  exact ⟨fun ⟨tile, _, shows, same⟩ => ⟨tile, same ▸ shows⟩, fun ⟨tile, shows⟩ =>
    ⟨tile, real, shows, rfl⟩⟩

/-- The tiles of a view of a layout with distinct keys have distinct keys. -/
theorem FilteredView.Arranges.nodup_keys (arranges : filtered.Arranges layout isVisible)
    (unique : (layout.placed.map tileKey).Nodup) :
    ((filtered.pairs.map Prod.fst).map tileKey).Nodup := by
  have stored : (((visibleSlots layout isVisible).map Prod.fst).map tileKey).Nodup := by
    rw [map_fst_visibleSlots]
    exact unique.sublist (List.filter_sublist.map tileKey)
  exact ((arranges.slots.map _).map _).nodup_iff.mpr stored

end Arranged

/-! ### Seeding -/

theorem normalize_congr {tiles others : List (Option Tile)}
    (same : tiles.reduceOption = others.reduceOption) :
    normalize tiles cols rowSizes colSizes = normalize others cols rowSizes colSizes := by
  simp only [normalize, same]

/-- Packed once more with its own shape and sizes, a view is as it was. -/
theorem packView_again :
    let view := (packView shown cols rowSizes colSizes).view
    packView shown view.shape.cols (some (view.rowSizes.getD [])) (some (view.colSizes.getD [])) =
      packView shown cols rowSizes colSizes := by
  intro view
  have same : ((shown.map Prod.fst).map some).reduceOption = view.tiles.reduceOption :=
    (placed_normalize ..).symm
  refine FilteredView.ext ?_ rfl
  exact (normalize_congr same).trans (canonical_normalize ..)

/-- Tiles with distinct keys are sorted already by the order that they stand in. -/
theorem mergeSort_own_order (unique : ((shown.map Prod.fst).map tileKey).Nodup) :
    shown.mergeSort (ranksBefore ((shown.map Prod.fst).map tileKey)) = shown := by
  refine List.mergeSort_of_pairwise (List.pairwise_iff_getElem.mpr ?_)
  intro one other low high less
  have ranked : ∀ (place : Nat) (bound : place < shown.length),
      rank ((shown.map Prod.fst).map tileKey) (tileKey shown[place].1) = some place := by
    intro place bound
    refine rank_of_nodup unique ?_
    rw [List.getElem?_map, List.getElem?_map, List.getElem?_eq_getElem bound]
    rfl
  rw [ranksBefore, ranked one low, ranked other high, compareRanks, Nat.isLE_compare]
  exact Nat.le_of_lt less

/-- A view of distinct keys with the overlay seeded from it is that view. -/
theorem applyOverlay_seed (unique : ((shown.map Prod.fst).map tileKey).Nodup) :
    applyOverlay (packView shown cols rowSizes colSizes)
        (some (seedOverlay (packView shown cols rowSizes colSizes).view)) =
      packView shown cols rowSizes colSizes := by
  have order : orderOf (packView shown cols rowSizes colSizes).view =
      (shown.map Prod.fst).map tileKey := congrArg (List.map tileKey) placed_packView
  rw [applyOverlay, pairs_packView, seedOverlay, order, mergeSort_own_order unique]
  exact packView_again

/-! ### The order of an overlay -/

/-- The tiles that the order does not name come behind the others, as they stood. -/
theorem mergeSort_ranksBefore (order : List String) (shown : List (Tile × Nat)) :
    ∃ named, shown.mergeSort (ranksBefore order) =
        named ++ shown.filter (fun pair => tileKey pair.1 ∉ order) ∧
      ∀ pair ∈ named, tileKey pair.1 ∈ order := by
  refine ⟨(shown.mergeSort (ranksBefore order)).filter fun pair => !decide (tileKey pair.1 ∉ order),
    ?_, ?_⟩
  · refine mergeSort_eq_filter_append ?_ ?_ ?_ ?_ shown
    · exact fun one other last first second => compareRanks_trans first second
    · exact fun one other => compareRanks_total _ _
    · intro one other unnamed
      rw [ranksBefore, rank_eq_none.mpr (of_decide_eq_true unnamed)]
      cases rank order (tileKey one.1) <;> rfl
    · intro one other unnamed before
      rw [ranksBefore, rank_eq_none.mpr (of_decide_eq_true unnamed)] at before
      cases ranked : rank order (tileKey other.1) with
      | none => exact decide_eq_true (rank_eq_none.mp ranked)
      | some place =>
        rw [ranked] at before
        cases before
  · intro pair member
    simpa using (List.mem_filter.mp member).2

/-- The map of a view, with an overlay or without one, leads every occupied slot to the slot of
the layout that it shows, and every visible slot of the layout has one. An overlay puts the tiles
it does not name behind the others in their stored order, and the overlay seeded from a view
changes nothing. -/
theorem viewLayout_maps (layout : Layout) (unique : (layout.placed.map tileKey).Nodup)
    (isVisible : Tile → Bool) (overlay : Option Overlay) :
    let filtered := applyOverlay (filterLayout layout isVisible) overlay
    (∀ (slot : Nat) (tile : Tile), filtered.view.tiles[slot]? = some (some tile) →
      ∃ real : Nat, filtered.map[slot]? = some real ∧ layout.tiles[real]? = some (some tile)) ∧
    filtered.map.length = filtered.view.placed.length ∧
    filtered.map.Nodup ∧
    (∀ real, real ∈ filtered.map ↔
      ∃ tile, layout.tiles[real]? = some (some tile) ∧ isVisible tile = true) ∧
    (∀ chosen, overlay = some chosen → ∃ named, filtered.view.placed = named ++
        layout.placed.filter (fun tile => isVisible tile && tileKey tile ∉ chosen.order) ∧
      ∀ tile ∈ named, tileKey tile ∈ chosen.order) ∧
    applyOverlay filtered (some (seedOverlay filtered.view)) = filtered := by
  intro filtered
  have arranges : filtered.Arranges layout isVisible :=
    (arranges_filterLayout layout isVisible).applyOverlay overlay
  refine ⟨fun slot tile occupied => arranges.slot occupied, arranges.length_map, arranges.nodup_map,
    fun real => arranges.mem_map, ?_, ?_⟩
  · rintro chosen rfl
    obtain ⟨named, sorted, each⟩ :=
      mergeSort_ranksBefore chosen.order (visibleSlots layout isVisible)
    refine ⟨named.map Prod.fst, ?_, ?_⟩
    · have placed : filtered.view.placed =
          ((visibleSlots layout isVisible).mergeSort (ranksBefore chosen.order)).map Prod.fst := by
        show (applyOverlay (filterLayout layout isVisible) (some chosen)).view.placed = _
        rw [applyOverlay, filterLayout, pairs_packView, placed_packView]
      have rest : ((visibleSlots layout isVisible).filter
            fun pair => tileKey pair.1 ∉ chosen.order).map Prod.fst =
          layout.placed.filter fun tile => isVisible tile && tileKey tile ∉ chosen.order := by
        have swapped : (fun tile => isVisible tile && decide (tileKey tile ∉ chosen.order)) =
            fun tile => decide (tileKey tile ∉ chosen.order) && isVisible tile :=
          funext fun tile => Bool.and_comm ..
        rw [swapped, ← List.filter_filter, ← map_fst_visibleSlots, List.filter_map]
        rfl
      rw [placed, sorted, List.map_append, rest]
    · intro tile member
      obtain ⟨pair, there, rfl⟩ := List.mem_map.mp member
      exact each pair there
  · obtain ⟨cols, rowSizes, colSizes, packed⟩ := arranges.packed
    rw [packed]
    exact applyOverlay_seed (arranges.nodup_keys unique)

/-- Four sessions, of which the second does not show, under an order with a key that names none of
them and one that is there twice. -/
def soloed : Layout := normalize [localTile 1, localTile 2, localTile 3, localTile 4] 2 none none

/-- The view of that layout under a filter and an overlay. -/
def soloedView : FilteredView :=
  applyOverlay (filterLayout soloed (· ≠ localTile 2))
    (some ⟨3, ["local:9", "local:4", "local:1", "local:4"], [], []⟩)

theorem soloed_maps : soloedView.map.Nodup ∧ 3 ∈ soloedView.map ∧ 1 ∉ soloedView.map ∧
    applyOverlay soloedView (some (seedOverlay soloedView.view)) = soloedView := by
  have unique : (soloed.placed.map tileKey).Nodup := by
    rw [soloed, placed_normalize]
    decide
  obtain ⟨-, -, distinct, leads, -, seeded⟩ := viewLayout_maps soloed unique (· ≠ localTile 2)
    (some ⟨3, ["local:9", "local:4", "local:1", "local:4"], [], []⟩)
  refine ⟨distinct, (leads 3).mpr ⟨localTile 4, by decide, by decide⟩, fun member => ?_, seeded⟩
  obtain ⟨tile, there, visible⟩ := (leads 1).mp member
  have second : soloed.tiles[1]? = some (some (localTile 2)) := by decide
  cases second.symm.trans there
  cases visible

end Multimux
