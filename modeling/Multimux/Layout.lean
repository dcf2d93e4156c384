/-
This file models the grid's layouts: the tiles, packed to the front of a shape
that has just enough rows, and the sizes of its tracks. Every operation ends in
`normalize`, so what it does to the sessions is told by the occupied tiles
alone, and a canonical layout is one that normalizing leaves as it is.
-/

import Mathlib.Algebra.BigOperators.Group.List.Basic
import Mathlib.Algebra.Order.Floor.Ring
import Mathlib.Data.List.ReduceOption
import Mathlib.Data.Rat.Floor
import Mathlib.Tactic.FieldSimp

namespace Multimux

/-! ### Sizes -/

/-- The slack of a stored track array around 1. -/
def sizesEps : ℚ := 1 / 1000000

/-- Tracks of one size, which sum to one; there is always a track. -/
def equalSizes (n : Nat) : List ℚ := List.replicate (max 1 n) (1 / (max 1 n : Nat))

/-- A stored track array is usable if it has the expected length, is positive and still sums
to 1. -/
def usable (count : Nat) (sizes : List ℚ) : Bool :=
  sizes.length = count ∧ sizes.all (0 < ·) ∧ |sizes.sum - 1| < sizesEps

/-- A usable track array as it is, and equal sizes for any other. -/
def usableSizes (count : Nat) (sizes : Option (List ℚ)) : List ℚ :=
  (sizes.filter (usable count)).getD (equalSizes count)

/-- The widths of every row. -/
def normalizeColSizes (rows cols : Nat) (colSizes : Option (List (List ℚ))) : List (List ℚ) :=
  (List.range rows).map fun row => usableSizes cols (colSizes.bind (·[row]?))

theorem usable_equalSizes {count : Nat} (positive : 0 < count) :
    usable count (equalSizes count) = true := by
  have same : max 1 count = count := Nat.max_eq_right positive
  have cast : (0 : ℚ) < count := Nat.cast_pos.mpr positive
  have sum : (equalSizes count).sum = 1 := by
    unfold equalSizes
    rw [same, List.sum_replicate, nsmul_eq_mul]
    field_simp
  unfold usable
  rw [sum]
  refine decide_eq_true ⟨?_, ?_, ?_⟩
  · rw [equalSizes, List.length_replicate, same]
  · rw [List.all_eq_true]
    intro size member
    rw [equalSizes, same] at member
    rw [(List.mem_replicate.mp member).2]
    exact decide_eq_true (one_div_pos.mpr cast)
  · rw [sub_self, abs_zero, sizesEps]
    exact one_div_pos.mpr (by decide)

theorem usable_usableSizes {count : Nat} (positive : 0 < count) (sizes : Option (List ℚ)) :
    usable count (usableSizes count sizes) = true := by
  unfold usableSizes
  cases kept : sizes.filter (usable count) with
  | none => exact usable_equalSizes positive
  | some stored => exact (Option.filter_eq_some_iff.mp kept).2

theorem usableSizes_of_usable {count : Nat} {sizes : List ℚ} (fits : usable count sizes = true) :
    usableSizes count (some sizes) = sizes := by
  unfold usableSizes
  rw [Option.filter_some_pos fits, Option.getD_some]

theorem normalizeColSizes_idempotent {rows cols : Nat} (positive : 0 < cols)
    (colSizes : Option (List (List ℚ))) :
    normalizeColSizes rows cols (some (normalizeColSizes rows cols colSizes)) =
      normalizeColSizes rows cols colSizes := by
  refine List.map_congr_left fun row member => ?_
  have stored : (normalizeColSizes rows cols colSizes)[row]? =
      some (usableSizes cols (colSizes.bind (·[row]?))) := by
    unfold normalizeColSizes
    rw [List.getElem?_map, List.getElem?_range (List.mem_range.mp member), Option.map_some]
  rw [Option.bind_some, stored]
  exact usableSizes_of_usable (usable_usableSizes positive _)

/-! ### Layouts -/

/-- How many rows and columns a grid has. -/
structure GridShape where
  rows : Nat
  cols : Nat
  deriving DecidableEq

/-- A session of a server, as a cell shows it. -/
structure Tile where
  serverId : String
  sessionId : Nat
  deriving DecidableEq

/-- Stable identity for a tile: its session, on its server. -/
def tileKey (tile : Tile) : String := tile.serverId ++ ":" ++ toString tile.sessionId

/-- A session of the local daemon. -/
def localTile (sessionId : Nat) : Tile := { serverId := "local", sessionId }

/-- The document that the page stores: the cells in order, and the sizes of the tracks. -/
structure Layout where
  shape : GridShape
  tiles : List (Option Tile)
  rowSizes : Option (List ℚ)
  colSizes : Option (List (List ℚ))
  deriving DecidableEq

/-- The fewest columns. -/
def minCols : Int := 1

/-- The most columns. -/
def maxCols : Int := 4

/-- The columns of a request, as a whole number within the bounds. -/
def clampCols (cols : ℚ) : Nat := (min maxCols (max minCols ⌊cols⌋)).toNat

/-- The canonical layout of some tiles: the occupied ones packed to the front, just enough rows
to hold them, the rest padded with empty cells. -/
def normalize (tiles : List (Option Tile)) (cols : ℚ) (rowSizes : Option (List ℚ))
    (colSizes : Option (List (List ℚ))) : Layout :=
  let c := clampCols cols
  let occupied := tiles.reduceOption
  let rows := max 1 ((occupied.length + c - 1) / c)
  { shape := { rows, cols := c }
    tiles := occupied.map some ++ List.replicate (rows * c - occupied.length) none
    rowSizes := some (usableSizes rows rowSizes)
    colSizes := some (normalizeColSizes rows c colSizes) }

/-- A layout document as the grid loads it. -/
def Layout.normalized (layout : Layout) : Layout :=
  normalize layout.tiles layout.shape.cols layout.rowSizes layout.colSizes

/-- The layout of a page that has none. -/
def emptyLayout : Layout := normalize [] 2 none none

/-- The same tiles on another number of columns. -/
def setCols (layout : Layout) (cols : ℚ) : Layout :=
  normalize layout.tiles cols layout.rowSizes layout.colSizes

/-- After a removal the grid narrows to the columns still in use. -/
def packAfterRemoval (layout : Layout) (tiles : List (Option Tile)) : Layout :=
  normalize tiles (min layout.shape.cols (max 1 tiles.reduceOption.length) : Nat) layout.rowSizes
    layout.colSizes

/-- The cell is emptied and the tiles move up. -/
def removeTile (layout : Layout) (index : Nat) : Layout :=
  packAfterRemoval layout (layout.tiles.set index none)

/-- Remove the tiles a predicate names; one that names none leaves the layout as it is. -/
def removeTilesWhere (layout : Layout) (drop : Tile → Bool) : Layout :=
  let tiles := layout.tiles.map fun tile => tile.filter fun occupied => !drop occupied
  if tiles = layout.tiles then layout else packAfterRemoval layout tiles

/-- A tile added to a lone one widens a single column to two. -/
def addTile (layout : Layout) (tile : Tile) : Layout :=
  let count := layout.tiles.reduceOption.length
  let cols := if count = 1 ∧ layout.shape.cols = 1 then 2 else layout.shape.cols
  normalize (layout.tiles ++ [some tile]) cols layout.rowSizes layout.colSizes

/-- The tiles at two positions of the layout, exchanged. -/
def swapTiles (layout : Layout) (a b : Fin layout.tiles.length) : Layout :=
  normalize ((layout.tiles.set a layout.tiles[b]).set b layout.tiles[a]) layout.shape.cols
    layout.rowSizes layout.colSizes

/-- The heights of the rows, if they fit. -/
def setRowSizes (layout : Layout) (rowSizes : List ℚ) : Layout :=
  normalize layout.tiles layout.shape.cols (some rowSizes) layout.colSizes

/-- Replace the widths of one row and leave the other rows as they are. -/
def setColSizes (layout : Layout) (row : Nat) (sizes : List ℚ) : Layout :=
  let cols := layout.colSizes.getD []
  let padded := cols ++ List.replicate (layout.shape.rows - cols.length)
    (equalSizes layout.shape.cols)
  normalize layout.tiles layout.shape.cols layout.rowSizes (some (padded.set row sizes))

/-- Take other sizes onto the layout; a track set whose count does not fit is left as it was. -/
def adoptSizes (layout : Layout) (rowSizes : Option (List ℚ)) (colSizes : Option (List (List ℚ))) :
    Layout :=
  let rows := layout.shape.rows
  normalize layout.tiles layout.shape.cols
    (if rowSizes.map List.length = some rows then rowSizes else layout.rowSizes)
    (if colSizes.map List.length = some rows then colSizes else layout.colSizes)

/-! ### Canonical layouts -/

/-- The sessions a layout places, in order. -/
def Layout.placed (layout : Layout) : List Tile := layout.tiles.reduceOption

/-- Normalizing changes nothing. -/
def Layout.Canonical (layout : Layout) : Prop := layout.normalized = layout

theorem clampCols_natCast {cols : Nat} (low : 1 ≤ cols) (high : cols ≤ 4) :
    clampCols (cols : ℚ) = cols := by
  unfold clampCols minCols maxCols
  rw [Int.floor_natCast]
  omega

theorem one_le_clampCols (cols : ℚ) : 1 ≤ clampCols cols := by
  unfold clampCols minCols maxCols
  omega

theorem clampCols_le_four (cols : ℚ) : clampCols cols ≤ 4 := by
  unfold clampCols minCols maxCols
  omega

theorem reduceOption_map_some (tiles : List Tile) : (tiles.map some).reduceOption = tiles := by
  rw [List.reduceOption, List.filterMap_map, Function.id_comp, List.filterMap_some]

@[simp]
theorem placed_normalize (tiles : List (Option Tile)) (cols : ℚ) (rowSizes : Option (List ℚ))
    (colSizes : Option (List (List ℚ))) :
    (normalize tiles cols rowSizes colSizes).placed = tiles.reduceOption := by
  simp [Layout.placed, normalize, List.reduceOption_append, reduceOption_map_some]

theorem canonical_normalize (tiles : List (Option Tile)) (cols : ℚ) (rowSizes : Option (List ℚ))
    (colSizes : Option (List (List ℚ))) : (normalize tiles cols rowSizes colSizes).Canonical := by
  have placed := placed_normalize tiles cols rowSizes colSizes
  have width := clampCols_natCast (one_le_clampCols cols) (clampCols_le_four cols)
  unfold Layout.Canonical Layout.normalized
  simp only [Layout.placed] at placed
  unfold normalize at placed ⊢
  dsimp only at placed ⊢
  rw [width, placed]
  have rows : 0 < max 1 ((tiles.reduceOption.length + clampCols cols - 1) / clampCols cols) :=
    Nat.lt_of_lt_of_le Nat.zero_lt_one (Nat.le_max_left _ _)
  rw [usableSizes_of_usable (usable_usableSizes rows rowSizes),
    normalizeColSizes_idempotent (one_le_clampCols cols) colSizes]

theorem canonical_normalized (layout : Layout) : layout.normalized.Canonical :=
  canonical_normalize ..

theorem canonical_emptyLayout : emptyLayout.Canonical := canonical_normalize ..

theorem canonical_removeTilesWhere {layout : Layout} (canonical : layout.Canonical)
    (drop : Tile → Bool) : (removeTilesWhere layout drop).Canonical := by
  unfold removeTilesWhere
  dsimp only
  split
  · exact canonical
  · exact canonical_normalize ..

/-! ### What the operations do to the sessions -/

theorem Layout.mem_placed {layout : Layout} {tile : Tile} :
    tile ∈ layout.placed ↔ some tile ∈ layout.tiles := List.reduceOption_mem_iff

@[simp]
theorem Layout.placed_normalized (layout : Layout) : layout.normalized.placed = layout.placed :=
  placed_normalize ..

@[simp]
theorem placed_emptyLayout : emptyLayout.placed = [] := placed_normalize ..

@[simp]
theorem placed_setCols (layout : Layout) (cols : ℚ) :
    (setCols layout cols).placed = layout.placed := placed_normalize ..

@[simp]
theorem placed_adoptSizes (layout : Layout) (rowSizes : Option (List ℚ))
    (colSizes : Option (List (List ℚ))) :
    (adoptSizes layout rowSizes colSizes).placed = layout.placed := placed_normalize ..

@[simp]
theorem placed_addTile (layout : Layout) (tile : Tile) :
    (addTile layout tile).placed = layout.placed ++ [tile] := by
  unfold addTile
  rw [placed_normalize, List.reduceOption_append]
  rfl

theorem placed_swapTiles (layout : Layout) (a b : Fin layout.tiles.length) :
    (swapTiles layout a b).placed.Perm layout.placed := by
  unfold swapTiles
  rw [placed_normalize]
  exact (List.set_set_perm a.isLt b.isLt).filterMap id

@[simp]
theorem placed_removeTilesWhere (layout : Layout) (drop : Tile → Bool) :
    (removeTilesWhere layout drop).placed = layout.placed.filter fun tile => !drop tile := by
  have named :
      (layout.tiles.map fun tile => tile.filter fun occupied => !drop occupied).reduceOption =
        layout.placed.filter fun tile => !drop tile := by
    unfold Layout.placed
    induction layout.tiles with
    | nil => rfl
    | cons cell rest inductionHypothesis =>
      rw [List.map_cons]
      cases cell with
      | none =>
        rw [Option.filter_none, List.reduceOption_cons_of_none, List.reduceOption_cons_of_none,
          inductionHypothesis]
      | some tile =>
        rw [List.reduceOption_cons_of_some, List.filter_cons, Option.filter_some]
        split
        · rw [List.reduceOption_cons_of_some, inductionHypothesis]
        · rw [List.reduceOption_cons_of_none, inductionHypothesis]
  unfold removeTilesWhere
  dsimp only
  split
  · rename_i same
    rw [← named, same]
    rfl
  · exact (placed_normalize ..).trans named

theorem placed_removeTile (layout : Layout) (index : Nat) :
    (removeTile layout index).placed = (layout.tiles.set index none).reduceOption :=
  placed_normalize ..

/-- Removing an empty slot, or one past the end, removes nothing. -/
theorem placed_removeTile_empty {layout : Layout} {index : Nat}
    (empty : ∀ tile, layout.tiles[index]? ≠ some (some tile)) :
    (removeTile layout index).placed = layout.placed := by
  have same : layout.tiles.set index none = layout.tiles := by
    by_cases bound : index < layout.tiles.length
    · have found : layout.tiles[index] = none := by
        cases cell : layout.tiles[index] with
        | none => rfl
        | some tile => exact absurd (cell ▸ List.getElem?_eq_getElem bound) (empty tile)
      rw [← found, List.set_getElem_self]
    · exact List.set_eq_of_length_le (Nat.not_lt.mp bound)
  rw [placed_removeTile, same]
  rfl

/-- Removing an occupied slot takes its tile out and leaves the order of the rest. -/
theorem placed_removeTile_occupied {layout : Layout} {index : Nat} {tile : Tile}
    (occupied : layout.tiles[index]? = some (some tile)) :
    layout.placed = (layout.tiles.take index).reduceOption ++
        tile :: (layout.tiles.drop (index + 1)).reduceOption ∧
      (removeTile layout index).placed = (layout.tiles.take index).reduceOption ++
        (layout.tiles.drop (index + 1)).reduceOption := by
  obtain ⟨bound, found⟩ := List.getElem?_eq_some_iff.mp occupied
  constructor
  · rw [Layout.placed, ← List.reduceOption_cons_of_some, ← List.reduceOption_append, ← found,
      ← List.drop_eq_getElem_cons bound, List.take_append_drop]
  · rw [placed_removeTile, List.set_eq_take_append_cons_drop, if_pos bound,
      List.reduceOption_append, List.reduceOption_cons_of_none]

end Multimux
