/-
This file describes the layouts that the operations of the grid produce. Every
operation packs the tiles again and checks every track, so a layout is always
in one form: a prefix of occupied slots in just enough rows, and tracks that
share out the whole. In that form an operation is told by what it does to the
list of placed tiles, which is all that the list ever depends on.
-/

import Multimux.Layout
import Multimux.Runs

namespace Multimux

/-! ### The form -/

/-- Sizes of some tracks: each is positive, and together they make up the whole but for the
slack. -/
structure ShareOut (count : Nat) (sizes : List ℚ) : Prop where
  length : sizes.length = count
  positive : ∀ size ∈ sizes, 0 < size
  whole : |sizes.sum - 1| < 1 / 1000000

/-- Just enough rows of one to four columns, the occupied slots in front, and sizes for every
track. -/
structure Layout.CanonicalForm (layout : Layout) : Prop where
  minCols : 1 ≤ layout.shape.cols
  maxCols : layout.shape.cols ≤ 4
  rows : layout.shape.rows = max 1 ⌈(layout.placed.length : ℚ) / layout.shape.cols⌉₊
  slots : layout.tiles.length = layout.shape.rows * layout.shape.cols
  front : layout.tiles = layout.placed.map some ++
    List.replicate (layout.shape.rows * layout.shape.cols - layout.placed.length) none
  rowSizes : ∃ sizes, layout.rowSizes = some sizes ∧ ShareOut layout.shape.rows sizes
  colSizes : ∃ sizes, layout.colSizes = some sizes ∧ sizes.length = layout.shape.rows ∧
    ∀ widths ∈ sizes, ShareOut layout.shape.cols widths

theorem shareOut_of_usable {count : Nat} {sizes : List ℚ} (fits : usable count sizes = true) :
    ShareOut count sizes := by
  simp only [usable, sizesEps, Bool.decide_and, Bool.and_eq_true,
    decide_eq_true_eq, List.all_eq_true] at fits
  exact ⟨fits.1, fits.2.1, fits.2.2⟩

/-- The rows that `count` tiles take, as the source computes them. -/
theorem ceil_div_eq (count : Nat) {cols : Nat} (positive : 1 ≤ cols) :
    ⌈(count : ℚ) / cols⌉₊ = (count + cols - 1) / cols := by
  refine eq_of_forall_ge_iff fun rows => ?_
  have cast : (0 : ℚ) < cols := Nat.cast_pos.mpr positive
  rw [Nat.ceil_le, div_le_iff₀ cast, ← Nat.cast_mul, Nat.cast_le,
    Nat.div_le_iff_le_mul_add_pred positive, Nat.mul_comm]
  omega

/-- The tiles fit into the rows. -/
theorem length_le_rows_mul (count : Nat) {cols : Nat} (positive : 1 ≤ cols) :
    count ≤ max 1 ((count + cols - 1) / cols) * cols := by
  refine le_trans ?_ (Nat.mul_le_mul_right cols (Nat.le_max_right ..))
  have rest := Nat.mod_lt (count + cols - 1) positive
  have parts := Nat.div_add_mod (count + cols - 1) cols
  rw [Nat.mul_comm] at parts
  omega

theorem canonicalForm_normalize (tiles : List (Option Tile)) (cols : ℚ)
    (rowSizes : Option (List ℚ)) (colSizes : Option (List (List ℚ))) :
    (normalize tiles cols rowSizes colSizes).CanonicalForm := by
  have placed := placed_normalize tiles cols rowSizes colSizes
  have width := one_le_clampCols cols
  have rows : 0 < max 1 ((tiles.reduceOption.length + clampCols cols - 1) / clampCols cols) :=
    Nat.lt_of_lt_of_le Nat.zero_lt_one (Nat.le_max_left _ _)
  refine ⟨width, clampCols_le_four cols, ?_, ?_, ?_,
    ⟨_, rfl, shareOut_of_usable (usable_usableSizes rows rowSizes)⟩, ⟨_, rfl, ?_, ?_⟩⟩
  · rw [placed]
    exact congrArg (max 1) (ceil_div_eq _ width).symm
  · have fits := length_le_rows_mul tiles.reduceOption.length width
    simp only [normalize, List.length_append, List.length_map, List.length_replicate]
    omega
  · rw [placed]
    rfl
  · simp only [normalizeColSizes, List.length_map, List.length_range]
    rfl
  · intro widths member
    obtain ⟨row, -, rfl⟩ := List.mem_map.mp member
    exact shareOut_of_usable (usable_usableSizes width _)

/-! ### Packed tiles -/

section Packed

variable {tiles : List Tile} {empty : Nat}

/-- The tiles at two places, exchanged; one that is exchanged with an empty place moves to the
end. -/
def exchange (tiles : List Tile) (a b : Nat) : List Tile :=
  match tiles[a]?, tiles[b]? with
  | some first, some second => (tiles.set a second).set b first
  | some tile, none => tiles.eraseIdx a ++ [tile]
  | none, some tile => tiles.eraseIdx b ++ [tile]
  | none, none => tiles

theorem reduceOption_packed (tiles : List Tile) (empty : Nat) :
    (tiles.map some ++ List.replicate empty none).reduceOption = tiles := by
  rw [List.reduceOption_append, reduceOption_map_some, List.reduceOption_replicate_none,
    List.append_nil]

theorem getElem?_packed {place : Nat} {tile : Tile} :
    (tiles.map some ++ List.replicate empty none)[place]? = some (some tile) ↔
      tiles[place]? = some tile := by
  rw [List.getElem?_append, List.length_map]
  split
  · simp
  · rename_i beyond
    rw [List.getElem?_replicate, List.getElem?_eq_none (Nat.not_lt.mp beyond)]
    split <;> simp

/-- An emptied slot takes its tile out and leaves the order of the rest. -/
theorem reduceOption_set_none (tiles : List Tile) (index : Nat) :
    ((tiles.map some).set index none).reduceOption = tiles.eraseIdx index := by
  induction tiles generalizing index with
  | nil => rfl
  | cons tile rest inductionHypothesis =>
    cases index with
    | zero =>
      rw [List.map_cons, List.set_cons_zero, List.reduceOption_cons_of_none,
        reduceOption_map_some, List.eraseIdx_cons_zero]
    | succ index =>
      rw [List.map_cons, List.set_cons_succ, List.reduceOption_cons_of_some,
        inductionHypothesis, List.eraseIdx_cons_succ]

/-- A tile in one of the empty slots. -/
theorem reduceOption_replicate_set {index : Nat} (bound : index < empty) (tile : Tile) :
    ((List.replicate empty none).set index (some tile)).reduceOption = [tile] := by
  rw [List.set_eq_take_append_cons_drop, List.length_replicate, if_pos bound,
    List.reduceOption_append, List.reduceOption_cons_of_some, List.take_replicate,
    List.drop_replicate, List.reduceOption_replicate_none, List.reduceOption_replicate_none,
    List.nil_append]

theorem reduceOption_packed_set_none (tiles : List Tile) (empty index : Nat) :
    ((tiles.map some ++ List.replicate empty none).set index none).reduceOption =
      tiles.eraseIdx index := by
  by_cases bound : index < tiles.length
  · rw [List.set_append_left _ _ (by rwa [List.length_map]), List.reduceOption_append,
      reduceOption_set_none, List.reduceOption_replicate_none, List.append_nil]
  · have beyond := Nat.not_lt.mp bound
    rw [List.set_append_right _ _ (by rwa [List.length_map]), List.set_replicate_self,
      reduceOption_packed, List.eraseIdx_of_length_le beyond]

/-- A tile that is exchanged with an empty slot goes to the end. -/
theorem reduceOption_packed_move {source target : Nat} (occupied : source < tiles.length)
    (beyond : tiles.length ≤ target) (bound : target < tiles.length + empty) (tile : Tile) :
    (((tiles.map some ++ List.replicate empty none).set source none).set target
      (some tile)).reduceOption = tiles.eraseIdx source ++ [tile] := by
  rw [List.set_append_left _ _ (by rwa [List.length_map]),
    List.set_append_right _ _ (by rwa [List.length_set, List.length_map]), List.length_set,
    List.length_map, List.reduceOption_append, reduceOption_set_none,
    reduceOption_replicate_set (by omega)]

theorem reduceOption_packed_swap {a b : Nat} {first second : Option Tile}
    (atA : (tiles.map some ++ List.replicate empty none)[a]? = some first)
    (atB : (tiles.map some ++ List.replicate empty none)[b]? = some second) :
    (((tiles.map some ++ List.replicate empty none).set a second).set b first).reduceOption =
      exchange tiles a b := by
  have vacant : ∀ {place : Nat},
      (tiles.map some ++ List.replicate empty none)[place]? = some none →
      tiles.length ≤ place ∧ place < tiles.length + empty := by
    intro place found
    have bound := (List.getElem?_eq_some_iff.mp found).1
    rw [List.length_append, List.length_map, List.length_replicate] at bound
    refine ⟨?_, bound⟩
    by_contra inside
    have tile := List.getElem?_eq_getElem (Nat.not_le.mp inside)
    cases found.symm.trans (getElem?_packed.mpr tile)
  have inside : ∀ {place : Nat} {tile : Tile}, tiles[place]? = some tile →
      place < tiles.length := fun found => (List.getElem?_eq_some_iff.mp found).1
  unfold exchange
  cases first with
  | some first =>
    have foundA := getElem?_packed.mp atA
    cases second with
    | some second =>
      have foundB := getElem?_packed.mp atB
      rw [foundA, foundB]
      dsimp only
      rw [List.set_append_left _ _ (by rw [List.length_map]; exact inside foundA),
        List.set_append_left _ _ (by rw [List.length_set, List.length_map]; exact inside foundB),
        ← List.map_set, ← List.map_set, reduceOption_packed]
    | none =>
      obtain ⟨beyond, bound⟩ := vacant atB
      rw [foundA, List.getElem?_eq_none beyond]
      exact reduceOption_packed_move (inside foundA) beyond bound first
  | none =>
    obtain ⟨beyond, bound⟩ := vacant atA
    rw [List.getElem?_eq_none beyond]
    cases second with
    | some second =>
      have foundB := getElem?_packed.mp atB
      have apart : a ≠ b := by
        rintro rfl
        exact absurd (inside foundB) (Nat.not_lt.mpr beyond)
      rw [foundB, List.set_comm _ _ apart]
      exact reduceOption_packed_move (inside foundB) beyond bound second
    | none =>
      obtain ⟨beyondB, boundB⟩ := vacant atB
      rw [List.getElem?_eq_none beyondB]
      dsimp only
      rw [List.set_append_right _ _ (by rwa [List.length_map]), List.set_replicate_self,
        List.set_append_right _ _ (by rwa [List.length_map]), List.set_replicate_self,
        reduceOption_packed]

end Packed

/-! ### The operations -/

/-- The operations of the grid model, with their arguments. -/
inductive LayoutOp
  | normalize (tiles : List (Option Tile)) (cols : ℚ) (rowSizes : Option (List ℚ))
    (colSizes : Option (List (List ℚ)))
  | setCols (cols : ℚ)
  | addTile (tile : Tile)
  | removeTile (index : Nat)
  | removeTilesWhere (drop : Tile → Bool)
  | swapTiles (a b : Nat)
  | setRowSizes (rowSizes : List ℚ)
  | setColSizes (row : Nat) (sizes : List ℚ)
  | adoptSizes (rowSizes : Option (List ℚ)) (colSizes : Option (List (List ℚ)))

/-- An operation on a layout, whose indices are in range. -/
def Layout.step (layout : Layout) : LayoutOp → Option Layout
  | .normalize tiles cols rowSizes colSizes => some (normalize tiles cols rowSizes colSizes)
  | .setCols cols => some (setCols layout cols)
  | .addTile tile => some (addTile layout tile)
  | .removeTile index =>
    if index < layout.tiles.length then some (removeTile layout index) else none
  | .removeTilesWhere drop => some (removeTilesWhere layout drop)
  | .swapTiles a b =>
    if bounds : a < layout.tiles.length ∧ b < layout.tiles.length then
      some (swapTiles layout ⟨a, bounds.1⟩ ⟨b, bounds.2⟩)
    else none
  | .setRowSizes rowSizes => some (setRowSizes layout rowSizes)
  | .setColSizes row sizes =>
    if row < layout.shape.rows then some (setColSizes layout row sizes) else none
  | .adoptSizes rowSizes colSizes => some (adoptSizes layout rowSizes colSizes)

/-- What an operation is to do to the list of placed tiles. -/
def LayoutOp.places (placed : List Tile) : LayoutOp → List Tile
  | .normalize tiles _ _ _ => tiles.reduceOption
  | .addTile tile => placed ++ [tile]
  | .removeTile index => placed.eraseIdx index
  | .removeTilesWhere drop => placed.filter fun tile => !drop tile
  | .swapTiles a b => exchange placed a b
  | _ => placed

/-- The operations that remove tiles. -/
def LayoutOp.removes : LayoutOp → Bool
  | .removeTile _ => true
  | .removeTilesWhere _ => true
  | _ => false

namespace Layout.CanonicalForm

variable {layout next : Layout}

theorem removeTilesWhere (form : layout.CanonicalForm) (drop : Tile → Bool) :
    (removeTilesWhere layout drop).CanonicalForm := by
  unfold Multimux.removeTilesWhere
  dsimp only
  split
  · exact form
  · exact canonicalForm_normalize ..

theorem placed_removeTile (form : layout.CanonicalForm) (index : Nat) :
    (removeTile layout index).placed = layout.placed.eraseIdx index := by
  rw [Multimux.placed_removeTile, form.front]
  exact reduceOption_packed_set_none ..

theorem placed_swapTiles (form : layout.CanonicalForm) (a b : Fin layout.tiles.length) :
    (swapTiles layout a b).placed = exchange layout.placed a b := by
  have front : ∀ place : Fin layout.tiles.length,
      (layout.placed.map some ++ List.replicate (layout.shape.rows * layout.shape.cols -
        layout.placed.length) none)[(place : Nat)]? = some layout.tiles[place] := by
    intro place
    rw [← form.front]
    exact List.getElem?_eq_getElem place.isLt
  unfold swapTiles
  rw [placed_normalize, ← reduceOption_packed_swap (front a) (front b), ← form.front]

/-- An operation keeps the form and does to the placed tiles what it is to do. -/
theorem step (form : layout.CanonicalForm) {op : LayoutOp} (taken : layout.step op = some next) :
    next.CanonicalForm ∧ next.placed = op.places layout.placed := by
  cases op with
  | normalize tiles cols rowSizes colSizes =>
    cases taken
    exact ⟨canonicalForm_normalize .., placed_normalize ..⟩
  | setCols cols =>
    cases taken
    exact ⟨canonicalForm_normalize .., placed_setCols ..⟩
  | addTile tile =>
    cases taken
    exact ⟨canonicalForm_normalize .., placed_addTile ..⟩
  | removeTile index =>
    simp only [Layout.step] at taken
    split at taken <;> cases taken
    exact ⟨canonicalForm_normalize .., form.placed_removeTile index⟩
  | removeTilesWhere drop =>
    cases taken
    exact ⟨form.removeTilesWhere drop, placed_removeTilesWhere ..⟩
  | swapTiles a b =>
    simp only [Layout.step] at taken
    split at taken <;> cases taken
    exact ⟨canonicalForm_normalize .., form.placed_swapTiles ..⟩
  | setRowSizes rowSizes =>
    cases taken
    exact ⟨canonicalForm_normalize .., placed_normalize ..⟩
  | setColSizes row sizes =>
    simp only [Layout.step] at taken
    split at taken <;> cases taken
    exact ⟨canonicalForm_normalize .., placed_normalize ..⟩
  | adoptSizes rowSizes colSizes =>
    cases taken
    exact ⟨canonicalForm_normalize .., placed_adoptSizes ..⟩

/-- With as many tiles as columns every column has one in the first row. -/
theorem column_occupied (form : layout.CanonicalForm)
    (enough : layout.shape.cols ≤ layout.placed.length) {col : Nat}
    (inside : col < layout.shape.cols) :
    ∃ row < layout.shape.rows, ∃ tile,
      layout.tiles[row * layout.shape.cols + col]? = some (some tile) := by
  have bound : col < layout.placed.length := Nat.lt_of_lt_of_le inside enough
  refine ⟨0, ?_, layout.placed[col], ?_⟩
  · rw [form.rows]
    exact Nat.lt_of_lt_of_le Nat.zero_lt_one (Nat.le_max_left ..)
  · rw [Nat.zero_mul, Nat.zero_add, form.front]
    exact getElem?_packed.mpr (List.getElem?_eq_getElem bound)

end Layout.CanonicalForm

/-- After a removal there are no more columns than tiles, unless there is no tile. -/
theorem packAfterRemoval_cols (layout : Layout) (tiles : List (Option Tile)) :
    (packAfterRemoval layout tiles).placed = [] ∨
      (packAfterRemoval layout tiles).shape.cols ≤
        (packAfterRemoval layout tiles).placed.length := by
  have placed : (packAfterRemoval layout tiles).placed = tiles.reduceOption := placed_normalize ..
  rw [placed, ← List.length_eq_zero_iff]
  by_cases none : tiles.reduceOption.length = 0
  · exact .inl none
  · right
    change clampCols _ ≤ _
    unfold clampCols minCols maxCols
    rw [Int.floor_natCast]
    omega

/-- An operation that removed a tile packed the rest after the removal. -/
theorem Layout.step_removes {layout next : Layout} {op : LayoutOp} (removes : op.removes = true)
    (taken : layout.step op = some next)
    (removed : next.placed.length < layout.placed.length) :
    ∃ tiles, next = packAfterRemoval layout tiles := by
  cases op with
  | removeTile index =>
    simp only [Layout.step] at taken
    split at taken <;> cases taken
    exact ⟨_, rfl⟩
  | removeTilesWhere drop =>
    cases taken
    unfold removeTilesWhere at removed ⊢
    dsimp only at removed ⊢
    split
    · rename_i unchanged
      rw [if_pos unchanged] at removed
      exact absurd removed (Nat.lt_irrefl _)
    · exact ⟨_, rfl⟩
  | _ => cases removes

/-- Every sequence of operations leaves a layout in canonical form with the tiles that the
operations are to leave, and a removal that removed something leaves no column empty. -/
theorem layout_canonicalForm {ops : List LayoutOp} {layout : Layout}
    (run : Run Layout.step anything emptyLayout ops layout) :
    layout.CanonicalForm ∧ layout.placed = ops.foldl LayoutOp.places [] ∧
      ∀ (op : LayoutOp) (next : Layout), op.removes = true → layout.step op = some next →
        next.placed.length < layout.placed.length →
        next.placed = [] ∨ ∀ col < next.shape.cols, ∃ row < next.shape.rows, ∃ tile,
          next.tiles[row * next.shape.cols + col]? = some (some tile) := by
  obtain ⟨form, placed⟩ := run.history
    (fun ops layout => layout.CanonicalForm ∧ layout.placed = ops.foldl LayoutOp.places [])
    ⟨canonicalForm_normalize .., placed_emptyLayout⟩
    fun ops layout op next _ before _ taken => by
      obtain ⟨kept, places⟩ := before.1.step taken
      refine ⟨kept, ?_⟩
      rw [places, before.2, List.foldl_append]
      rfl
  refine ⟨form, placed, fun op next removes taken removed => ?_⟩
  have kept := (form.step taken).1
  obtain ⟨tiles, rfl⟩ := Layout.step_removes removes taken removed
  exact (packAfterRemoval_cols layout tiles).imp_right fun enough _ inside =>
    kept.column_occupied enough inside

/-- Three sessions, dragged widths, a swap with the empty slot and a removal. -/
def rearranged : List LayoutOp :=
  [.addTile (localTile 1), .addTile (localTile 2), .addTile (localTile 3),
    .setColSizes 1 [1 / 4, 3 / 4], .swapTiles 0 3, .removeTile 1]

/-- What is left are the second session and the first, which the swap moved to the end. -/
theorem rearranged_placed :
    ∃ layout, Run Layout.step anything emptyLayout rearranged layout ∧
      layout.CanonicalForm ∧ layout.placed = [localTile 2, localTile 1] := by
  obtain ⟨layout, computed, -⟩ := exists_of_exec Layout.step emptyLayout rearranged
    (fun _ => true) (by decide)
  have run := Run.of_exec_anything computed
  obtain ⟨form, placed, -⟩ := layout_canonicalForm run
  exact ⟨layout, run, form, placed⟩

end Multimux
