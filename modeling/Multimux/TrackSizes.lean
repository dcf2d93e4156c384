/-
This file proves what moving a divider does to the tracks, and what taking the
sizes of another view does to a layout. A drag trades between the two tracks
beside the boundary, so the whole is kept and the sizes stay usable. The sizes
of another view are taken by their outer length alone; widths of as many rows
but another number of columns pass that test, fit no row, and leave every row
at equal widths.
-/

import Multimux.Layout

namespace Multimux

/-! ### Moving a boundary -/

/-- The new size of the first of two tracks. -/
def movedTrack (a b delta least snap : ℚ) : ℚ :=
  let pair := a + b
  let lo := min least (pair / 2)
  let hi := pair - lo
  let next := min hi (max lo (a + delta))
  if 0 < snap ∧ |next - pair / 2| ≤ snap then pair / 2 else next

/-- The size of a track, 0 for one that there is not. -/
def trackSize (sizes : List ℚ) (track : Nat) : ℚ := sizes.getD track 0

/-- `resizeTracks`: the boundary between two tracks moves, and the other tracks stay. -/
def resizeTracks (sizes : List ℚ) (boundary : Int) (delta least snap : ℚ) : List ℚ :=
  if boundary < 0 ∨ sizes.length ≤ boundary + 1 then sizes
  else
    let first := boundary.toNat
    let pair := trackSize sizes first + trackSize sizes (first + 1)
    let next := movedTrack (trackSize sizes first) (trackSize sizes (first + 1)) delta least snap
    (sizes.set first next).set (first + 1) (pair - next)

/-- A number that is not within reach of a target lies on one side of its reach. -/
theorem below_or_above_of_far {target within number : ℚ} (far : ¬ |number - target| ≤ within) :
    number < target - within ∨ target + within < number := by
  rw [abs_le, not_and_or, not_le, not_le] at far
  rcases far with below | above
  · exact .inl (by linarith)
  · exact .inr (by linarith)

/-- Snapping to a target keeps the order of two numbers. -/
theorem snap_le_snap {target within one other : ℚ} (ordered : one ≤ other) :
    (if |one - target| ≤ within then target else one) ≤
      if |other - target| ≤ within then target else other := by
  split
  next near =>
    split
    next => exact le_refl target
    next far =>
      obtain ⟨low, high⟩ := abs_le.mp near
      rcases below_or_above_of_far far with below | above
      · linarith
      · linarith
  next far =>
    split
    next near =>
      obtain ⟨low, high⟩ := abs_le.mp near
      rcases below_or_above_of_far far with below | above
      · linarith
      · linarith
    next => exact ordered

theorem movedTrack_mono {a b delta larger least snap : ℚ} (ordered : delta ≤ larger) :
    movedTrack a b delta least snap ≤ movedTrack a b larger least snap := by
  have clamped : min (a + b - min least ((a + b) / 2)) (max (min least ((a + b) / 2)) (a + delta)) ≤
      min (a + b - min least ((a + b) / 2)) (max (min least ((a + b) / 2)) (a + larger)) := by
    gcongr
  unfold movedTrack
  by_cases snapping : 0 < snap
  · simp only [snapping, true_and]
    exact snap_le_snap clamped
  · simp only [snapping, false_and, if_false]
    exact clamped

/-- Neither track drops below the smaller of the minimum and half of the two. -/
theorem movedTrack_bounds (a b delta least snap : ℚ) :
    min least ((a + b) / 2) ≤ movedTrack a b delta least snap ∧
      min least ((a + b) / 2) ≤ a + b - movedTrack a b delta least snap := by
  have half : min least ((a + b) / 2) ≤ (a + b) / 2 := min_le_right _ _
  have room : min least ((a + b) / 2) ≤ a + b - min least ((a + b) / 2) := by linarith
  unfold movedTrack
  dsimp only
  split
  next => exact ⟨half, by linarith⟩
  next =>
    constructor
    · exact le_min room (le_max_left _ _)
    · have top := min_le_left (a + b - min least ((a + b) / 2))
        (max (min least ((a + b) / 2)) (a + delta))
      linarith

/-! ### The tracks after a drag -/

/-- The tracks around a boundary. -/
theorem exists_around {sizes : List ℚ} {boundary : Nat} (inner : boundary + 1 < sizes.length) :
    ∃ front a b back, sizes = front ++ a :: b :: back ∧ front.length = boundary := by
  refine ⟨sizes.take boundary, sizes[boundary], sizes[boundary + 1], sizes.drop (boundary + 2),
    ?_, by rw [List.length_take]; omega⟩
  rw [← List.drop_eq_getElem_cons inner, ← List.drop_eq_getElem_cons (by omega),
    List.take_append_drop]

section Around

variable (front back : List ℚ) (a b : ℚ)

theorem trackSize_front : trackSize (front ++ a :: b :: back) front.length = a := by
  simp [trackSize]

theorem trackSize_next : trackSize (front ++ a :: b :: back) (front.length + 1) = b := by
  simp [trackSize]

/-- A drag replaces the two tracks around the boundary. -/
theorem resizeTracks_around (delta least snap : ℚ) :
    resizeTracks (front ++ a :: b :: back) front.length delta least snap =
      front ++ movedTrack a b delta least snap :: (a + b - movedTrack a b delta least snap) ::
        back := by
  have inside : ¬ ((front.length : Int) < 0 ∨
      ((front ++ a :: b :: back).length : Int) ≤ front.length + 1) := by
    simp only [List.length_append, List.length_cons]
    omega
  simp only [resizeTracks, if_neg inside, Int.toNat_natCast, trackSize_front, trackSize_next]
  simp [List.set_append_right]

end Around

/-- The sizes after a drag are usable if those before it were. -/
theorem usable_around {front back : List ℚ} {a b : ℚ} {least : ℚ}
    (fits : usable (front ++ a :: b :: back).length (front ++ a :: b :: back) = true)
    (positive : 0 < least) (delta snap : ℚ) :
    usable (front ++ a :: b :: back).length
      (front ++ movedTrack a b delta least snap ::
        (a + b - movedTrack a b delta least snap) :: back) = true := by
  obtain ⟨first, second⟩ := movedTrack_bounds a b delta least snap
  generalize movedTrack a b delta least snap = next at first second ⊢
  simp only [usable, decide_eq_true_eq, List.all_eq_true, List.mem_append, List.mem_cons,
    List.length_append, List.length_cons, List.sum_append, List.sum_cons] at fits ⊢
  obtain ⟨-, large, whole⟩ := fits
  have room : 0 < min least ((a + b) / 2) := by
    have firstLarge := large a (Or.inr (Or.inl rfl))
    have nextLarge := large b (Or.inr (Or.inr (Or.inl rfl)))
    exact lt_min positive (by linarith)
  have sum : next + (a + b - next + back.sum) = a + (b + back.sum) := by ring
  refine ⟨trivial, ?_, by rw [sum]; exact whole⟩
  rintro size (before | rfl | rfl | behind)
  · exact large size (Or.inl before)
  · linarith
  · linarith
  · exact large size (Or.inr (Or.inr (Or.inr behind)))

/-- A drag of an inner boundary moves size between its two tracks alone, keeps both at the
minimum, and gives usable sizes that normalizing keeps; dragging further gives no smaller first
track. -/
theorem resizeTracks_conserves {sizes : List ℚ} (fits : usable sizes.length sizes = true)
    {boundary : Nat} (inner : boundary + 1 < sizes.length) {least : ℚ} (positive : 0 < least)
    (delta snap : ℚ) :
    (∀ track, track ≠ boundary → track ≠ boundary + 1 →
      (resizeTracks sizes boundary delta least snap)[track]? = sizes[track]?) ∧
    trackSize (resizeTracks sizes boundary delta least snap) boundary +
        trackSize (resizeTracks sizes boundary delta least snap) (boundary + 1) =
      trackSize sizes boundary + trackSize sizes (boundary + 1) ∧
    (∀ track, track = boundary ∨ track = boundary + 1 →
      min least ((trackSize sizes boundary + trackSize sizes (boundary + 1)) / 2) ≤
        trackSize (resizeTracks sizes boundary delta least snap) track) ∧
    usable sizes.length (resizeTracks sizes boundary delta least snap) = true ∧
    usableSizes sizes.length (some (resizeTracks sizes boundary delta least snap)) =
      resizeTracks sizes boundary delta least snap ∧
    ∀ larger, delta ≤ larger →
      trackSize (resizeTracks sizes boundary delta least snap) boundary ≤
        trackSize (resizeTracks sizes boundary larger least snap) boundary := by
  obtain ⟨front, a, b, back, rfl, rfl⟩ := exists_around inner
  have kept := usable_around fits positive delta snap
  obtain ⟨first, second⟩ := movedTrack_bounds a b delta least snap
  simp only [resizeTracks_around, trackSize_front, trackSize_next]
  refine ⟨?_, by ring, ?_, kept, usableSizes_of_usable kept, fun larger => movedTrack_mono⟩
  · intro track notFirst notNext
    rcases Nat.lt_or_ge track front.length with before | behind
    · rw [List.getElem?_append_left before, List.getElem?_append_left before]
    · obtain ⟨more, rfl⟩ := Nat.exists_eq_add_of_le behind
      obtain ⟨rest, rfl⟩ : ∃ rest, more = rest + 2 := ⟨more - 2, by omega⟩
      simp [List.getElem?_append_right]
  · rintro track (rfl | rfl)
    · rw [trackSize_front]
      exact first
    · rw [trackSize_next]
      exact second

/-- Three equal tracks and a delta that the clamp cuts, since the minimum of a tenth is wider
than what it would leave. -/
theorem resizeTracks_conserves_thirds :
    usable 3 [1 / 3, 1 / 3, 1 / 3] = true ∧
    usable 3 (resizeTracks [1 / 3, 1 / 3, 1 / 3] (1 : Nat) (-1 / 4) (1 / 10) (1 / 100)) = true ∧
    trackSize (resizeTracks [1 / 3, 1 / 3, 1 / 3] (1 : Nat) (-1 / 4) (1 / 10) (1 / 100)) 1 ≤
      trackSize (resizeTracks [1 / 3, 1 / 3, 1 / 3] (1 : Nat) 0 (1 / 10) (1 / 100)) 1 := by
  have fits : usable ([1 / 3, 1 / 3, 1 / 3] : List ℚ).length [1 / 3, 1 / 3, 1 / 3] = true := by
    decide +kernel
  have inner : 1 + 1 < ([1 / 3, 1 / 3, 1 / 3] : List ℚ).length := by decide
  have positive : (0 : ℚ) < 1 / 10 := by norm_num
  have all := resizeTracks_conserves fits inner positive (-1 / 4) (1 / 100)
  exact ⟨fits, all.2.2.2.1, all.2.2.2.2.2 0 (by norm_num)⟩

/-! ### Sizes from another view -/

theorem GridShape.eq_of_rows_cols {one other : GridShape} (rows : one.rows = other.rows)
    (cols : one.cols = other.cols) : one = other := by
  obtain ⟨rowCount, colCount⟩ := one
  cases rows
  cases cols
  rfl

section Adopting

variable {layout source : Layout}

theorem Layout.Canonical.rowSizes (canonical : layout.Canonical) :
    ∃ sizes, layout.rowSizes = some sizes ∧ usable layout.shape.rows sizes = true := by
  rw [← canonical]
  have rows : 0 < layout.normalized.shape.rows :=
    Nat.lt_of_lt_of_le Nat.zero_lt_one (Nat.le_max_left _ _)
  exact ⟨_, rfl, usable_usableSizes rows _⟩

theorem Layout.Canonical.colSizes (canonical : layout.Canonical) :
    ∃ widths, layout.colSizes = some widths ∧ widths.length = layout.shape.rows ∧
      ∀ sizes ∈ widths, usable layout.shape.cols sizes = true := by
  rw [← canonical]
  refine ⟨_, rfl, by simp [normalizeColSizes, Layout.normalized, normalize], ?_⟩
  intro sizes member
  obtain ⟨row, -, rfl⟩ := List.mem_map.mp member
  exact usable_usableSizes (one_le_clampCols _) _

theorem normalizeColSizes_of_usable {rows cols : Nat} {widths : List (List ℚ)}
    (length : widths.length = rows) (fits : ∀ sizes ∈ widths, usable cols sizes = true) :
    normalizeColSizes rows cols (some widths) = widths := by
  refine List.ext_getElem (by simp [normalizeColSizes, length]) fun row low high => ?_
  simp only [normalizeColSizes, List.getElem_map, List.getElem_range, Option.bind_some,
    List.getElem?_eq_getElem high]
  exact usableSizes_of_usable (fits _ (List.getElem_mem high))

/-- Rows of another width are reset to equal widths. -/
theorem normalizeColSizes_of_length_ne {rows cols : Nat} {widths : List (List ℚ)}
    (length : widths.length = rows) (other : ∀ sizes ∈ widths, sizes.length ≠ cols) :
    normalizeColSizes rows cols (some widths) = List.replicate rows (equalSizes cols) := by
  refine List.ext_getElem (by simp [normalizeColSizes]) fun row low high => ?_
  have bound : row < widths.length := by
    rw [length]
    simpa only [List.length_replicate] using high
  have misfit : usable cols widths[row] = false := by
    simp [usable, other _ (List.getElem_mem bound)]
  simp only [normalizeColSizes, List.getElem_map, List.getElem_range, Option.bind_some,
    List.getElem?_eq_getElem bound, List.getElem_replicate, usableSizes,
    Option.filter_some_neg misfit, Option.getD_none]

theorem length_of_usable {count : Nat} {sizes : List ℚ} (fits : usable count sizes = true) :
    sizes.length = count := by
  rw [usable, decide_eq_true_eq] at fits
  exact fits.1

theorem adoptSizes_shape (canonical : layout.Canonical) (rowSizes : Option (List ℚ))
    (colSizes : Option (List (List ℚ))) :
    (adoptSizes layout rowSizes colSizes).shape = layout.shape := by
  have same : layout.normalized.shape = layout.shape := congrArg Layout.shape canonical
  exact same

theorem adoptSizes_tiles (canonical : layout.Canonical) (rowSizes : Option (List ℚ))
    (colSizes : Option (List (List ℚ))) :
    (adoptSizes layout rowSizes colSizes).tiles = layout.tiles := by
  have same : layout.normalized.tiles = layout.tiles := congrArg Layout.tiles canonical
  exact same

/-- Row heights are taken as they are, or not at all. -/
theorem adoptSizes_rowSizes (canonical : layout.Canonical) (other : source.Canonical) :
    (adoptSizes layout source.rowSizes source.colSizes).rowSizes =
      if source.shape.rows = layout.shape.rows then source.rowSizes else layout.rowSizes := by
  obtain ⟨heights, stored, fits⟩ := other.rowSizes
  have rows : (adoptSizes layout source.rowSizes source.colSizes).shape.rows =
      layout.shape.rows := congrArg GridShape.rows (adoptSizes_shape canonical _ _)
  have whole : (adoptSizes layout source.rowSizes source.colSizes).rowSizes =
      some (usableSizes (adoptSizes layout source.rowSizes source.colSizes).shape.rows
        (if source.rowSizes.map List.length = some layout.shape.rows then source.rowSizes
          else layout.rowSizes)) := rfl
  rw [whole, rows, stored, Option.map_some, length_of_usable fits]
  simp only [Option.some.injEq]
  split
  next same => rw [usableSizes_of_usable (same ▸ fits)]
  next =>
    obtain ⟨own, kept, ownFits⟩ := canonical.rowSizes
    rw [kept, usableSizes_of_usable ownFits]

/-- Widths of as many rows are taken if they are of as many columns, and reset if they are not. -/
theorem adoptSizes_colSizes (canonical : layout.Canonical) (other : source.Canonical) :
    (adoptSizes layout source.rowSizes source.colSizes).colSizes =
      if source.shape.rows = layout.shape.rows then
        if source.shape.cols = layout.shape.cols then source.colSizes
        else some (List.replicate layout.shape.rows (equalSizes layout.shape.cols))
      else layout.colSizes := by
  obtain ⟨widths, stored, length, fits⟩ := other.colSizes
  have shape := adoptSizes_shape canonical source.rowSizes source.colSizes
  have whole : (adoptSizes layout source.rowSizes source.colSizes).colSizes =
      some (normalizeColSizes (adoptSizes layout source.rowSizes source.colSizes).shape.rows
        (adoptSizes layout source.rowSizes source.colSizes).shape.cols
        (if source.colSizes.map List.length = some layout.shape.rows then source.colSizes
          else layout.colSizes)) := rfl
  rw [whole, shape, stored, Option.map_some, length]
  simp only [Option.some.injEq]
  split
  next sameRows =>
    split
    next sameCols =>
      rw [normalizeColSizes_of_usable (length.trans sameRows) (sameCols ▸ fits)]
    next otherCols =>
      rw [normalizeColSizes_of_length_ne (length.trans sameRows)]
      intro sizes member
      rw [length_of_usable (fits sizes member)]
      exact otherCols
  next =>
    obtain ⟨own, kept, ownLength, ownFits⟩ := canonical.colSizes
    rw [kept, normalizeColSizes_of_usable ownLength ownFits]

/-- The widths of one row. -/
def Layout.widths (layout : Layout) (row : Nat) : Option (List ℚ) :=
  layout.colSizes.bind (·[row]?)

/-- Taking sizes keeps tiles and shape, takes each track set from the one layout or the other,
and leaves the track sets that the sizes do not fit. -/
structure SizesTaken (layout source next : Layout) : Prop where
  tiles : next.tiles = layout.tiles
  shape : next.shape = layout.shape
  rowSizes : next.rowSizes = layout.rowSizes ∨ next.rowSizes = source.rowSizes
  colSizes : ∀ row < layout.shape.rows,
    next.widths row = layout.widths row ∨ next.widths row = source.widths row
  unfitRows : source.shape.rows ≠ layout.shape.rows → next.rowSizes = layout.rowSizes
  unfitCols : source.shape ≠ layout.shape → next.colSizes = layout.colSizes

/-- As many rows of another number of columns come with equal widths in the layout. -/
def EqualWhereMisfit (layout source : Layout) : Prop :=
  source.shape.rows = layout.shape.rows → source.shape.cols ≠ layout.shape.cols →
    ∀ row < layout.shape.rows, layout.widths row = some (equalSizes layout.shape.cols)

theorem Layout.Canonical.widths (canonical : layout.Canonical) {row : Nat}
    (bound : row < layout.shape.rows) :
    ∃ sizes, layout.widths row = some sizes ∧ sizes.length = layout.shape.cols := by
  obtain ⟨widths, stored, length, fits⟩ := canonical.colSizes
  rw [← length] at bound
  refine ⟨widths[row], ?_, length_of_usable (fits _ (List.getElem_mem bound))⟩
  rw [Layout.widths, stored, Option.bind_some, List.getElem?_eq_getElem bound]

theorem Layout.Canonical.colSizes_ext (canonical : layout.Canonical)
    (equal : ∀ row < layout.shape.rows,
      layout.widths row = some (equalSizes layout.shape.cols)) :
    layout.colSizes = some (List.replicate layout.shape.rows (equalSizes layout.shape.cols)) := by
  obtain ⟨widths, stored, length, -⟩ := canonical.colSizes
  rw [stored]
  refine congrArg some (List.ext_getElem (by simp [length]) fun row low high => ?_)
  have same := equal row (length ▸ low)
  rw [Layout.widths, stored, Option.bind_some, List.getElem?_eq_getElem low] at same
  rw [Option.some.inj same, List.getElem_replicate]

/-- Sizes are taken as promised exactly where nothing uneven is reset. -/
theorem adoptSizes_taken_iff (canonical : layout.Canonical) (other : source.Canonical) :
    SizesTaken layout source (adoptSizes layout source.rowSizes source.colSizes) ↔
      EqualWhereMisfit layout source := by
  have rowSizes := adoptSizes_rowSizes canonical other
  have colSizes := adoptSizes_colSizes canonical other
  constructor
  · intro taken sameRows otherCols
    have misfit : source.shape ≠ layout.shape := fun same =>
      otherCols (congrArg GridShape.cols same)
    have reset := taken.unfitCols misfit
    rw [colSizes, if_pos sameRows, if_neg otherCols] at reset
    intro row bound
    rw [Layout.widths, ← reset, Option.bind_some, List.getElem?_replicate_of_lt bound]
  · intro equal
    have reset : source.shape ≠ layout.shape →
        (adoptSizes layout source.rowSizes source.colSizes).colSizes = layout.colSizes := by
      intro misfit
      rw [colSizes]
      split
      next sameRows =>
        have otherCols : source.shape.cols ≠ layout.shape.cols := fun sameCols =>
          misfit (GridShape.eq_of_rows_cols sameRows sameCols)
        rw [if_neg otherCols]
        exact (canonical.colSizes_ext (equal sameRows otherCols)).symm
      next => rfl
    refine ⟨adoptSizes_tiles canonical _ _, adoptSizes_shape canonical _ _, ?_, ?_, ?_, reset⟩
    · rw [rowSizes]
      split
      next => exact Or.inr rfl
      next => exact Or.inl rfl
    · intro row bound
      by_cases same : source.shape = layout.shape
      · right
        rw [Layout.widths, colSizes, if_pos (congrArg GridShape.rows same),
          if_pos (congrArg GridShape.cols same)]
        rfl
      · left
        rw [Layout.widths, reset same]
        rfl
    · intro misfit
      rw [rowSizes, if_neg misfit]

end Adopting

/-- Two tiles side by side, the first of them wider. -/
def pairView : Layout :=
  normalize [some (localTile 1), some (localTile 2)] 2 none (some [[7 / 10, 3 / 10]])

/-- One of them alone, under a filter. -/
def loneView : Layout := normalize [some (localTile 1)] 1 none none

/-- Both of them, with other widths. -/
def draggedView : Layout :=
  normalize [some (localTile 1), some (localTile 2)] 2 none (some [[1 / 5, 4 / 5]])

theorem adoptSizes_taken_dragged :
    SizesTaken pairView draggedView
        (adoptSizes pairView draggedView.rowSizes draggedView.colSizes) ∧
      (adoptSizes pairView draggedView.rowSizes draggedView.colSizes).colSizes =
        some [[1 / 5, 4 / 5]] := by
  refine ⟨(adoptSizes_taken_iff (canonical_normalize ..) (canonical_normalize ..)).mpr ?_, ?_⟩
  · exact fun _ other => absurd rfl other
  · decide +kernel

/-- The widths of the one view do not fit the other, and its own widths are reset. -/
theorem adoptSizes_resets :
    pairView.Canonical ∧ loneView.Canonical ∧
      pairView.colSizes = some [[7 / 10, 3 / 10]] ∧ loneView.colSizes = some [[1]] ∧
      (adoptSizes pairView loneView.rowSizes loneView.colSizes).colSizes =
        some [[1 / 2, 1 / 2]] ∧
      ¬ SizesTaken pairView loneView
        (adoptSizes pairView loneView.rowSizes loneView.colSizes) := by
  have own : pairView.colSizes = some [[7 / 10, 3 / 10]] := by decide +kernel
  have reset : (adoptSizes pairView loneView.rowSizes loneView.colSizes).colSizes =
      some [[1 / 2, 1 / 2]] := by decide +kernel
  refine ⟨canonical_normalize .., canonical_normalize .., own, by decide +kernel, reset, ?_⟩
  intro taken
  have kept := taken.unfitCols (by decide +kernel)
  rw [reset, own] at kept
  exact absurd kept (by decide +kernel)

end Multimux
