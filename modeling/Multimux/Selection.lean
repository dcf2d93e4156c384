/-
This file models how a selection of the terminal becomes text and compares it
with unwrapping the rows' texts. Row by row a selection carries whether the
next one loses its indent, while unwrapping trims what it put together so far;
both come to the same rows with the same seams when no row is wrapped by the
terminal. However the rows are joined, what can be seen of them is kept.
-/

import Multimux.Unwrap

namespace Multimux

/-! ### The buffer -/

/-- A cell of a row, with its width in columns. -/
structure Cell where
  chars : Units
  width : Nat

/-- A line of the terminal's buffer. Its text trimmed to the right leaves out empty cells, which
read as spaces, and no cell holds a line feed. -/
structure BufferLine where
  length : Nat
  isWrapped : Bool
  getCell : Int → Option Cell
  translateToString : Bool → Nat → Nat → Units
  padding : ∀ start stop, ∃ count, translateToString false start stop =
    translateToString true start stop ++ List.replicate count spaceUnit
  noNewline : ∀ trimRight start stop, newlineUnit ∉ translateToString trimRight start stop

/-- The buffer of a terminal. -/
structure Terminal where
  cols : Nat
  getLine : Nat → Option BufferLine

/-- A place in the buffer. -/
structure BufferPosition where
  x : Nat
  y : Nat

/-- A selection; the column of its end is exclusive. -/
structure BufferRange where
  start : BufferPosition
  stop : BufferPosition

/-! ### Copying -/

/-- What joins a row to the next. -/
inductive RowBreak
  | wrapped
  | join (kind : Join)
  deriving DecidableEq

section Copying

variable (term : Terminal)

/-- The cells of a row that are on screen. -/
def rowWidth (line : BufferLine) : Nat := min line.length term.cols

/-- The cell holds something but a blank; the second half of a wide character does. -/
def isFilled (cell : Option Cell) : Bool :=
  match cell with
  | none => false
  | some cell => if cell.chars = [] then cell.width = 0 else cell.chars ≠ [spaceUnit]

/-- The text of a row, without the blanks at its end. -/
def rowText (line : BufferLine) : Units := line.translateToString true 0 (rowWidth term line)

/-- A row goes on in the next one. -/
def isContinued (row : Nat) : Bool :=
  match term.getLine row, term.getLine (row + 1) with
  | some line, some next =>
    if next.isWrapped then true
    else if rowText term next = [] then false
    else
      let width := rowWidth term line
      if isFilled (line.getCell (width - 1 : Int)) then true
      else
        isFilled (line.getCell (width - 2 : Int)) && isFilled (next.getCell 0) &&
          mayJoin (rowText term line) (rowText term next)
  | _, _ => false

/-- How a row goes over into the next one. -/
def rowBreak (y : Nat) : RowBreak :=
  if isContinued term y then .wrapped
  else
    match term.getLine y, term.getLine (y + 1) with
    | some line, some next => .join (softBreak (rowText term line) (rowText term next) term.cols)
    | _, _ => .join .none

variable (range : BufferRange)

/-- The text of a row between the ends of the selection. -/
def selectedRow (trimRight : Bool) (y : Nat) : Units :=
  match term.getLine y with
  | none => []
  | some line =>
    let width := rowWidth term line
    line.translateToString trimRight (if y = range.start.y then range.start.x else 0)
      (if y = range.stop.y then min range.stop.x width else width)

/-- The text so far, and whether the next row loses its indent. -/
def selectRow (state : Units × Bool) (y : Nat) : Units × Bool :=
  match term.getLine y with
  | none => state
  | some line =>
    let fromCol := if y = range.start.y then range.start.x else 0
    let width := rowWidth term line
    let toCol := if y = range.stop.y then min range.stop.x width else width
    let sep := if y < range.stop.y then rowBreak term y else .join .none
    let text := line.translateToString (sep ≠ .wrapped) fromCol toCol
    let start := if state.2 then trimStart text else text
    let stripIndent := sep = .join .space ∨ sep = .join .glue
    let out := state.1 ++ if stripIndent then trimEnd start else start
    if y < range.stop.y ∧ sep = .join .none then (out ++ [newlineUnit], stripIndent)
    else if sep = .join .space then (out ++ [spaceUnit], stripIndent)
    else (out, stripIndent)

/-- The rows of a selection. -/
def BufferRange.rows (range : BufferRange) : List Nat :=
  List.range' range.start.y (range.stop.y + 1 - range.start.y)

/-- The text of a selection, row by row. -/
def selectionToText : Units := (range.rows.foldl (selectRow term range) ([], false)).1

/-! ### Selected rows and their seams -/

/-- The seam of a break. -/
def RowBreak.seam : RowBreak → Seam
  | wrapped => .wrapped
  | join kind => kind.seam

/-- The seam behind a row of a selection. -/
def selectedSeam (y : Nat) : Seam :=
  if y < range.stop.y then (rowBreak term y).seam else .last

/-- The rows that the buffer has, each with what follows it. -/
def selectedRows (rows : List Nat) : List (Units × Seam) :=
  rows.filterMap fun y => (term.getLine y).map fun _ =>
    (selectedRow term range (selectedSeam term range y ≠ .wrapped) y, selectedSeam term range y)

theorem selectRow_eq {y : Nat} {line : BufferLine} (found : term.getLine y = some line)
    (state : Units × Bool) :
    selectRow term range state y =
      (state.1 ++ assemble state.2 [(selectedRow term range
          (selectedSeam term range y ≠ .wrapped) y, selectedSeam term range y)],
        (selectedSeam term range y).soft) := by
  by_cases inside : y < range.stop.y
  · simp only [selectRow, selectedRow, selectedSeam, found, inside, if_true]
    cases sep : rowBreak term y with
    | wrapped => simp [RowBreak.seam, assemble, lead, Seam.soft, Seam.mark]
    | join kind =>
      cases kind <;> simp [RowBreak.seam, Join.seam, assemble, lead, Seam.soft, Seam.mark]
  · simp [selectRow, selectedRow, selectedSeam, found, inside, assemble, lead, Seam.soft, Seam.mark]

theorem selectedRows_append (rows others : List Nat) :
    selectedRows term range (rows ++ others) =
      selectedRows term range rows ++ selectedRows term range others :=
  List.filterMap_append

theorem foldl_selectRow (rows : List Nat) (out : Units) (strip : Bool) :
    (rows.foldl (selectRow term range) (out, strip)).1 =
      out ++ assemble strip (selectedRows term range rows) := by
  induction rows generalizing out strip with
  | nil => simp [selectedRows, assemble]
  | cons y rows inductionHypothesis =>
    rw [List.foldl_cons, selectedRows, List.filterMap_cons]
    cases found : term.getLine y with
    | none =>
      have skipped : selectRow term range (out, strip) y = (out, strip) := by
        simp only [selectRow, found]
      rw [skipped, inductionHypothesis]
      rfl
    | some line =>
      rw [selectRow_eq term range found, inductionHypothesis, Option.map_some]
      simp [assemble, selectedRows]

/-- A selection puts its rows together. -/
theorem selectionToText_eq_assemble :
    selectionToText term range = assemble false (selectedRows term range range.rows) :=
  foldl_selectRow term range range.rows [] false

/-! ### A selection of whole rows -/

theorem selectedRow_whole {y : Nat} {line : BufferLine} (found : term.getLine y = some line)
    (left : range.start.x = 0)
    (right : ∀ last ∈ term.getLine range.stop.y, rowWidth term last ≤ range.stop.x) :
    selectedRow term range true y = rowText term line := by
  simp only [selectedRow, found, rowText, left, ite_self]
  split
  next final =>
    subst final
    rw [Nat.min_eq_right (right line found)]
  next => rfl

theorem rowBreak_of_not_continued {y : Nat} {line next : BufferLine}
    (found : term.getLine y = some line) (behind : term.getLine (y + 1) = some next)
    (apart : isContinued term y = false) :
    rowBreak term y = .join (softBreak (rowText term line) (rowText term next) term.cols) := by
  simp only [rowBreak, apart, found, behind, Bool.false_eq_true, if_false]

/-- Rows that the terminal does not wrap have the seams that unwrapping gives their texts. -/
theorem selectedRows_whole (lines : List BufferLine) (start : Nat)
    (found : (List.range' start lines.length).map term.getLine = lines.map some)
    (ends : start + lines.length = range.stop.y + 1) (left : range.start.x = 0)
    (right : ∀ last ∈ term.getLine range.stop.y, rowWidth term last ≤ range.stop.x)
    (apart : ∀ y, start ≤ y → y < range.stop.y → isContinued term y = false) :
    selectedRows term range (List.range' start lines.length) =
      rowSeams (softBreak · · term.cols) (lines.map (rowText term)) none := by
  induction lines generalizing start with
  | nil => rfl
  | cons line rest inductionHypothesis =>
    rw [List.length_cons, List.range'_succ] at found ⊢
    obtain ⟨here, others⟩ := List.cons.inj found
    rw [selectedRows, List.filterMap_cons, here, Option.map_some]
    cases rest with
    | nil =>
      have final : start = range.stop.y := by simpa using ends
      have seam : selectedSeam term range start = .last := by simp [selectedSeam, final]
      have text := selectedRow_whole term range here left right
      simp [seam, text, rowSeams]
    | cons next rest =>
      have length : (next :: rest).length = rest.length + 1 := rfl
      have inside : start < range.stop.y := by
        rw [List.length_cons, length] at ends
        omega
      have behind : term.getLine (start + 1) = some next := by
        rw [length, List.range'_succ] at others
        exact (List.cons.inj others).1
      have seam : selectedSeam term range start =
          (softBreak (rowText term line) (rowText term next) term.cols).seam := by
        rw [selectedSeam, if_pos inside,
          rowBreak_of_not_continued term here behind (apart start le_rfl inside)]
        rfl
      have trimmed : selectedSeam term range start ≠ .wrapped := by
        rw [seam]
        cases softBreak (rowText term line) (rowText term next) term.cols <;> exact Seam.noConfusion
      have later := inductionHypothesis (start + 1) others
        (by rw [List.length_cons] at ends; omega) fun y low => apart y (Nat.le_of_succ_le low)
      have text : selectedRow term range (selectedSeam term range start ≠ .wrapped) start =
          rowText term line := by
        rw [decide_eq_true trimmed]
        exact selectedRow_whole term range here left right
      rw [selectedRows] at later
      rw [later, text, seam]
      rfl

/-- Copying whole rows is unwrapping their texts, if the terminal wraps none of them. -/
theorem selectionToText_eq_unwrapText (lines : List BufferLine)
    (found : range.rows.map term.getLine = lines.map some) (left : range.start.x = 0)
    (right : ∀ last ∈ term.getLine range.stop.y, rowWidth term last ≤ range.stop.x)
    (apart : ∀ y, range.start.y ≤ y → y < range.stop.y → isContinued term y = false) :
    selectionToText term range =
      unwrapText ([newlineUnit].intercalate (lines.map (rowText term))) (some term.cols) := by
  have count : range.stop.y + 1 - range.start.y = lines.length := by
    have lengths := congrArg List.length found
    simpa [BufferRange.rows] using lengths
  rw [selectionToText_eq_assemble, unwrapText_eq_assemble]
  cases lines with
  | nil =>
    rw [BufferRange.rows, count]
    rfl
  | cons line rest =>
    have plain : ∀ text ∈ (line :: rest).map (rowText term), newlineUnit ∉ text := by
      intro text member
      obtain ⟨row, -, rfl⟩ := List.mem_map.mp member
      exact row.noNewline true 0 (rowWidth term row)
    rw [List.splitOn_intercalate newlineUnit plain (by simp)]
    rw [BufferRange.rows, count] at found ⊢
    rw [List.length_cons] at count
    rw [selectedRows_whole term range (line :: rest) range.start.y found
      (by rw [List.length_cons]; omega) left right apart]
    rfl

/-! ### What is copied -/

theorem visible_selectedRow (trimRight : Bool) (y : Nat) :
    visible (selectedRow term range trimRight y) = visible (selectedRow term range false y) := by
  cases trimRight with
  | false => rfl
  | true =>
    cases found : term.getLine y with
    | none => simp only [selectedRow, found]
    | some line =>
      simp only [selectedRow, found]
      obtain ⟨count, padded⟩ := line.padding
        (if y = range.start.y then range.start.x else 0)
        (if y = range.stop.y then min range.stop.x (rowWidth term line) else rowWidth term line)
      have blank : visible (List.replicate count spaceUnit) = [] := by
        refine visible_white fun unit member => ?_
        rw [(List.mem_replicate.mp member).2]
        rfl
      rw [padded, visible_append, blank, List.append_nil]

theorem visible_selectedRows (rows : List Nat) :
    (selectedRows term range rows).flatMap (fun row => visible row.1) =
      rows.flatMap fun y => visible (selectedRow term range false y) := by
  induction rows with
  | nil => rfl
  | cons y rows inductionHypothesis =>
    rw [selectedRows] at inductionHypothesis
    rw [selectedRows, List.filterMap_cons, List.flatMap_cons]
    cases found : term.getLine y with
    | none =>
      have nothing : selectedRow term range false y = [] := by simp only [selectedRow, found]
      rw [nothing, visible_nil, List.nil_append, ← inductionHypothesis]
      rfl
    | some line =>
      rw [Option.map_some, List.flatMap_cons, inductionHypothesis, visible_selectedRow]

theorem visible_selectionToText : visible (selectionToText term range) =
    range.rows.flatMap fun y => visible (selectedRow term range false y) := by
  rw [selectionToText_eq_assemble, visible_assemble, visible_selectedRows]

/-- A row that the buffer lacks is joined to nothing. -/
theorem rowBreak_of_missing {y : Nat} (missing : term.getLine (y + 1) = none) :
    rowBreak term y = .join .none := by
  have apart : isContinued term y = false := by
    rw [isContinued, missing]
    split
    next found => exact absurd found (by simp)
    next => rfl
  rw [rowBreak, apart, missing]
  cases term.getLine y <;> rfl

/-- The rows before one that its predecessor is not joined to are closed. -/
theorem closed_selectedRows (count : Nat) (inside : range.start.y + count ≤ range.stop.y)
    (apart : count = 0 ∨ rowBreak term (range.start.y + count - 1) = .join .none) :
    Closed (selectedRows term range (List.range' range.start.y count)) := by
  induction count with
  | zero => exact fun _ found => absurd found (by simp [selectedRows])
  | succ count inductionHypothesis =>
    have seam : rowBreak term (range.start.y + count) = .join .none :=
      apart.resolve_left (Nat.succ_ne_zero count)
    have behind : range.start.y + count < range.stop.y := inside
    rw [List.range'_concat, Nat.one_mul, selectedRows_append]
    cases found : term.getLine (range.start.y + count) with
    | some line =>
      intro row last
      simp only [selectedRows, List.filterMap_cons, List.filterMap_nil, found, Option.map_some,
        List.getLast?_concat, Option.mem_some_iff] at last
      rw [← last, selectedSeam, if_pos behind, seam]
      rfl
    | none =>
      have missing : selectedRows term range [range.start.y + count] = [] := by
        simp only [selectedRows, List.filterMap_cons, List.filterMap_nil, found, Option.map_none]
      rw [missing, List.append_nil]
      refine inductionHypothesis (Nat.le_of_lt behind) ?_
      rcases Nat.eq_zero_or_pos count with none | positive
      · exact Or.inl none
      · refine Or.inr (rowBreak_of_missing term ?_)
        have same : range.start.y + count - 1 + 1 = range.start.y + count := by omega
        rw [same, found]

theorem rows_eq_append {y : Nat} (low : range.start.y ≤ y) (high : y ≤ range.stop.y) :
    range.rows = List.range' range.start.y (y - range.start.y) ++
      y :: List.range' (y + 1) (range.stop.y - y) := by
  have count : range.stop.y + 1 - range.start.y =
      (y - range.start.y) + (range.stop.y - y + 1) := by omega
  have here : range.start.y + 1 * (y - range.start.y) = y := by omega
  rw [BufferRange.rows, count, ← List.range'_append, here, List.range'_succ]

/-- Of the rows of a selection, one that is joined to neither neighbour has its own line. -/
theorem ownLine_selectionToText {y : Nat} {line : BufferLine} (found : term.getLine y = some line)
    (low : range.start.y ≤ y) (high : y ≤ range.stop.y)
    (before : y = range.start.y ∨ rowBreak term (y - 1) = .join .none)
    (after : y = range.stop.y ∨ rowBreak term y = .join .none) :
    OwnLine (selectionToText term range) (selectedRow term range true y)
      ((List.range' range.start.y (y - range.start.y)).map (selectedRow term range false))
      ((List.range' (y + 1) (range.stop.y - y)).map (selectedRow term range false)) := by
  have closed : Closed (selectedRows term range
      (List.range' range.start.y (y - range.start.y))) := by
    refine closed_selectedRows term range _ (by omega) ?_
    rcases before with rfl | apart
    · exact Or.inl (Nat.sub_self _)
    · have same : range.start.y + (y - range.start.y) - 1 = y - 1 := by omega
      exact Or.inr (same ▸ apart)
  have ends : selectedSeam term range y = .newline ∨ selectedSeam term range y = .last ∧
      selectedRows term range (List.range' (y + 1) (range.stop.y - y)) = [] := by
    rcases Nat.lt_or_ge y range.stop.y with inside | final
    · left
      rw [selectedSeam, if_pos inside, after.resolve_left (Nat.ne_of_lt inside)]
      rfl
    · right
      rw [selectedSeam, if_neg (Nat.not_lt.mpr final), Nat.sub_eq_zero_of_le final]
      exact ⟨rfl, rfl⟩
  have trimmed : selectedSeam term range y ≠ .wrapped := by
    rcases ends with newline | ⟨last, -⟩
    · rw [newline]
      exact Seam.noConfusion
    · rw [last]
      exact Seam.noConfusion
  have single : selectedRows term range [y] =
      [(selectedRow term range true y, selectedSeam term range y)] := by
    simp only [selectedRows, List.filterMap_cons, List.filterMap_nil, found, Option.map_some,
      decide_eq_true trimmed]
  obtain ⟨front, back, whole, start, stop, seen, rest⟩ :=
    ownLine_assemble (selectedRow term range true y) closed ends
  refine ⟨front, back, ?_, start, stop, ?_, ?_⟩
  · rw [selectionToText_eq_assemble, rows_eq_append range low high, selectedRows_append,
      ← List.singleton_append, selectedRows_append, single, List.singleton_append, whole]
  · rw [seen, List.flatMap_map, visible_selectedRows, List.flatMap_map]
  · rw [rest, List.flatMap_map, visible_selectedRows, List.flatMap_map]

/-- Unwrapping and copying keep what can be seen in its order, and a row joined to neither
neighbour stands on its own line as it reads. -/
theorem copying_keeps_content (text : Units) (cols : Option Int) :
    visible (unwrapText text cols) = visible text ∧
    (∀ earlier row later, text.splitOn newlineUnit = earlier ++ row :: later →
      (∀ prev ∈ earlier.getLast?, joinOf cols prev row = .none) →
      (∀ next ∈ later.head?, joinOf cols row next = .none) →
      OwnLine (unwrapText text cols) row earlier later) ∧
    visible (selectionToText term range) =
      range.rows.flatMap (fun y => visible (selectedRow term range false y)) ∧
    ∀ y line, term.getLine y = some line → range.start.y ≤ y → y ≤ range.stop.y →
      (y = range.start.y ∨ rowBreak term (y - 1) = .join .none) →
      (y = range.stop.y ∨ rowBreak term y = .join .none) →
      OwnLine (selectionToText term range) (selectedRow term range true y)
        ((List.range' range.start.y (y - range.start.y)).map (selectedRow term range false))
        ((List.range' (y + 1) (range.stop.y - y)).map (selectedRow term range false)) := by
  refine ⟨?_, ?_, visible_selectionToText term range, ?_⟩
  · rw [visible_unwrapText, visible_rows]
  · intro earlier row later rows before after
    rw [unwrapText_eq_assemble, rows]
    exact ownLine_rowSeams before after
  · intro y line found low high before after
    exact ownLine_selectionToText term range found low high before after

end Copying

/-! ### Two rows of a paragraph -/

/-- A line of cells of one unit each, with empty cells behind them. -/
def plainLine (length : Nat) (text : Units) (plain : newlineUnit ∉ text) : BufferLine where
  length
  isWrapped := false
  getCell x :=
    if x < 0 ∨ length ≤ x then none
    else some ⟨(text[x.toNat]?).toList, 1⟩
  translateToString trimRight start stop :=
    ((if trimRight then text else text ++ List.replicate (length - text.length) spaceUnit).take
      stop).drop start
  padding := by
    intro start stop
    simp only [Bool.false_eq_true, if_false, if_true, List.take_append, List.drop_append,
      List.take_replicate, List.drop_replicate]
    exact ⟨_, rfl⟩
  noNewline := by
    intro trimRight start stop member
    have inside := List.mem_of_mem_take (List.mem_of_mem_drop member)
    cases trimRight with
    | true => exact plain inside
    | false =>
      rcases List.mem_append.mp inside with written | empty
      · exact plain written
      · exact absurd (List.mem_replicate.mp empty).2 (by decide)

/-- An application's paragraph of two rows, and a row of its own. -/
def paragraph : Terminal where
  cols := 40
  getLine
    | 0 => some (plainLine 40 (units "- The first row of a paragraph goes on ") (by decide))
    | 1 => some (plainLine 40 (units "  here.") (by decide))
    | 2 => some (plainLine 40 (units "    done") (by decide))
    | _ => none

/-- A selection of three whole rows. -/
def wholeParagraph : BufferRange := ⟨⟨0, 0⟩, ⟨40, 2⟩⟩

theorem paragraph_not_continued : ∀ y < 2, isContinued paragraph y = false := by decide

theorem copied_paragraph :
    selectionToText paragraph wholeParagraph =
        unwrapText (units "- The first row of a paragraph goes on \n  here.\n    done") (some 40) ∧
      selectionToText paragraph wholeParagraph =
        units "- The first row of a paragraph goes on here.\n    done" := by
  obtain ⟨first, second, third, found⟩ : ∃ first second third,
      wholeParagraph.rows.map paragraph.getLine = [first, second, third].map some ∧
      [newlineUnit].intercalate ([first, second, third].map (rowText paragraph)) =
        units "- The first row of a paragraph goes on \n  here.\n    done" :=
    ⟨_, _, _, rfl, by decide⟩
  have same := selectionToText_eq_unwrapText paragraph wholeParagraph [first, second, third]
    found.1 rfl (fun last _ => Nat.min_le_right last.length 40)
    fun y _ inside => paragraph_not_continued y inside
  rw [found.2] at same
  exact ⟨same, by decide⟩

/-- The last row of the paragraph keeps its line and its indent, unwrapped and copied. -/
theorem copied_paragraph_content :
    visible (selectionToText paragraph wholeParagraph) =
        visible (units "- The first row of a paragraph goes on here. done") ∧
      OwnLine (unwrapText (units "- The first row of a paragraph goes on \n  here.\n    done")
          (some 40)) (units "    done")
        [units "- The first row of a paragraph goes on ", units "  here."] [] ∧
      OwnLine (selectionToText paragraph wholeParagraph) (units "    done")
        [units "- The first row of a paragraph goes on  ",
          units "  here.                                 "] [] := by
  obtain ⟨-, unwrapped, seen, copied⟩ := copying_keeps_content paragraph wholeParagraph
    (units "- The first row of a paragraph goes on \n  here.\n    done") (some 40)
  refine ⟨?_, unwrapped _ _ _ (by decide) ?_ ?_, ?_⟩
  · rw [seen]
    decide
  · intro prev last
    obtain rfl : units "  here." = prev := Option.some.inj last
    decide
  · exact fun next first => absurd first (by simp)
  · have own := copied 2 _ rfl (by decide) (by decide) (Or.inr (by decide)) (Or.inl rfl)
    have row : selectedRow paragraph wholeParagraph true 2 = units "    done" := by
      decide
    have earlier : (List.range' wholeParagraph.start.y (2 - wholeParagraph.start.y)).map
        (selectedRow paragraph wholeParagraph false) =
        [units "- The first row of a paragraph goes on  ",
          units "  here.                                 "] := by decide
    rw [row, earlier] at own
    exact own

end Multimux
