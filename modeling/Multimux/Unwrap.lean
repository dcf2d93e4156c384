/-
This file models how rows that an application wrapped are joined again, and
proves that joining drops white space alone. A row is joined only if it can be
seen, so trimming what was put together so far never reaches past the last
row: the text is the rows one by one, each trimmed at its own seams.
-/

import Multimux.JsText

namespace Multimux

/-! ### Judging two rows -/

/-- How two lines are joined. -/
inductive Join
  | none
  | space
  | glue
  deriving DecidableEq

/-- Applications rarely wrap at the very last column. -/
def rightMargin : Int := 6

/-- Below this width almost any pair of rows looks full. -/
def minJoinCols : Int := 20

/-- The marks that a list item starts with. -/
def isBullet (unit : UInt16) : Bool := unit ∈ units "-*+•◦▪‣⏺●○⎿✓✔✗✘☐☑☒>❯$#"

/-- A decimal digit. -/
def isDigitUnit (unit : UInt16) : Bool := 0x30 ≤ unit ∧ unit ≤ 0x39

/-- How long a match of `MARKER` is: bullets, or up to three digits and a dot or bracket, and the
white space behind. -/
def markerLength (text : Units) : Option Nat :=
  let bullets := (text.takeWhile isBullet).length
  let digits := (text.takeWhile isDigitUnit).length
  let mark :=
    if 0 < bullets then bullets
    else if 0 < digits ∧ digits ≤ 3 ∧ (text[digits]? = some 0x2E ∨ text[digits]? = some 0x29) then
      digits + 1
    else 0
  let gap := ((text.drop mark).takeWhile isWhite).length
  if 0 < mark ∧ 0 < gap then some (mark + gap) else none

/-- A text starts with units of these kinds. -/
def startsWith (kinds : List (UInt16 → Bool)) (text : Units) : Bool :=
  kinds.length ≤ text.length ∧ (kinds.zip text).all fun pair => pair.1 pair.2

/-- Digits in runs of these lengths, a separator between them. -/
def digitRuns (separator : UInt16) (runs : List Nat) : List (UInt16 → Bool) :=
  [(· == separator)].intercalate (runs.map fun run => List.replicate run isDigitUnit)

/-- `BLOCK_START`: a bracket or bar, a fence, a date or a time. -/
def blockStart (text : Units) : Bool :=
  text.head?.any (· ∈ ([0x7C, 0x7D, 0x5D, 0x29, 0x5B] : Units)) ∨ units "```" <+: text ∨
    startsWith (digitRuns 0x2D [4, 2, 2]) text ∨ startsWith (digitRuns 0x3A [2, 2, 2]) text

/-- `BOX_DRAWING`. -/
def isBoxDrawing (unit : UInt16) : Bool := 0x2500 ≤ unit ∧ unit ≤ 0x259F

/-- `CODE_END`: an opening brace or bracket, a semicolon or a backslash at the end. -/
def codeEnd (text : Units) : Bool := text.getLast?.any (· ∈ ([0x7B, 0x28, 0x3B, 0x5C] : Units))

/-- False when the shape of either row says that the newline between them is real. -/
def mayJoin (row next : Units) : Bool :=
  let body := trimStart next
  ¬ (row.any isBoxDrawing ∨ next.any isBoxDrawing) ∧
    ¬ ((markerLength body).isSome ∨ blockStart body) ∧ ¬ codeEnd (trimEnd row)

/-- What separates a row from the next one. -/
def softBreak (row next : Units) (cols : Int) : Join :=
  let text := trimEnd row
  let body := trim next
  if cols < minJoinCols ∨ text = [] ∨ body = [] ∨ cols < text.length then .none
  else if mayJoin text next = false then .none
  else
    let indent := text.length - (trimStart text).length
    let hanging := indent + (markerLength (text.drop indent)).getD 0
    if next.length - (trimStart next).length ≠ hanging then .none
    else
      let full := cols - rightMargin
      let word := (body.takeWhile fun unit => !isWhite unit).length
      if text.length + 1 + min (word : Int) (cols / 4) ≤ full then .none
      else if full ≤ text.length ∧ ¬ (text.drop hanging).any isWhite then .glue
      else .space

/-- The rows behind the first, each joined to what is there so far. -/
def unwrapRows (cols : Int) (out prev : Units) : List Units → Units
  | [] => out
  | row :: rest =>
    let joined :=
      match softBreak prev row cols with
      | .none => out ++ newlineUnit :: row
      | .space => trimEnd out ++ spaceUnit :: trimStart row
      | .glue => trimEnd out ++ trimStart row
    unwrapRows cols joined row rest

/-- Rows that stay separate keep their exact text; without a width all of them do. -/
def unwrapText (text : Units) (cols : Option Int) : Units :=
  match cols with
  | none => text
  | some cols =>
    match text.splitOn newlineUnit with
    | [] => []
    | first :: rest => unwrapRows cols first first rest

/-! ### Rows and their seams -/

/-- What follows a row. -/
inductive Seam
  | last
  | newline
  | space
  | glue
  | wrapped
  deriving DecidableEq

/-- The seam of a join. -/
def Join.seam : Join → Seam
  | none => .newline
  | space => .space
  | glue => .glue

/-- An application's wrap, which replaces padding and indent. -/
def Seam.soft : Seam → Bool
  | space => true
  | glue => true
  | _ => false

/-- What stands at a seam. -/
def Seam.mark : Seam → Units
  | newline => [newlineUnit]
  | space => [spaceUnit]
  | _ => []

/-- A row without the indent that its predecessor's seam replaces. -/
def lead (strip : Bool) (text : Units) : Units := if strip then trimStart text else text

/-- The rows put together, each trimmed at its own seams. -/
def assemble (strip : Bool) : List (Units × Seam) → Units
  | [] => []
  | (text, seam) :: rest =>
    (if seam.soft then trimEnd (lead strip text) else lead strip text) ++
      (seam.mark ++ assemble seam.soft rest)

/-- Whether a row behind these loses its indent. -/
def stripAfter (strip : Bool) : List (Units × Seam) → Bool
  | [] => strip
  | (_, seam) :: rest => stripAfter seam.soft rest

/-- Nothing is joined behind these rows. -/
def Closed (rows : List (Units × Seam)) : Prop := ∀ row ∈ rows.getLast?, row.2 = .newline

@[simp]
theorem visible_lead (strip : Bool) (text : Units) : visible (lead strip text) = visible text := by
  cases strip
  · rfl
  · exact visible_trimStart text

@[simp]
theorem visible_mark (seam : Seam) : visible seam.mark = [] := by
  cases seam <;> decide

/-- Putting rows together keeps what can be seen of them. -/
theorem visible_assemble (strip : Bool) (rows : List (Units × Seam)) :
    visible (assemble strip rows) = rows.flatMap fun row => visible row.1 := by
  induction rows generalizing strip with
  | nil => rfl
  | cons row rest inductionHypothesis =>
    rw [assemble, visible_append, visible_append, visible_mark, List.nil_append,
      inductionHypothesis, List.flatMap_cons]
    split <;> simp

theorem assemble_append (strip : Bool) (rows others : List (Units × Seam)) :
    assemble strip (rows ++ others) =
      assemble strip rows ++ assemble (stripAfter strip rows) others := by
  induction rows generalizing strip with
  | nil => rfl
  | cons row rest inductionHypothesis =>
    rw [List.cons_append, assemble, assemble, inductionHypothesis, stripAfter,
      List.append_assoc, List.append_assoc]

/-- Closed rows end in a newline, and the row behind them keeps its indent. -/
theorem Closed.ending {rows : List (Units × Seam)} (closed : Closed rows) :
    stripAfter false rows = false ∧
      (assemble false rows = [] ∨ (assemble false rows).getLast? = some newlineUnit) := by
  rcases List.eq_nil_or_concat' rows with rfl | ⟨front, row, rfl⟩
  · exact ⟨rfl, Or.inl rfl⟩
  · have seam : row.2 = .newline := closed row List.getLast?_concat
    have after : ∀ strip, stripAfter strip (front ++ [row]) = row.2.soft := by
      induction front with
      | nil => exact fun strip => rfl
      | cons first front inductionHypothesis =>
        intro strip
        exact inductionHypothesis (fun last found => closed last (by
          rw [List.getLast?_concat] at found
          rw [List.getLast?_concat]
          exact found)) first.2.soft
    rw [after, assemble_append, assemble, seam]
    exact ⟨rfl, Or.inr (by simp [assemble, Seam.mark])⟩

/-- A row on a line of its own, exactly as it reads, between what can be seen of the others. -/
def OwnLine (whole row : Units) (earlier later : List Units) : Prop :=
  ∃ before after, whole = before ++ (row ++ after) ∧
    (before = [] ∨ before.getLast? = some newlineUnit) ∧
    (after = [] ∨ after.head? = some newlineUnit) ∧
    visible before = earlier.flatMap visible ∧ visible after = later.flatMap visible

theorem ownLine_assemble {earlier later : List (Units × Seam)} {seam : Seam} (text : Units)
    (closed : Closed earlier) (ends : seam = .newline ∨ seam = .last ∧ later = []) :
    OwnLine (assemble false (earlier ++ (text, seam) :: later)) text
      (earlier.map Prod.fst) (later.map Prod.fst) := by
  have hard : seam.soft = false := by
    rcases ends with rfl | ⟨rfl, -⟩ <;> rfl
  refine ⟨assemble false earlier, seam.mark ++ assemble seam.soft later, ?_,
    closed.ending.2, ?_, ?_, ?_⟩
  · rw [assemble_append, closed.ending.1, assemble, hard]
    rfl
  · rcases ends with rfl | ⟨rfl, rfl⟩
    · exact Or.inr rfl
    · exact Or.inl rfl
  · rw [visible_assemble, List.flatMap_map]
  · rw [visible_append, visible_mark, List.nil_append, visible_assemble, List.flatMap_map]

/-! ### Unwrapping puts rows together -/

/-- How a row is joined to the next; without a width not at all. -/
def joinOf (cols : Option Int) (row next : Units) : Join :=
  match cols with
  | none => .none
  | some cols => softBreak row next cols

/-- Rows with their seams, before a next row if there is one. -/
def rowSeams (join : Units → Units → Join) : List Units → Option Units → List (Units × Seam)
  | [], _ => []
  | [row], none => [(row, .last)]
  | [row], some next => [(row, (join row next).seam)]
  | row :: next :: rest, behind =>
    (row, (join row next).seam) :: rowSeams join (next :: rest) behind

section Rows

variable {join : Units → Units → Join}

variable (join) in
theorem rowSeams_map_fst (rows : List Units) (behind : Option Units) :
    (rowSeams join rows behind).map Prod.fst = rows := by
  fun_induction rowSeams join rows behind with
  | case1 => rfl
  | case2 => rfl
  | case3 => rfl
  | case4 behind row next rest inductionHypothesis =>
    rw [List.map_cons, inductionHypothesis]

theorem rowSeams_append (earlier : List Units) (row : Units) (later : List Units) :
    rowSeams join (earlier ++ row :: later) none =
      rowSeams join earlier (some row) ++ rowSeams join (row :: later) none := by
  induction earlier with
  | nil => rfl
  | cons first earlier inductionHypothesis =>
    cases earlier with
    | nil => rfl
    | cons second earlier =>
      rw [List.cons_append, List.cons_append, rowSeams]
      rw [List.cons_append] at inductionHypothesis
      rw [inductionHypothesis, rowSeams, List.cons_append]

/-- Rows before one that none of them is joined to are closed. -/
theorem closed_rowSeams {earlier : List Units} {row : Units}
    (apart : ∀ prev ∈ earlier.getLast?, join prev row = .none) :
    Closed (rowSeams join earlier (some row)) := by
  induction earlier with
  | nil => exact fun _ found => absurd found (by simp [rowSeams])
  | cons first earlier inductionHypothesis =>
    cases earlier with
    | nil =>
      intro last found
      obtain rfl : (first, (join first row).seam) = last := Option.some.inj found
      rw [apart first rfl]
      rfl
    | cons second earlier =>
      have later := inductionHypothesis fun prev found => apart prev (by
        rw [List.getLast?_cons_cons]
        exact found)
      intro last found
      rw [rowSeams] at found
      obtain ⟨next, rest, split⟩ :
          ∃ next rest, rowSeams join (second :: earlier) (some row) = next :: rest := by
        refine List.exists_cons_of_ne_nil fun empty => ?_
        have rows := rowSeams_map_fst join (second :: earlier) (some row)
        rw [empty] at rows
        exact absurd rows (by simp)
      rw [split, List.getLast?_cons_cons, ← split] at found
      exact later last found

/-- Of the rows put together, one that is joined to neither neighbour has its own line. -/
theorem ownLine_rowSeams {earlier later : List Units} {row : Units}
    (before : ∀ prev ∈ earlier.getLast?, join prev row = .none)
    (after : ∀ next ∈ later.head?, join row next = .none) :
    OwnLine (assemble false (rowSeams join (earlier ++ row :: later) none)) row earlier later := by
  have closed := closed_rowSeams before
  have front := rowSeams_map_fst join earlier (some row)
  rw [rowSeams_append]
  cases later with
  | nil =>
    have ends : Seam.last = .newline ∨ Seam.last = .last ∧ ([] : List (Units × Seam)) = [] :=
      Or.inr ⟨rfl, rfl⟩
    have alone := ownLine_assemble row closed ends
    rwa [front] at alone
  | cons next later =>
    have back := rowSeams_map_fst join (next :: later) none
    have seam : (join row next).seam = .newline := by rw [after next rfl]; rfl
    have ends : (join row next).seam = .newline ∨
        (join row next).seam = .last ∧ rowSeams join (next :: later) none = [] := Or.inl seam
    have alone := ownLine_assemble row closed ends
    rwa [front, back] at alone

end Rows

/-- A row is joined only if it can be seen. -/
theorem visible_of_softBreak {row next : Units} {cols : Int}
    (joined : softBreak row next cols ≠ .none) : visible row ≠ [] := by
  intro blank
  refine joined ?_
  simp only [softBreak, trimEnd_eq_nil_iff.mpr blank, true_or, or_true, if_true]

theorem unwrapRows_eq_assemble (cols : Int) (front prev : Units) (strip : Bool)
    (rest : List Units) :
    unwrapRows cols (front ++ lead strip prev) prev rest =
      front ++ assemble strip (rowSeams (softBreak · · cols) (prev :: rest) none) := by
  induction rest generalizing front prev strip with
  | nil => simp [unwrapRows, rowSeams, assemble, Seam.soft, Seam.mark]
  | cons row rest inductionHypothesis =>
    rw [unwrapRows, rowSeams, assemble]
    cases joined : softBreak prev row cols with
    | none =>
      have step := inductionHypothesis (front ++ lead strip prev ++ [newlineUnit]) row false
      simpa [lead, Join.seam, Seam.soft, Seam.mark] using step
    | space =>
      have solid : visible (lead strip prev) ≠ [] := by
        rw [visible_lead]
        exact visible_of_softBreak (by rw [joined]; exact Join.noConfusion)
      have step := inductionHypothesis (front ++ trimEnd (lead strip prev) ++ [spaceUnit]) row true
      simp only [trimEnd_append solid]
      simpa [lead, Join.seam, Seam.soft, Seam.mark] using step
    | glue =>
      have solid : visible (lead strip prev) ≠ [] := by
        rw [visible_lead]
        exact visible_of_softBreak (by rw [joined]; exact Join.noConfusion)
      have step := inductionHypothesis (front ++ trimEnd (lead strip prev)) row true
      simp only [trimEnd_append solid]
      simpa [lead, Join.seam, Seam.soft, Seam.mark] using step

/-- Rows that are all kept apart. -/
theorem assemble_apart (rows : List Units) :
    assemble false (rowSeams (fun _ _ => .none) rows none) = [newlineUnit].intercalate rows := by
  induction rows with
  | nil => rfl
  | cons row rest inductionHypothesis =>
    cases rest with
    | nil => simp [rowSeams, assemble, lead, Seam.soft, Seam.mark]
    | cons next rest =>
      rw [rowSeams, assemble, List.intercalate_cons_cons, ← inductionHypothesis]
      simp [lead, Join.seam, Seam.soft, Seam.mark]

/-- Unwrapping puts the rows of a text together. -/
theorem unwrapText_eq_assemble (text : Units) (cols : Option Int) :
    unwrapText text cols =
      assemble false (rowSeams (joinOf cols) (text.splitOn newlineUnit) none) := by
  cases cols with
  | none => exact (List.intercalate_splitOn newlineUnit).symm.trans (assemble_apart _).symm
  | some cols =>
    cases split : text.splitOn newlineUnit with
    | nil => simp only [unwrapText, split, rowSeams, assemble]
    | cons first rest =>
      simp only [unwrapText, split]
      exact unwrapRows_eq_assemble cols [] first false rest

theorem visible_unwrapText (text : Units) (cols : Option Int) :
    visible (unwrapText text cols) = (text.splitOn newlineUnit).flatMap visible := by
  rw [unwrapText_eq_assemble, visible_assemble, ← List.flatMap_map, rowSeams_map_fst]

/-- What can be seen of a text is what can be seen of its rows. -/
theorem visible_rows (text : Units) :
    (text.splitOn newlineUnit).flatMap visible = visible text :=
  (visible_unwrapText text none).symm

end Multimux
