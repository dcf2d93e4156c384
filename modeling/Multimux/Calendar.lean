/-
This file is the library of dates and times as text. An instant is counted from
the beginning of the year 0 in the proleptic Gregorian calendar; its date is
found from the days before each year and month. Written with every field padded
to its width, largest unit first, the instants of the years 0 to 9999 sort as
texts in the order of time.
-/

import Multimux.TextOrder
import Mathlib.Data.Nat.Find

namespace Multimux

/-! ### Padded numbers -/

/-- The numbers that a field of some width holds: all below ten to the width. -/
def widthBound : Nat → Nat
  | 0 => 1
  | width + 1 => 10 * widthBound width

/-- A number in decimal digits, padded with zeros. -/
def padded : Nat → Nat → List Char
  | 0, _ => []
  | width + 1, number => padded width (number / 10) ++ [Nat.digitChar (number % 10)]

theorem length_padded (width number : Nat) : (padded width number).length = width := by
  induction width generalizing number with
  | zero => rfl
  | succ width inductionHypothesis => rw [padded, List.length_append, inductionHypothesis]; rfl

theorem toNat_digitChar {digit : Nat} (decimal : digit < 10) :
    (Nat.digitChar digit).toNat = 48 + digit := by
  have each : ∀ digit : Fin 10, (Nat.digitChar digit).toNat = 48 + digit := by decide
  exact each ⟨digit, decimal⟩

theorem sortsBefore_digit {digit other : Nat} (decimal : digit < 10) (otherDecimal : other < 10) :
    sortsBefore [Nat.digitChar digit] [Nat.digitChar other] = true ↔ digit ≤ other := by
  rw [sortsBefore_cons, ← Char.toNat_inj, toNat_digitChar decimal, toNat_digitChar otherDecimal]
  simp only [sortsBefore, and_true]
  omega

/-- Fields that sort as their numbers do are equal as they are. -/
theorem padded_eq_iff {width number other : Nat}
    (high : sortsBefore (padded width number) (padded width other) = true ↔ number ≤ other)
    (low : sortsBefore (padded width other) (padded width number) = true ↔ other ≤ number) :
    padded width number = padded width other ↔ number = other := by
  refine ⟨fun same => Nat.le_antisymm (high.mp ?_) (low.mp ?_), congrArg _⟩
  · rw [same]
    exact sortsBefore_refl _
  · rw [same]
    exact sortsBefore_refl _

/-- Padded numbers sort as the numbers do. -/
theorem sortsBefore_padded {width number other : Nat} (fits : number < widthBound width)
    (otherFits : other < widthBound width) :
    sortsBefore (padded width number) (padded width other) = true ↔ number ≤ other := by
  induction width generalizing number other with
  | zero =>
    rw [widthBound] at fits otherFits
    simp only [padded, sortsBefore, true_iff]
    omega
  | succ width inductionHypothesis =>
    rw [widthBound] at fits otherFits
    have highFits : number / 10 < widthBound width := by omega
    have otherHighFits : other / 10 < widthBound width := by omega
    have high := inductionHypothesis highFits otherHighFits
    have low := inductionHypothesis otherHighFits highFits
    rw [padded, padded, sortsBefore_append ((length_padded _ _).trans (length_padded _ _).symm),
      ← Bool.not_eq_true, low, padded_eq_iff high low,
      sortsBefore_digit (Nat.mod_lt _ (by decide)) (Nat.mod_lt _ (by decide))]
    omega

/-- A padded field decides before what follows it. -/
theorem sortsBefore_padded_append {width number other : Nat} {rest others : List Char}
    (fits : number < widthBound width) (otherFits : other < widthBound width) :
    sortsBefore (padded width number ++ rest) (padded width other ++ others) = true ↔
      number < other ∨ number = other ∧ sortsBefore rest others = true := by
  have high := sortsBefore_padded fits otherFits
  have low := sortsBefore_padded otherFits fits
  rw [sortsBefore_append ((length_padded _ _).trans (length_padded _ _).symm),
    ← Bool.not_eq_true, low, padded_eq_iff high low, Nat.not_le]

theorem sortsBefore_cons_self {letter : Char} {rest others : List Char} :
    sortsBefore (letter :: rest) (letter :: others) = true ↔ sortsBefore rest others = true := by
  rw [sortsBefore_cons]
  simp

/-! ### Years and months -/

/-- The days from the beginning of the year 0 to that of a year. -/
def daysBefore (year : Nat) : Nat :=
  365 * year + ((year + 3) / 4 - (year + 99) / 100 + (year + 399) / 400)

/-- The rule of the Gregorian calendar. -/
def leapYear (year : Nat) : Bool :=
  year % 4 = 0 && (year % 100 ≠ 0 || year % 400 = 0)

/-- A leap year is one day longer. -/
theorem daysBefore_succ (year : Nat) :
    daysBefore (year + 1) = daysBefore year + if leapYear year then 366 else 365 := by
  have fours : (year + 1 + 3) / 4 = (year + 3) / 4 + if year % 4 = 0 then 1 else 0 := by
    split <;> omega
  have hundreds : (year + 1 + 99) / 100 = (year + 99) / 100 + if year % 100 = 0 then 1 else 0 := by
    split <;> omega
  have centuries : (year + 1 + 399) / 400 = (year + 399) / 400 +
      if year % 400 = 0 then 1 else 0 := by
    split <;> omega
  have fewer : (year + 99) / 100 ≤ (year + 3) / 4 := by omega
  have nested : year % 100 = 0 → year % 4 = 0 := by omega
  have nestedAgain : year % 400 = 0 → year % 100 = 0 := by omega
  unfold daysBefore leapYear
  rw [fours, hundreds, centuries]
  generalize (year + 3) / 4 = quarter, (year + 99) / 100 = hundredth,
    (year + 399) / 400 = century at fewer ⊢
  by_cases leaps : year % 4 = 0 <;> by_cases skips : year % 100 = 0 <;>
    by_cases returns : year % 400 = 0 <;> simp [leaps, skips, returns] <;> omega

theorem daysBefore_mono {year later : Nat} (order : year ≤ later) :
    daysBefore year ≤ daysBefore later := by
  induction later, order using Nat.le_induction with
  | base => exact Nat.le_refl _
  | succ later _ inductionHypothesis =>
    rw [daysBefore_succ]
    exact Nat.le_trans inductionHypothesis (Nat.le_add_right _ _)

/-- The year of a day. -/
def yearOf (day : Nat) : Nat := Nat.findGreatest (daysBefore · ≤ day) (day / 365)

theorem daysBefore_yearOf (day : Nat) : daysBefore (yearOf day) ≤ day :=
  Nat.findGreatest_spec (P := (daysBefore · ≤ day)) (Nat.zero_le _) (Nat.zero_le day)

theorem lt_daysBefore_yearOf (day : Nat) : day < daysBefore (yearOf day + 1) := by
  by_contra later
  have begun : daysBefore (yearOf day + 1) ≤ day := Nat.le_of_not_lt later
  have inside : yearOf day + 1 ≤ day / 365 := by
    unfold daysBefore at begun
    omega
  have greatest := Nat.le_findGreatest (P := (daysBefore · ≤ day)) inside begun
  exact Nat.lt_irrefl _ greatest

theorem yearOf_lt {day later : Nat} (apart : yearOf day < yearOf later) : day < later :=
  Nat.lt_of_lt_of_le (lt_daysBefore_yearOf day)
    (Nat.le_trans (daysBefore_mono apart) (daysBefore_yearOf later))

/-- The lengths of the months, in order. -/
def monthLengths (leap : Bool) : List Nat :=
  [31, if leap then 29 else 28, 31, 30, 31, 30, 31, 31, 30, 31, 30, 31]

/-- The months of some lengths that lie before a day, and the days before it in its month. -/
def splitMonth : List Nat → Nat → Nat × Nat
  | [], day => (0, day)
  | length :: rest, day =>
    if day < length then (0, day)
    else ((splitMonth rest (day - length)).1 + 1, (splitMonth rest (day - length)).2)

/-- Within a year the months decide, and then the days. -/
theorem splitMonth_lt {lengths : List Nat} {day later : Nat} (order : day < later) :
    (splitMonth lengths day).1 < (splitMonth lengths later).1 ∨
      (splitMonth lengths day).1 = (splitMonth lengths later).1 ∧
        (splitMonth lengths day).2 < (splitMonth lengths later).2 := by
  induction lengths generalizing day later with
  | nil => exact .inr ⟨rfl, order⟩
  | cons length rest inductionHypothesis =>
    simp only [splitMonth]
    split
    · split
      · exact .inr ⟨rfl, order⟩
      · exact .inl (Nat.succ_pos _)
    · rename_i beyond
      rw [if_neg (fun early => beyond (Nat.lt_trans order early))]
      have shorter : day - length < later - length := by omega
      have shifted := inductionHypothesis shorter
      dsimp only
      omega

theorem splitMonth_fits {lengths : List Nat} (short : ∀ length ∈ lengths, length ≤ 31) {day : Nat}
    (inside : day < lengths.foldr (· + ·) 0) :
    (splitMonth lengths day).1 < lengths.length ∧ (splitMonth lengths day).2 < 31 := by
  induction lengths generalizing day with
  | nil => cases inside
  | cons length rest inductionHypothesis =>
    have first := short length (List.mem_cons_self ..)
    rw [List.foldr_cons] at inside
    simp only [splitMonth, List.length_cons]
    split
    · exact ⟨Nat.succ_pos _, by dsimp only; omega⟩
    · have shorter : day - length < rest.foldr (· + ·) 0 := by omega
      obtain ⟨months, days⟩ := inductionHypothesis
        (fun other member => short other (List.mem_cons_of_mem _ member)) shorter
      exact ⟨Nat.succ_lt_succ months, days⟩

/-! ### Dates -/

/-- A day as year, month and day of the month, the last two counted from 0. -/
def dateOf (day : Nat) : Nat × Nat × Nat :=
  (yearOf day, splitMonth (monthLengths (leapYear (yearOf day))) (day - daysBefore (yearOf day)))

/-- A later day has a later date. -/
theorem dateOf_lt {day later : Nat} (order : day < later) :
    (dateOf day).1 < (dateOf later).1 ∨ (dateOf day).1 = (dateOf later).1 ∧
      ((dateOf day).2.1 < (dateOf later).2.1 ∨ (dateOf day).2.1 = (dateOf later).2.1 ∧
        (dateOf day).2.2 < (dateOf later).2.2) := by
  rcases Nat.lt_trichotomy (yearOf day) (yearOf later) with before | same | after
  · exact .inl before
  · have begun := daysBefore_yearOf day
    have inside : day - daysBefore (yearOf day) < later - daysBefore (yearOf day) := by omega
    refine .inr ⟨same, ?_⟩
    simp only [dateOf, ← same]
    exact splitMonth_lt inside
  · exact absurd (yearOf_lt after) (Nat.lt_asymm order)

/-- The days of the years 0 to 9999. -/
def eraDays : Nat := 3652425

theorem dateOf_fits {day : Nat} (era : day < eraDays) :
    (dateOf day).1 < 10000 ∧ (dateOf day).2.1 < 12 ∧ (dateOf day).2.2 < 31 := by
  have begun := daysBefore_yearOf day
  have ends := lt_daysBefore_yearOf day
  rw [daysBefore_succ] at ends
  refine ⟨?_, ?_⟩
  · by_contra beyond
    have late : daysBefore 10000 ≤ daysBefore (yearOf day) :=
      daysBefore_mono (Nat.le_of_not_lt beyond)
    have last : daysBefore 10000 = eraDays := by decide
    omega
  · refine splitMonth_fits ?_ ?_
    · cases leapYear (yearOf day) <;> decide
    · cases leap : leapYear (yearOf day) with
      | true =>
        have days : (monthLengths true).foldr (· + ·) 0 = 366 := by decide
        rw [leap, if_pos rfl] at ends
        omega
      | false =>
        have days : (monthLengths false).foldr (· + ·) 0 = 365 := by decide
        rw [leap, if_neg (by decide)] at ends
        omega

/-! ### Texts -/

/-- A date as `2006-01-02`. -/
def dateText (day : Nat) : List Char :=
  padded 4 (dateOf day).1 ++ '-' :: (padded 2 ((dateOf day).2.1 + 1) ++
    '-' :: padded 2 ((dateOf day).2.2 + 1))

/-- A time of day as `15:04:05`. -/
def clockText (second : Nat) : List Char :=
  padded 2 (second / 3600) ++ ':' :: (padded 2 (second / 60 % 60) ++ ':' :: padded 2 (second % 60))

/-- A second since the year 0 as `2006-01-02T15:04:05`. -/
def dateTimeText (seconds : Nat) : List Char :=
  dateText (seconds / 86400) ++ 'T' :: clockText (seconds % 86400)

theorem sortsBefore_dateText_append {day other : Nat} {rest others : List Char}
    (era : day < eraDays) (otherEra : other < eraDays) :
    sortsBefore (dateText day ++ rest) (dateText other ++ others) = true ↔
      day < other ∨ day = other ∧ sortsBefore rest others = true := by
  obtain ⟨years, months, days⟩ := dateOf_fits era
  obtain ⟨otherYears, otherMonths, otherDays⟩ := dateOf_fits otherEra
  have four : widthBound 4 = 10000 := rfl
  have two : widthBound 2 = 100 := rfl
  simp only [dateText, List.append_assoc, List.cons_append]
  rw [sortsBefore_padded_append (by omega) (by omega), sortsBefore_cons_self,
    sortsBefore_padded_append (by omega) (by omega), sortsBefore_cons_self,
    sortsBefore_padded_append (by omega) (by omega)]
  rcases Nat.lt_trichotomy day other with before | rfl | after
  · have dates := dateOf_lt before
    simp only [before, Nat.ne_of_lt before, true_or, iff_true]
    rcases dates with year | ⟨year, month | ⟨month, date⟩⟩
    · exact .inl year
    · exact .inr ⟨year, .inl (Nat.succ_lt_succ month)⟩
    · exact .inr ⟨year, .inr ⟨congrArg _ month, .inl (Nat.succ_lt_succ date)⟩⟩
  · simp
  · have dates := dateOf_lt after
    have neither : ¬ (day < other ∨ day = other ∧ sortsBefore rest others = true) := by omega
    simp only [neither, iff_false]
    omega

theorem sortsBefore_clockText_append {second other : Nat} {rest others : List Char}
    (inside : second < 86400) (otherInside : other < 86400) :
    sortsBefore (clockText second ++ rest) (clockText other ++ others) = true ↔
      second < other ∨ second = other ∧ sortsBefore rest others = true := by
  have two : widthBound 2 = 100 := rfl
  simp only [clockText, List.append_assoc, List.cons_append]
  rw [sortsBefore_padded_append (by omega) (by omega), sortsBefore_cons_self,
    sortsBefore_padded_append (by omega) (by omega), sortsBefore_cons_self,
    sortsBefore_padded_append (by omega) (by omega)]
  generalize sortsBefore rest others = ends
  cases ends <;> simp only [and_true, and_false, or_false, Bool.false_eq_true] <;> omega

/-- Texts of instants sort as the instants do, and where these are equal what follows decides. -/
theorem sortsBefore_dateTimeText_append {seconds other : Nat} {rest others : List Char}
    (era : seconds / 86400 < eraDays) (otherEra : other / 86400 < eraDays) :
    sortsBefore (dateTimeText seconds ++ rest) (dateTimeText other ++ others) = true ↔
      seconds < other ∨ seconds = other ∧ sortsBefore rest others = true := by
  have inside : seconds % 86400 < 86400 := Nat.mod_lt _ (by decide)
  have otherInside : other % 86400 < 86400 := Nat.mod_lt _ (by decide)
  simp only [dateTimeText, List.append_assoc, List.cons_append]
  rw [sortsBefore_dateText_append era otherEra, sortsBefore_cons_self,
    sortsBefore_clockText_append inside otherInside]
  generalize sortsBefore rest others = ends
  cases ends <;> simp only [and_true, and_false, or_false, Bool.false_eq_true] <;> omega

/-- The seconds from the beginning of the year 0 to that of 1970. -/
def epochSeconds : Nat := 62167219200

example : daysBefore 1970 * 86400 = epochSeconds := by decide

example : dateTimeText 63303433445 = "2006-01-02T15:04:05".toList := by decide

end Multimux
