/-
This file fixes how the daemon measures time. Instants and durations are
integers, counted in nanoseconds as the daemon's clock readings are; the store
keeps instants in text columns of whole seconds, so an instant that went
through a column comes back rounded down.
-/

import Mathlib.Algebra.Order.Group.Int

namespace Multimux

/-- A second in nanoseconds. -/
def second : Int := 1000000000

/-- A minute in nanoseconds. -/
def minute : Int := 60 * second

/-- An hour in nanoseconds. -/
def hour : Int := 60 * minute

/-- The value of a timestamp column: UTC text of whole seconds, which orders as its seconds
do. -/
structure Rfc3339 where
  seconds : Int
  deriving DecidableEq, Repr

/-- `Format(time.RFC3339)` drops what lies below the second. -/
def Rfc3339.format (instant : Int) : Rfc3339 := ⟨instant / second⟩

/-- `time.Parse(time.RFC3339, ·)`. -/
def Rfc3339.parse (column : Rfc3339) : Int := column.seconds * second

theorem Rfc3339.parse_format_le (instant : Int) : (format instant).parse ≤ instant := by
  simp only [format, parse, second]
  omega

end Multimux
