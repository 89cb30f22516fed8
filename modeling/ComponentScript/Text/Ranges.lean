/-
  ComponentScript.Text.Ranges — sets of characters given by ranges of code points.

  A property of the character database is a list of closed ranges in ascending order. A
  property that alternates (a capital, its small letter, the next capital) is a list of
  runs, which also have a step.
-/

namespace ComponentScript.Text

/-- Whether a code point lies in one of the closed ranges. -/
def inRanges (table : List (Nat × Nat)) (n : Nat) : Bool :=
  table.any fun r => r.1 ≤ n && n ≤ r.2

/-- Code points `first`, `first + step`, ..., `last`. -/
structure Run where
  first : Nat
  last : Nat
  step : Nat

def Run.holds (r : Run) (n : Nat) : Bool :=
  r.first ≤ n && n ≤ r.last && (n - r.first) % r.step == 0

/-- Whether a code point lies in one of the runs. -/
def inRuns (table : List Run) (n : Nat) : Bool :=
  table.any fun r => r.holds n

end ComponentScript.Text
