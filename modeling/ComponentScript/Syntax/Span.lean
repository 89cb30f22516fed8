/-
  ComponentScript.Syntax.Span — byte ranges of nodes in their source file.

  The span of a node is its name in the model of symbols and types. A node that was made
  and not read has the span `0..0`, which names nothing.
-/

namespace ComponentScript

structure Span where
  start : UInt32 := 0
  stop : UInt32 := 0
  deriving DecidableEq

namespace Span

/-- The span of a node that has no place in a file. -/
def dummy : Span := ⟨0, 0⟩

def isDummy (s : Span) : Bool := s = dummy

def text (s : Span) : String := s!"{s.start.toNat}..{s.stop.toNat}"

/-- Spans are ordered by their start, then by their end. -/
instance : Ord Span where
  compare := compareLex (compareOn Span.start) (compareOn Span.stop)

end Span

end ComponentScript
