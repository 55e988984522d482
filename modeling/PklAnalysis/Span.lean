/-!
# Spans

A span is a half-open range `[start, stop)` of byte offsets in the text of a module. A span whose
end does not lie behind its start is empty and contains no offset.
-/

namespace PklAnalysis

/-- The offsets from `start` up to, and without, `stop`. -/
structure Span where
  start : Nat
  stop : Nat
  deriving DecidableEq, Repr, Inhabited

namespace Span

/-- The span given for a node that does not exist. -/
def nowhere : Span := ⟨0, 0⟩

/-- How many offsets the span contains. -/
def length (s : Span) : Nat := s.stop - s.start

def isEmpty (s : Span) : Bool := s.stop ≤ s.start

/-- The least span that starts with the first and ends with the last of the two. -/
def cover (s t : Span) : Span := ⟨min s.start t.start, max s.stop t.stop⟩

def contains (s : Span) (offset : Nat) : Bool := s.start ≤ offset && offset < s.stop

/-- Spans are ordered by their start, then by their end. -/
def order (s t : Span) : Ordering := (compare s.start t.start).then (compare s.stop t.stop)

theorem cover_start (s t : Span) : (s.cover t).start = min s.start t.start := rfl
theorem cover_stop (s t : Span) : (s.cover t).stop = max s.stop t.stop := rfl

theorem contains_iff {s : Span} {o : Nat} : s.contains o = true ↔ s.start ≤ o ∧ o < s.stop := by
  simp [contains]

theorem isEmpty_iff {s : Span} : s.isEmpty = true ↔ s.stop ≤ s.start := by simp [isEmpty]

end Span

end PklAnalysis
