/-!
Byte ranges of a unit's source text. A merge is the least range over both operands, with the
dummy range as its unit, so a list of ranges has one hull whatever its order.
-/

namespace FormLowering

/-- The half-open byte range from `start` to `stop`. -/
structure Span where
  start : Nat
  stop : Nat
  deriving DecidableEq, Repr, Inhabited

namespace Span

/-- The range of nodes that come from no text. -/
def dummy : Span := ⟨0, 0⟩

/-- An inverted range has length zero. -/
def length (s : Span) : Nat := s.stop - s.start

def isEmpty (s : Span) : Bool := s.length == 0

/-- The least range over both; a dummy operand counts for nothing. -/
def merge (s t : Span) : Span :=
  if s = dummy then t
  else if t = dummy then s
  else ⟨min s.start t.start, max s.stop t.stop⟩

/-- The merge of all ranges of a list, the dummy range if there is none. -/
def hull (spans : List Span) : Span := spans.foldl merge dummy

def text (s : Span) : String := s!"{s.start}..{s.stop}"

@[simp] theorem dummy_merge (s : Span) : dummy.merge s = s := by
  simp [merge]

@[simp] theorem merge_dummy (s : Span) : s.merge dummy = s := by
  by_cases h : s = dummy <;> simp [merge, h]

@[simp] theorem hull_nil : hull [] = dummy := rfl

@[simp] theorem hull_cons (s : Span) (spans : List Span) :
    hull (s :: spans) = spans.foldl merge s := by
  simp [hull]

end Span

end FormLowering
