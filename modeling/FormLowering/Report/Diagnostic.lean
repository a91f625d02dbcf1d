import FormLowering.Source.Span
import FormLowering.Report.ErrorCode

/-!
One reported error: a coded message with labelled places and notes. At most one label is primary,
and it is the first that was attached as such.
-/

namespace FormLowering

structure Label where
  span : Span
  text : String
  isPrimary : Bool
  deriving DecidableEq, Repr, Inhabited

structure Diagnostic where
  code : ErrorCode
  message : String := ""
  labels : List Label := []
  notes : List String := []
  deriving DecidableEq, Repr, Inhabited

namespace Diagnostic

def hasPrimary (diagnostic : Diagnostic) : Bool :=
  diagnostic.labels.any (·.isPrimary)

/-- Marks the place of the error; only the first such label is primary. -/
def locate (diagnostic : Diagnostic) (text : String) (span : Span) : Diagnostic :=
  { diagnostic with labels := diagnostic.labels ++ [⟨span, text, !diagnostic.hasPrimary⟩] }

def relate (diagnostic : Diagnostic) (text : String) (span : Span) : Diagnostic :=
  { diagnostic with labels := diagnostic.labels ++ [⟨span, text, false⟩] }

def note (diagnostic : Diagnostic) (text : String) : Diagnostic :=
  { diagnostic with notes := diagnostic.notes ++ [text] }

def primarySpan? (diagnostic : Diagnostic) : Option Span :=
  (diagnostic.labels.find? (·.isPrimary)).map (·.span)

def text (diagnostic : Diagnostic) : String :=
  let line := s!"error[{diagnostic.code.label}]: {diagnostic.message}"
  match diagnostic.primarySpan? with
  | some span => s!"{line} at {span.text}"
  | none => line

end Diagnostic

end FormLowering
