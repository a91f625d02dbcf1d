import FormLowering.Report.Log
import FormLowering.Report.Position

/-!
Reports as plain text: one block per report with its labels and notes, and a count of errors at
the end of a log. There is no text where the line or the column of a label overflows.
-/

namespace FormLowering

inductive ColorMode where
  | auto
  | always
  | never
  deriving DecidableEq, Repr

/-- Colour is left to the destination unless it is asked for or refused. -/
instance : Inhabited ColorMode := ⟨.auto⟩

def ColorMode.enabled (mode : ColorMode) (isTerminal : Bool) : Bool :=
  match mode with
  | .auto => isTerminal
  | .always => true
  | .never => false

inductive Paint where
  | red
  | blue
  deriving DecidableEq, Repr

/-- The escape sequence that begins a painted text. -/
def Paint.sequence : Paint → String
  | .red => "\x1b[1;31m"
  | .blue => "\x1b[1;34m"

/-- The settings of a report: colour, and the text that locations refer to. -/
structure Renderer where
  color : Bool := false
  source : Option String := none
  deriving Repr, Inhabited

namespace Renderer

def paint (renderer : Renderer) (colour : Paint) (text : String) : String :=
  if renderer.color then s!"{colour.sequence}{text}\x1b[0m" else text

/-- Line and column if there is a source text, else the byte range. -/
def location (renderer : Renderer) (span : Span) : Option String :=
  match renderer.source with
  | some source => do
    let (line, column) ← position source.toList span.start
    return s!"{line}:{column}"
  | none => some span.text

def label (renderer : Renderer) (label : Label) : Option String := do
  let arrow := if label.isPrimary then "-->" else "   "
  let text := renderer.paint (if label.isPrimary then .red else .blue) label.text
  return s!"  {arrow} {← renderer.location label.span}: {text}\n"

def diagnostic (renderer : Renderer) (diagnostic : Diagnostic) : Option String := do
  let head := renderer.paint .red s!"error[{diagnostic.code.label}]"
  let labels := String.join (← diagnostic.labels.mapM renderer.label)
  let notes := String.join (diagnostic.notes.map fun note => s!"  = note: {note}\n")
  return s!"{head}: {diagnostic.message}\n{labels}{notes}\n"

/-- The line that counts the errors of `unit`; a log without errors has none. -/
def summary (renderer : Renderer) (log : Log) (unit : String) : String :=
  let errors := log.entries.length
  if errors = 0 then ""
  else
    let plural := if errors = 1 then "" else "s"
    let more := if log.dropped = 0 then "" else s!" ({log.dropped} more not shown)"
    let head := renderer.paint .red "error"
    s!"{head}: {errors} error{plural} in `{unit}`{more}\n"

def log (renderer : Renderer) (log : Log) (unit : String) : Option String := do
  let entries ← log.entries.mapM renderer.diagnostic
  return String.join entries ++ renderer.summary log unit

end Renderer

end FormLowering
