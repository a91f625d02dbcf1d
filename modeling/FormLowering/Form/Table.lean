import FormLowering.Form.Assign
import FormLowering.Form.Measure
import FormLowering.Text.Quoted

/-!
The forms that lists are looked up in, by the symbol they start with.
-/

namespace FormLowering

/-- Forms by name, one for each name. -/
structure FormTable where
  entries : List (String × Form)

namespace FormTable

def empty : FormTable := ⟨[]⟩

/-- Adds a form or replaces the one of its name. -/
def register (forms : FormTable) (name : String) (form : Form) : FormTable :=
  ⟨(name, form) :: forms.entries.filter (·.1 != name)⟩

def find? (forms : FormTable) (name : String) : Option Form := forms.entries.lookup name

def core : FormTable :=
  ⟨[(":", .field), ("setf", .assign), ("#", .addressOf), ("@", .dereference),
    ("alignmentof", .alignmentOf), ("sizeof", .sizeOf), ("offsetof", .offsetOf)]⟩

def names (forms : FormTable) : List String :=
  (forms.entries.map (·.1)).mergeSort fun a b => a ≤ b

/-- The table as text, with its names in quotes. -/
def text (forms : FormTable) : String :=
  let names := ", ".intercalate (forms.names.map quoted)
  s!"FormTable \x7b forms: [{names}] \x7d"

end FormTable

end FormLowering
