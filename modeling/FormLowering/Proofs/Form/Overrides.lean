import Mathlib
import FormLowering.Proofs.Typing.Reachable

/-!
Forms that are registered over others. A list is given to the form that was registered last under
its name, and the prefix `core` changes nothing about that: it is a mark in the request. So it leads
to a built-in form as long as nothing else took the name.
-/

namespace FormLowering

namespace FormTable

variable {forms : FormTable} {name other : String} {form : Form}

/-- The table after forms were registered one after the other. -/
def registerAll (forms : FormTable) (entries : List (String × Form)) : FormTable :=
  entries.foldl (fun forms entry => forms.register entry.1 entry.2) forms

/-- To leave out the entries of one name is no loss for another. -/
theorem lookup_filter_of_ne (differs : name ≠ other) (entries : List (String × Form)) :
    (entries.filter (·.1 != name)).lookup other = entries.lookup other := by
  induction entries with
  | nil => rfl
  | cons entry rest ih =>
    by_cases same : entry.1 = name
    · have passed : (other == entry.1) = false := by simpa [same] using differs.symm
      rw [List.filter_cons_of_neg (by simpa using same), List.lookup_cons, passed]
      exact ih
    · rw [List.filter_cons_of_pos (by simpa using same), List.lookup_cons, List.lookup_cons, ih]

theorem find?_register_self : (forms.register name form).find? name = some form :=
  List.lookup_cons_self

theorem find?_register_of_ne (differs : name ≠ other) :
    (forms.register name form).find? other = forms.find? other := by
  have passed : (other == name) = false := by simpa using differs.symm
  simp only [register, find?]
  rw [List.lookup_cons, passed]
  exact lookup_filter_of_ne differs forms.entries

/-- What is registered under other names leaves a form in its place. -/
theorem find?_registerAll_of_unnamed {entries : List (String × Form)}
    (unnamed : ∀ entry ∈ entries, entry.1 ≠ name) :
    (forms.registerAll entries).find? name = forms.find? name := by
  induction entries generalizing forms with
  | nil => rfl
  | cons entry rest ih =>
    obtain ⟨first, later⟩ := List.forall_mem_cons.mp unnamed
    exact (ih later).trans (find?_register_of_ne first)

/-- Of the forms that are registered under a name the last one stays. -/
theorem find?_registerAll_of_last (before : List (String × Form)) {after : List (String × Form)}
    (last : ∀ entry ∈ after, entry.1 ≠ name) :
    (forms.registerAll (before ++ (name, form) :: after)).find? name = some form := by
  have split : forms.registerAll (before ++ (name, form) :: after) =
      ((forms.registerAll before).register name form).registerAll after := List.foldl_append
  rw [split, find?_registerAll_of_unnamed last, find?_register_self]

/-- No built-in form looks for the prefix. -/
theorem BuiltIn.unmarked (h : BuiltIn name form) (span : Span) (args : List Operand)
    (request : Request) (viaCore : Bool) :
    form span args { request with viaCore } = form span args request := by
  cases h <;> rfl

theorem BuiltIn.find?_core (h : BuiltIn name form) : core.find? name = some form := by
  cases h <;> rfl

theorem BuiltIn.ne_core (h : BuiltIn name form) : name ≠ "core" := by
  cases h <;> decide

end FormTable

section Lists

variable {name : String} {form : Form} {mark head : Node}

/-- A call of a form is the form itself, at the block of the request. -/
theorem FormTable.outcome_apply {forms : FormTable} (found : forms.find? name = some form)
    (span : Span) (args : List Operand) (request : Request) (unit : CompilationUnit)
    (block : BlockId) :
    (do FormM.position block; forms.apply name span args request : FormM TypedValue).outcome unit =
      (form span args request).outcome (unit.positioned block) := by
  rw [FormM.outcome_bind, FormM.outcome_position, apply, found]
  rfl

/-- The prefix `core` leads to a built-in form if nothing was registered under its name, however
many other forms were. Where its name was taken, it leads to the form that took it last, as the list
without the prefix does, and only the request tells the two apart. -/
theorem Node.core_calls_exact (entries : List (String × Form))
    (builtIn : FormTable.BuiltIn name form)
    (isMark : mark.symbol? = some "core") (isName : head.symbol? = some name) (args : List Node)
    (span : Span) (request : Request) (unit : CompilationUnit) :
    let forms := FormTable.core.registerAll entries
    let operands := args.map (Node.operand forms)
    let start := unit.positioned request.block
    let marked := ((Node.list (mark :: head :: args) span).resolve forms request).outcome unit
    let plain := ((Node.list (head :: args) span).resolve forms request).outcome unit
    ((∀ entry ∈ entries, entry.1 ≠ name) →
      marked = (form span operands request).outcome start ∧ plain = marked) ∧
    ∀ before user after, entries = before ++ (name, user) :: after →
      (∀ entry ∈ after, entry.1 ≠ name) →
      marked = (user span operands { request with viaCore := true }).outcome start ∧
      plain = (user span operands { request with viaCore := false }).outcome start := by
  intro forms operands start marked plain
  have calls {reached : Form} (found : forms.find? name = some reached) :
      marked = (reached span operands { request with viaCore := true }).outcome start ∧
        plain = (reached span operands { request with viaCore := false }).outcome start := by
    refine ⟨?_, ?_⟩
    · rw [← FormTable.outcome_apply found, ← Node.resolve_prefixed forms isMark isName]
    · rw [← FormTable.outcome_apply found, ← Node.resolve_plain forms isName builtIn.ne_core]
  refine ⟨fun unnamed => ?_, fun before user after split last => ?_⟩
  · have found : forms.find? name = some form :=
      (FormTable.find?_registerAll_of_unnamed unnamed).trans builtIn.find?_core
    obtain ⟨hmarked, hplain⟩ := calls found
    rw [builtIn.unmarked] at hmarked hplain
    exact ⟨hmarked, hplain.trans hmarked.symm⟩
  · subst split
    exact calls (FormTable.find?_registerAll_of_last before last)

/-- The name that was taken twice leads to the form that took it last, and a name that was not taken
to the built-in form. -/
theorem Node.retaken_name_called :
    let symbol (text : String) : Node := .atom ⟨.identifier, text, .dummy⟩
    let forms := FormTable.core.registerAll
      [("sizeof", .alignmentOf), ("core", .addressOf), ("sizeof", .offsetOf)]
    let request : Request := { block := ⟨0⟩ }
    let unit : CompilationUnit := .new "m" .i686 0
    let start := unit.positioned ⟨0⟩
    FormTable.BuiltIn "sizeof" .sizeOf ∧ FormTable.BuiltIn "#" .addressOf ∧
    ((Node.list [symbol "core", symbol "sizeof", symbol "int"] .dummy).resolve forms
        request).outcome unit =
      (Form.offsetOf .dummy [(symbol "int").operand forms]
        { request with viaCore := true }).outcome start ∧
    ((Node.list [symbol "core", symbol "#", symbol "int"] .dummy).resolve forms
        request).outcome unit =
      (Form.addressOf .dummy [(symbol "int").operand forms] request).outcome start := by
  intro symbol forms request unit start
  have named (text : String) : (symbol text).symbol? = some text := rfl
  obtain ⟨-, taken⟩ := core_calls_exact
    [("sizeof", .alignmentOf), ("core", .addressOf), ("sizeof", .offsetOf)] .sizeOf
    (named "core") (named "sizeof") [symbol "int"] .dummy request unit
  obtain ⟨free, -⟩ := core_calls_exact
    [("sizeof", .alignmentOf), ("core", .addressOf), ("sizeof", .offsetOf)] .addressOf
    (named "core") (named "#") [symbol "int"] .dummy request unit
  exact ⟨.sizeOf, .addressOf,
    (taken [("sizeof", .alignmentOf), ("core", .addressOf)] .offsetOf [] rfl nofun).1,
    (free (by simp)).1⟩

/-- The size and the alignment of a number of eight bytes differ where words have four. -/
theorem Form.alignmentOf_ne_sizeOf (resolve : Request → FormM TypedValue) :
    let unit := ((CompilationUnit.new "m" .i686 0).enterFunction "f").2.positioned ⟨0⟩
    let operand : Operand := ⟨.atom ⟨.identifier, "double", .dummy⟩, resolve⟩
    (Form.alignmentOf .dummy [operand] { block := ⟨0⟩, viaCore := true }).outcome unit ≠
      (Form.sizeOf .dummy [operand] { block := ⟨0⟩ }).outcome unit := by
  intro unit operand same
  have aligned : ((Form.alignmentOf .dummy [operand]
      { block := ⟨0⟩, viaCore := true }).outcome unit).2.module.value? ⟨0⟩ =
      some ⟨.constant (.int 32 4), .primitive .size, none⟩ := by
    simp only [unit, operand]
    cbv
  have sized : ((Form.sizeOf .dummy [operand] { block := ⟨0⟩ }).outcome unit).2.module.value? ⟨0⟩ =
      some ⟨.constant (.int 32 8), .primitive .size, none⟩ := by
    simp only [unit, operand]
    cbv
  rw [same] at aligned
  cases aligned.symm.trans sized

/-- A form that takes a name keeps it also behind the prefix `core`: where `sizeof` was registered
as the form that yields alignments, `(core sizeof double)` yields one. -/
theorem Node.size_overridden : ¬∀ (entries : List (String × Form)) (name : String) (form : Form)
    (mark head : Node) (args : List Node) (span : Span) (request : Request)
    (unit : CompilationUnit), FormTable.BuiltIn name form → mark.symbol? = some "core" →
    head.symbol? = some name →
    ((Node.list (mark :: head :: args) span).resolve (FormTable.core.registerAll entries)
        request).outcome unit =
      (form span (args.map (Node.operand (FormTable.core.registerAll entries))) request).outcome
        (unit.positioned request.block) := by
  intro claim
  let symbol (text : String) : Node := .atom ⟨.identifier, text, .dummy⟩
  let forms : FormTable := FormTable.core.registerAll [("sizeof", .alignmentOf)]
  have taken : forms.find? "sizeof" = some .alignmentOf :=
    FormTable.find?_registerAll_of_last [] nofun
  have same := claim [("sizeof", .alignmentOf)] "sizeof" .sizeOf (symbol "core") (symbol "sizeof")
    [symbol "double"] .dummy { block := ⟨0⟩ }
    ((CompilationUnit.new "m" .i686 0).enterFunction "f").2 .sizeOf rfl rfl
  rw [Node.resolve_prefixed forms rfl rfl, FormTable.outcome_apply taken] at same
  exact Form.alignmentOf_ne_sizeOf _ same

end Lists

end FormLowering
