import FormLowering.Proofs.Form.Stores
import FormLowering.Proofs.Meaning.Tokens

/-!
The strings that an evaluation stores. The module gains one global for each string token that is
evaluated and accepted, in the order of evaluation, whatever fails later; nothing else makes one.
-/

namespace FormLowering

namespace CompilationUnit

/-- The global that a string is stored as. -/
def stringGlobal (unit : CompilationUnit) (text : String) : Global where
  name := generatedName unit.unusedNumber
  ty := .ofString text
  linkage := .internal
  isConstant := true
  init? := some (.bytes (stringBytes text))
  address := unit.builder.nextValue

def SameGlobals (unit later : CompilationUnit) : Prop :=
  later.module.globals = unit.module.globals

theorem sameGlobals_frame : Frame True SameGlobals fun _ _ _ => True where
  refl _ := rfl
  trans first rest := Eq.trans rest first
  report _ := rfl
  measure _ := rfl
  constant _ := rfl
  position _ := rfl
  load {unit} pointer := by
    obtain ⟨ty, module⟩ := unit.builder.module_load pointer
    exact (congrArg Module.globals module).trans (unit.builder.globals_pushInstruction _ ty)
  store _ {unit} value pointer :=
    (congrArg Module.globals (unit.builder.module_store value pointer)).trans
      (unit.builder.globals_pushInstruction _ _)
  gep {unit} _ _ ty := unit.builder.globals_pushInstruction _ ty

theorem sameGlobals_measured (request : Request) (ty : Ty) (span : Span) (query : LayoutQuery)
    (unit : CompilationUnit) : FormM.Leads SameGlobals unit
      (FormM.measured request ty span fun types target => query.run types target) :=
  sameGlobals_frame.leads_measured request ty span query fun _ _ _ _ => trivial

end CompilationUnit

open CompilationUnit (SameGlobals sameGlobals_frame sameGlobals_measured)

/-! ## Tokens -/

namespace Token

variable {token : Token} {request : Request} {unit : CompilationUnit}

theorem sameGlobals_resolve (other : token.kind ≠ .string) :
    FormM.Leads SameGlobals unit (token.resolve request) :=
  sameGlobals_frame.leads_token token request
    (fun _ => sameGlobals_frame.leads_integer token request fun _ _ => trivial)
    (fun _ => sameGlobals_frame.leads_floating token request fun _ _ _ => trivial)
    (fun _ => sameGlobals_frame.leads_speculate token request fun _ _ _ _ => trivial)
    (fun _ => sameGlobals_frame.leads_identifier token request fun _ _ _ => trivial)
    (fun kind => absurd kind other)

/-- A string is no member of an enum, and the attempt at one leaves nothing. -/
theorem outcome_speculate_string (kind : token.kind = .string) :
    (token.speculate request).outcome unit = (.ok none, unit) := by
  rcases ended : (token.speculate request).outcome unit with ⟨error | found, later⟩
  · exact absurd ended (token.speculate_answers request unit)
  · obtain ⟨rfl, rfl⟩ := token.of_speculate_string ended kind
    rfl

theorem outcome_resolve_string (kind : token.kind = .string) :
    (token.resolve request).outcome unit =
      (token.string request).outcome (unit.positioned request.block) := by
  unfold Token.resolve
  rw [kind, FormM.outcome_bind, FormM.outcome_position]
  dsimp only
  rw [FormM.outcome_bind, outcome_speculate_string kind]
  rfl

/-- A string that is accepted is stored as one global, and one that is refused is not. -/
theorem globals_string (kind : token.kind = .string) (request : Request) (unit : CompilationUnit) :
    (∃ result later, (token.resolve request).outcome unit = (.ok result, later) ∧
      later.module.globals.toList =
        unit.module.globals.toList ++ [unit.stringGlobal token.text]) ∨
    ∃ error later, (token.resolve request).outcome unit = (.error error, later) ∧
      unit.SameGlobals later := by
  rw [outcome_resolve_string kind, Token.string_eq]
  split
  · exact .inr ⟨_, _, rfl, rfl⟩
  · obtain ⟨added, accepted, stored⟩ := FormM.outcome_storeString token.text token.span
      (unit.positioned request.block)
    have address : added.2.1 = unit.builder.nextValue := by
      rw [Builder.addGlobal?_eq_some _ accepted]
      rfl
    have grown := Builder.globals_addGlobal? _ accepted
    rw [address] at grown
    refine .inl ?_
    unfold Token.storedString
    rw [FormM.outcome_bind, stored]
    dsimp only
    rw [FormM.outcome_bind, FormM.outcome_build]
    refine ⟨_, _, rfl, ?_⟩
    change ((added.2.2.gep _ _ _).2.module.globals).toList = _
    rw [show (added.2.2.gep added.2.1 [0, 0] (.constPointerTo .char)).2.module.globals =
      added.2.2.module.globals from added.2.2.globals_pushInstruction _ _]
    exact grown

end Token

/-! ## The strings of a task -/

namespace Task

/-- The task is a string token that is accepted, and the global stores its string. -/
inductive Stores : Task → Global → Prop
  | string {token : Token} {request : Request} {unit later : CompilationUnit}
      {result : TypedValue} : token.kind = .string →
      (token.resolve request).outcome unit = (.ok result, later) →
      Stores ⟨.atom token, request, unit⟩ (unit.stringGlobal token.text)

/-- A list is no string, so what stores one below it is one of its parts or below one. -/
theorem Stores.reached {items : List Node} {span : Span} {request : Request}
    {unit : CompilationUnit} {part : Task} {g : Global} (stores : part.Stores g) :
    Relation.ReflTransGen Asks ⟨.list items span, request, unit⟩ part ↔
      ∃ child, Asks ⟨.list items span, request, unit⟩ child ∧
        Relation.ReflTransGen Asks child part := by
  rw [Relation.ReflTransGen.cases_head_iff]
  constructor
  · rintro (rfl | ⟨child, asks, path⟩)
    · cases stores
    · exact ⟨child, asks, path⟩
  · exact .inr

theorem reached_of_atom {token : Token} {request : Request} {unit : CompilationUnit} {part : Task} :
    Relation.ReflTransGen Asks ⟨.atom token, request, unit⟩ part ↔
      part = ⟨.atom token, request, unit⟩ := by
  rw [Relation.ReflTransGen.cases_head_iff]
  constructor
  · rintro (rfl | ⟨child, asks, -⟩)
    · rfl
    · cases asks
  · exact fun same => .inl same.symm

section Calls

variable {items : List Node} {span : Span} {request : Request} {unit : CompilationUnit}
  {part : Task}

theorem asks_field {base field : Node} (calls : Node.Calls items ":" [base, field]) :
    Asks ⟨.list items span, request, unit⟩ part ↔
      (∃ name, field.fieldName = .ok name) ∧ part = ⟨base, request.nested true, unit⟩ := by
  constructor
  · intro asks
    cases asks with
    | field other hname =>
      cases (calls.unique other).2
      exact ⟨⟨_, hname⟩, rfl⟩
    | assign other | addressOf other | dereference other =>
      exact absurd (calls.unique other).1 (by decide)
  · rintro ⟨⟨name, hname⟩, rfl⟩
    exact .field calls hname

theorem asks_assign {target value : Node} (calls : Node.Calls items "setf" [target, value]) :
    Asks ⟨.list items span, request, unit⟩ part ↔
      OfAssignment target value request unit part := by
  constructor
  · intro asks
    cases asks with
    | assign other asked =>
      cases (calls.unique other).2
      exact asked
    | field other | addressOf other | dereference other =>
      exact absurd (calls.unique other).1 (by decide)
  · exact .assign calls

theorem asks_addressOf {operand : Node} (calls : Node.Calls items "#" [operand]) :
    Asks ⟨.list items span, request, unit⟩ part ↔
      request.address = false ∧ part = ⟨operand, request.nested false, unit⟩ := by
  constructor
  · intro asks
    cases asks with
    | addressOf other mode =>
      cases (calls.unique other).2
      exact ⟨mode, rfl⟩
    | field other | assign other | dereference other =>
      exact absurd (calls.unique other).1 (by decide)
  · rintro ⟨mode, rfl⟩
    exact .addressOf calls mode

theorem asks_dereference {operand : Node} (calls : Node.Calls items "@" [operand]) :
    Asks ⟨.list items span, request, unit⟩ part ↔
      part = ⟨operand, request.nested false, unit⟩ := by
  constructor
  · intro asks
    cases asks with
    | dereference other =>
      cases (calls.unique other).2
      rfl
    | field other | assign other | addressOf other =>
      exact absurd (calls.unique other).1 (by decide)
  · rintro rfl
    exact .dereference calls

end Calls
end Task

namespace CompilationUnit

/-- The strings are those of the asked tasks that store one, in the order of the globals that the
later unit has in addition. -/
structure Lists (unit later : CompilationUnit) (asked : Task → Prop) (strings : List Task)
    (added : List Global) : Prop where
  globals : later.module.globals.toList = unit.module.globals.toList ++ added
  stores : List.Forall₂ Task.Stores strings added
  /-- Each string was evaluated when the ones before it, and no others, had been stored. -/
  positions : strings.map (·.unit.module.globals.size) =
    List.range' unit.module.globals.size strings.length
  complete : ∀ part, part ∈ strings ↔ asked part ∧ ∃ g, part.Stores g

namespace Lists

variable {unit mid later : CompilationUnit} {asked asked' : Task → Prop}
  {strings strings' : List Task} {added added' : List Global}

theorem nil (same : unit.SameGlobals later) (none : ∀ part g, asked part → ¬part.Stores g) :
    unit.Lists later asked [] [] where
  globals := by
    rw [show later.module.globals = unit.module.globals from same, List.append_nil]
  stores := .nil
  positions := rfl
  complete part := by
    simp only [List.not_mem_nil, false_iff, not_and, not_exists]
    exact fun asked g => none part g asked

theorem congr (h : unit.Lists later asked strings added)
    (same : ∀ part g, part.Stores g → (asked part ↔ asked' part)) :
    unit.Lists later asked' strings added where
  globals := h.globals
  stores := h.stores
  positions := h.positions
  complete part := by
    rw [h.complete]
    constructor
    · exact fun ⟨asked, g, stores⟩ => ⟨(same part g stores).mp asked, g, stores⟩
    · exact fun ⟨asked, g, stores⟩ => ⟨(same part g stores).mpr asked, g, stores⟩

theorem trans (first : unit.Lists mid asked strings added)
    (rest : mid.Lists later asked' strings' added') :
    unit.Lists later (fun part => asked part ∨ asked' part) (strings ++ strings')
      (added ++ added') where
  globals := by rw [rest.globals, first.globals, List.append_assoc]
  stores := List.rel_append first.stores rest.stores
  positions := by
    have size : mid.module.globals.size = unit.module.globals.size + strings.length := by
      rw [first.stores.length_eq, ← Array.length_toList, first.globals, List.length_append,
        Array.length_toList]
    rw [List.map_append, first.positions, rest.positions, size, List.length_append,
      List.range'_append_1]
  complete part := by
    rw [List.mem_append, first.complete, rest.complete, or_and_right]

theorem nodup (h : unit.Lists later asked strings added) : strings.Nodup := by
  refine List.Nodup.of_map (·.unit.module.globals.size) ?_
  rw [h.positions]
  exact List.nodup_range'

end Lists
end CompilationUnit

namespace FormM

variable {α β : Type}

/-- The globals that the operation adds are the strings of the asked tasks. -/
def Lists (unit : CompilationUnit) (action : FormM α) (asked : Task → Prop) : Prop :=
  ∃ strings added, unit.Lists (action.outcome unit).2 asked strings added

namespace Lists

variable {unit : CompilationUnit} {asked : Task → Prop}

theorem of_same {action : FormM α} (same : Leads SameGlobals unit action)
    (none : ∀ part g, asked part → ¬part.Stores g) : Lists unit action asked :=
  ⟨[], [], .nil same none⟩

theorem congr {action : FormM α} {asked' : Task → Prop} (h : Lists unit action asked)
    (same : ∀ part g, part.Stores g → (asked part ↔ asked' part)) : Lists unit action asked' := by
  obtain ⟨strings, added, lists⟩ := h
  exact ⟨strings, added, lists.congr same⟩

theorem bind {action : FormM α} {next : α → FormM β} (first : Lists unit action asked)
    (asked' : α → CompilationUnit → Task → Prop)
    (rest : ∀ a later, action.outcome unit = (.ok a, later) →
      Lists later (next a) (asked' a later)) :
    Lists unit (action >>= next) fun part =>
      asked part ∨ ∃ a later, action.outcome unit = (.ok a, later) ∧ asked' a later part := by
  simp only [Lists] at first ⊢
  rw [outcome_bind]
  obtain ⟨strings, added, lists⟩ := first
  rcases ended : action.outcome unit with ⟨error | a, later⟩
  · rw [ended] at lists
    refine ⟨strings, added, lists.congr fun part _ _ => ?_⟩
    simp
  · rw [ended] at lists
    obtain ⟨strings', added', lists'⟩ := rest a later ended
    refine ⟨_, _, (lists.trans lists').congr fun part _ _ => ?_⟩
    simp

/-- What comes after may do anything but store a string. -/
theorem bind_same {action : FormM α} {next : α → FormM β} (first : Lists unit action asked)
    (rest : ∀ a later, action.outcome unit = (.ok a, later) → Leads SameGlobals later (next a)) :
    Lists unit (action >>= next) asked := by
  refine (first.bind (fun _ _ _ => False) fun a later ended =>
    of_same (rest a later ended) fun _ _ => False.elim).congr fun part _ _ => ?_
  simp

theorem bind_check {answer : Except FormError β} {next : β → FormM α}
    (rest : ∀ b, answer = .ok b → Lists unit (next b) asked) :
    Lists unit (FormM.check answer >>= next) fun part =>
      (∃ b, answer = .ok b) ∧ asked part := by
  cases answer with
  | error error => exact of_same rfl fun part _ asked => by simp at asked
  | ok b => exact (rest b rfl).congr fun part _ _ => by simp

end Lists
end FormM

open FormM (Lists)

/-- Wherever the node is evaluated, it adds the globals of the strings that it comes to. -/
def Node.Listed (node : Node) : Prop :=
  ∀ request unit, Lists unit (node.resolve .core request)
    (Relation.ReflTransGen Task.Asks ⟨node, request, unit⟩)

theorem Node.listed_atom (token : Token) : (Node.atom token).Listed := by
  intro request unit
  change Lists unit (token.resolve request) _
  by_cases kind : token.kind = .string
  · rcases token.globals_string kind request unit with
      ⟨result, later, ended, grown⟩ | ⟨error, later, ended, same⟩
    · have stores : Task.Stores ⟨.atom token, request, unit⟩ (unit.stringGlobal token.text) :=
        .string kind ended
      refine ⟨[_], [_], ?_, .cons stores .nil, rfl, fun part => ?_⟩
      · rw [ended]
        exact grown
      · rw [List.mem_singleton, Task.reached_of_atom]
        exact ⟨fun same => ⟨same, same ▸ ⟨_, stores⟩⟩, And.left⟩
    · refine .of_same (by rw [FormM.Leads, ended]; exact same) fun part g reached => ?_
      cases Task.reached_of_atom.mp reached
      rintro ⟨-, accepted⟩
      cases ended.symm.trans accepted
  · refine .of_same (Token.sameGlobals_resolve kind) fun part g reached => ?_
    cases Task.reached_of_atom.mp reached
    rintro ⟨string, -⟩
    exact kind string

section Forms

/-- It makes no difference whether the insertion point is moved before. -/
theorem Node.Listed.positioned {node : Node} (h : node.Listed) (request : Request)
    (unit : CompilationUnit) :
    Lists (unit.positioned request.block) (node.resolve .core request)
      (Relation.ReflTransGen Task.Asks ⟨node, request, unit⟩) := by
  obtain ⟨strings, added, lists⟩ := h request unit
  refine ⟨strings, added, ?_⟩
  rw [← node.outcome_resolve]
  exact ⟨lists.globals, lists.stores, lists.positions, lists.complete⟩

variable {items : List Node} {span : Span}

/-- A call is given to the built-in table, at the block of the request. -/
theorem Node.Calls.resolve_eq {name : String} {args : List Node}
    (calls : Node.Calls items name args) (span : Span) (request : Request) :
    ∃ viaCore, (Node.list items span).resolve .core request = (do
      FormM.position request.block
      FormTable.core.apply name span (args.map (Node.operand .core))
        { request with viaCore }) := by
  cases calls with
  | plain symbol other => exact ⟨false, Node.resolve_plain .core symbol other _ span request⟩
  | prefixed core symbol => exact ⟨true, Node.resolve_prefixed .core core symbol _ span request⟩

/-- What the form of a call adds is what the call adds. -/
theorem Node.Calls.lists {name : String} {args : List Node} (calls : Node.Calls items name args)
    {request : Request} {unit : CompilationUnit} {asked : Task → Prop}
    (form : ∀ viaCore, Lists (unit.positioned request.block)
      (FormTable.core.apply name span (args.map (Node.operand .core)) { request with viaCore })
      asked) :
    Lists unit ((Node.list items span).resolve .core request) asked := by
  obtain ⟨viaCore, same⟩ := calls.resolve_eq span request
  obtain ⟨strings, added, lists⟩ := form viaCore
  rw [same]
  exact ⟨strings, added, lists.globals, lists.stores, lists.positions, lists.complete⟩

theorem Node.Listed.field {base field : Node} (calls : Node.Calls items ":" [base, field])
    (listed : base.Listed) : (Node.list items span).Listed := by
  intro request unit
  refine calls.lists fun viaCore => ?_
  change Lists _ (FormM.resolveField (base.operand .core) (field.operand .core) _) _
  rw [FormM.resolveField_eq]
  refine (FormM.Lists.bind_check fun name _ => .bind_same
    (listed.positioned (request.nested true) unit) fun place later _ => ?_).congr ?_
  · refine sameGlobals_frame.leads_bind (sameGlobals_frame.leads_position _) fun _ _ _ => ?_
    split
    · exact sameGlobals_frame.leads_fail _ _
    · exact sameGlobals_frame.leads_bind (sameGlobals_frame.leads_follow _ _) fun _ _ _ =>
        sameGlobals_frame.leads_fieldAt _ _ _ _ _ _
  · intro part g stores
    rw [stores.reached]
    simp only [Task.asks_field calls]
    constructor
    · exact fun ⟨hname, path⟩ => ⟨_, ⟨hname, rfl⟩, path⟩
    · rintro ⟨_, ⟨hname, rfl⟩, path⟩
      exact ⟨hname, path⟩

theorem Node.Listed.assign {target value : Node} (calls : Node.Calls items "setf" [target, value])
    (targets : target.Listed) (values : value.Listed) : (Node.list items span).Listed := by
  intro request unit
  refine calls.lists fun viaCore => ?_
  change Lists _ (FormM.assign (target.operand .core) (value.operand .core) _) _
  rw [FormM.assign_eq]
  have located := target.outcome_resolve .core (request.nested true) unit
  refine ((targets.positioned (request.nested true) unit).bind
    (fun place later part => ∃ stored, place.ty = .pointerTo stored ∧
      Relation.ReflTransGen Task.Asks ⟨value, request.nested false (some stored), later⟩ part)
    fun place later _ => ?_).congr ?_
  · split
    · rename_i stored pointer
      refine (FormM.Lists.bind_same (values (request.nested false (some stored)) later)
        fun source last _ => ?_).congr fun part _ _ => ?_
      · split
        · exact sameGlobals_frame.leads_storeAt trivial _ _ _ _
        · exact sameGlobals_frame.leads_fail _ _
      · constructor
        · exact fun path => ⟨stored, pointer, path⟩
        · rintro ⟨_, same, path⟩
          cases pointer.symm.trans same
          exact path
    · rename_i other
      refine .of_same (sameGlobals_frame.leads_fail _ _) ?_
      rintro _ _ ⟨stored, pointer, -⟩
      exact absurd pointer (other stored)
  · intro part g stores
    rw [stores.reached]
    simp only [Task.asks_assign calls]
    constructor
    · rintro (path | ⟨place, later, ended, stored, pointer, path⟩)
      · exact ⟨_, .target, path⟩
      · exact ⟨_, .value (located.trans ended) pointer, path⟩
    · rintro ⟨_, asked, path⟩
      cases asked with
      | target => exact .inl path
      | value ended pointer => exact .inr ⟨_, _, located.symm.trans ended, _, pointer, path⟩

theorem Node.Listed.addressOf {operand : Node} (calls : Node.Calls items "#" [operand])
    (listed : operand.Listed) : (Node.list items span).Listed := by
  intro request unit
  refine calls.lists fun viaCore => ?_
  change Lists _ (Form.addressOf span [operand.operand .core] _) _
  unfold Form.addressOf
  dsimp only
  split
  · rename_i mode
    refine .of_same (sameGlobals_frame.leads_fail _ _) fun part g path stores => ?_
    obtain ⟨child, asks, -⟩ := stores.reached.mp path
    cases mode.symm.trans ((Task.asks_addressOf calls).mp asks).1
  · rename_i mode
    refine (FormM.Lists.bind_same (listed.positioned (request.nested false) unit)
      fun inner later _ => ?_).congr fun part g stores => ?_
    · split
      · exact sameGlobals_frame.leads_pure _
      · exact sameGlobals_frame.leads_fail _ _
    · rw [stores.reached]
      simp only [Task.asks_addressOf calls]
      constructor
      · exact fun path => ⟨_, ⟨by simpa using mode, rfl⟩, path⟩
      · rintro ⟨_, ⟨-, rfl⟩, path⟩
        exact path

theorem Node.Listed.dereference {operand : Node} (calls : Node.Calls items "@" [operand])
    (listed : operand.Listed) : (Node.list items span).Listed := by
  intro request unit
  refine calls.lists fun viaCore => ?_
  change Lists _ (Form.dereference span [operand.operand .core] _) _
  refine (FormM.Lists.bind_same (listed.positioned (request.nested false) unit)
    fun inner later _ => ?_).congr fun part g stores => ?_
  · split
    · exact sameGlobals_frame.leads_fail _ _
    · split
      · exact sameGlobals_frame.leads_pure _
      · exact sameGlobals_frame.leads_bind (sameGlobals_frame.leads_position _) fun _ _ _ =>
          sameGlobals_frame.leads_access _ _ _
  · rw [stores.reached]
    simp only [Task.asks_dereference calls]
    exact ⟨fun path => ⟨_, rfl, path⟩, fun ⟨_, same, path⟩ => same ▸ path⟩

end Forms

/-- What calls none of the forms that evaluate their arguments stores nothing. -/
theorem Node.sameGlobals_resolve {items : List Node} {span : Span} {request : Request}
    {unit : CompilationUnit} (field : ¬∃ base field, Node.Calls items ":" [base, field])
    (assign : ¬∃ target value, Node.Calls items "setf" [target, value])
    (addressOf : ¬∃ operand, Node.Calls items "#" [operand])
    (dereference : ¬∃ operand, Node.Calls items "@" [operand]) :
    FormM.Leads SameGlobals unit ((Node.list items span).resolve .core request) := by
  rw [Node.resolve, Node.operands_eq_map]
  refine sameGlobals_frame.leads_bind (sameGlobals_frame.leads_position _) fun _ later _ => ?_
  rcases FormTable.dispatch_core span items request with
    ⟨fault, same⟩ | ⟨name, args, viaCore, calls, application⟩
  · rw [same]
    exact sameGlobals_frame.leads_fail _ _
  · revert application
    generalize FormTable.core.dispatch span (items.map (Node.operand .core)) request = action
    intro application
    cases application with
    | refused fault => exact sameGlobals_frame.leads_fail _ _
    | field base name => exact absurd ⟨base, name, calls⟩ field
    | assign target value => exact absurd ⟨target, value, calls⟩ assign
    | addressOf operand => exact absurd ⟨operand, calls⟩ addressOf
    | dereference operand => exact absurd ⟨operand, calls⟩ dereference
    | alignmentOf =>
      exact sameGlobals_frame.leads_measuring sameGlobals_measured span .alignment
    | sizeOf => exact sameGlobals_frame.leads_measuring sameGlobals_measured span .size
    | offsetOf => exact sameGlobals_frame.leads_offsetOf sameGlobals_measured span

/-- The globals that an evaluation adds are those of the strings that it comes to. -/
theorem Node.listed (node : Node) : node.Listed := by
  refine @Node.rec Node.Listed (fun nodes => ∀ item ∈ nodes, item.Listed) ?_ ?_ ?_ ?_ node
  · exact Node.listed_atom
  · intro items span ih
    by_cases field : ∃ base field, Node.Calls items ":" [base, field]
    · obtain ⟨base, field, calls⟩ := field
      exact .field calls (ih base (calls.subset (by simp)))
    by_cases assign : ∃ target value, Node.Calls items "setf" [target, value]
    · obtain ⟨target, value, calls⟩ := assign
      exact .assign calls (ih target (calls.subset (by simp))) (ih value (calls.subset (by simp)))
    by_cases addressOf : ∃ operand, Node.Calls items "#" [operand]
    · obtain ⟨operand, calls⟩ := addressOf
      exact .addressOf calls (ih operand (calls.subset (by simp)))
    by_cases dereference : ∃ operand, Node.Calls items "@" [operand]
    · obtain ⟨operand, calls⟩ := dereference
      exact .dereference calls (ih operand (calls.subset (by simp)))
    intro request unit
    refine .of_same (Node.sameGlobals_resolve field assign addressOf dereference) ?_
    -- no argument is evaluated, so no string is asked
    intro part g path stores
    obtain ⟨child, asks, -⟩ := stores.reached.mp path
    cases asks with
    | field calls => exact field ⟨_, _, calls⟩
    | assign calls => exact assign ⟨_, _, calls⟩
    | addressOf calls => exact addressOf ⟨_, calls⟩
    | dereference calls => exact dereference ⟨_, calls⟩
  · intro item mem
    cases mem
  · intro head tail first rest item mem
    rcases List.mem_cons.mp mem with rfl | mem
    · exact first
    · exact rest item mem

end FormLowering
