import FormLowering.Form.Resolve

/-!
The built-in table. A list is refused or is one of seven forms applied to some of its items, so a
property of evaluations is shown for tokens and then once for each form.
-/

namespace FormLowering

/-- The record that a base leads to, and its address: a pointer at the base is read once. -/
def FormM.follow (place : TypedValue) (outer : Ty) : FormM (ValueId × Ty) :=
  match outer.pointee? with
  | some inner => do return (← build (·.load place.value), inner)
  | none => return (place.value, outer)

/-- The field of a name in the record at an address. -/
def FormM.fieldAt (address : ValueId) (record : Ty) (name : String) (base field : Span)
    (request : Request) : FormM TypedValue := do
  let found ← check ((← get).types.fieldIn record name base field)
  access (← build (·.gep address [0, found.1] (.pointerTo found.2))) found.2 request

/-- A field reference reads a name, locates its base, follows it and takes the field. -/
theorem FormM.resolveField_eq (base field : Operand) (request : Request) :
    FormM.resolveField base field request = (do
      let name ← check field.node.fieldName
      let place ← base.resolve (request.nested true)
      position request.block
      match place.ty.pointee? with
      | none => fail (.notAStruct place.ty) base.node.span
      | some outer =>
        let record ← follow place outer
        fieldAt record.1 record.2 name base.node.span field.node.span request) := by
  simp only [FormM.resolveField]
  congr 1
  funext name
  congr 1
  funext place
  congr 1
  funext _
  cases place.ty.pointee? with
  | none => rfl
  | some outer =>
    unfold follow fieldAt
    dsimp only
    cases outer.pointee? with
    | none => simp only [pure_bind]
    | some inner => simp only [bind_assoc, pure_bind]

/-- The store of an assignment, and its answer. -/
def FormM.storeAt (source place : TypedValue) (stored : Ty) (request : Request) :
    FormM TypedValue := do
  position request.block
  let _ ← build (·.store source.value place.value)
  let block := request.block
  let ty := Ty.pointerTo stored
  if request.address then return { block, value := place.value, ty }
  else return { block, value := source.value, ty := stored, place? := some ⟨place.value, ty⟩ }

/-- An assignment locates its target, reads its value and stores. -/
theorem FormM.assign_eq (first second : Operand) (request : Request) :
    FormM.assign first second request = (do
      let place ← first.resolve (request.nested true)
      match place.ty with
      | .pointer stored false =>
        let source ← second.resolve (request.nested false (some stored))
        if source.ty.isAssignable stored then storeAt source place stored request
        else fail (.typeMismatch stored source.ty) second.node.span
      | _ => fail .notAddressable first.node.span) := rfl

/-- What the built-in table makes of a name and arguments: a refusal, or the form of that name with
the right number of arguments. -/
inductive Application (span : Span) (request : Request) : String → List Node → FormM TypedValue → Prop
  | refused {name : String} {args : List Node} (fault : FormFault) :
      Application span request name args (FormM.fail fault span)
  | field (base field : Node) : Application span request ":" [base, field]
      (FormM.resolveField (base.operand .core) (field.operand .core) request)
  | assign (target value : Node) : Application span request "setf" [target, value]
      (FormM.assign (target.operand .core) (value.operand .core) request)
  | addressOf (operand : Node) : Application span request "#" [operand]
      (Form.addressOf span [operand.operand .core] request)
  | dereference (operand : Node) : Application span request "@" [operand]
      (Form.dereference span [operand.operand .core] request)
  | alignmentOf (operand : Node) : Application span request "alignmentof" [operand]
      (Form.alignmentOf span [operand.operand .core] request)
  | sizeOf (operand : Node) : Application span request "sizeof" [operand]
      (Form.sizeOf span [operand.operand .core] request)
  | offsetOf (struct field : Node) : Application span request "offsetof" [struct, field]
      (Form.offsetOf span [struct.operand .core, field.operand .core] request)

/-! ## Numbers of arguments -/

/-- The form refuses any other number of arguments. -/
def Form.Takes (n : Nat) (form : Form) : Prop :=
  ∀ (span : Span) (args : List Operand) (request : Request), args.length ≠ n →
    form span args request = FormM.check (.error (.arity n args.length span))

namespace Form

theorem takes_field : Takes 2 field := by
  intro span args request h
  unfold field
  split <;> simp_all

theorem takes_assign : Takes 2 assign := by
  intro span args request h
  unfold assign
  split <;> simp_all

theorem takes_addressOf : Takes 1 addressOf := by
  intro span args request h
  unfold addressOf
  split <;> simp_all

theorem takes_dereference : Takes 1 dereference := by
  intro span args request h
  unfold dereference
  split <;> simp_all

theorem takes_measuring (query : Registry → Target → Ty → LayoutM Nat) :
    Takes 1 (measuring query) := by
  intro span args request h
  unfold measuring
  split <;> simp_all

theorem takes_offsetOf : Takes 2 offsetOf := by
  intro span args request h
  unfold offsetOf
  split <;> simp_all

end Form

section Arguments

variable {span : Span} {request : Request} {name : String} {args : List Node} {form : Form}

theorem Application.of_one (takes : form.Takes 1)
    (one : ∀ a, Application span request name [a] (form span [a.operand .core] request)) :
    Application span request name args (form span (args.map (Node.operand .core)) request) := by
  by_cases h : args.length = 1
  · obtain ⟨a, rfl⟩ := List.length_eq_one_iff.mp h
    exact one a
  · rw [takes _ _ _ (by simpa using h)]
    exact .refused _

theorem Application.of_two (takes : form.Takes 2)
    (two : ∀ a b, Application span request name [a, b]
      (form span [a.operand .core, b.operand .core] request)) :
    Application span request name args (form span (args.map (Node.operand .core)) request) := by
  by_cases h : args.length = 2
  · match args, h with
    | [a, b], _ => exact two a b
  · rw [takes _ _ _ (by simpa using h)]
    exact .refused _

end Arguments

/-- The list has the name of a form and then its arguments, maybe after `core`. -/
inductive Node.Calls : List Node → String → List Node → Prop
  | plain {head : Node} {args : List Node} {name : String} : head.symbol? = some name →
      name ≠ "core" → Calls (head :: args) name args
  | prefixed {head second : Node} {args : List Node} {name : String} : head.symbol? = some "core" →
      second.symbol? = some name → Calls (head :: second :: args) name args

theorem Node.Calls.subset {items args : List Node} {name : String} (h : Calls items name args) :
    args ⊆ items := by
  cases h with
  | plain => simp
  | prefixed =>
    intro item mem
    simp [mem]

theorem Node.Calls.unique {items args others : List Node} {name other : String}
    (h : Calls items name args) (h' : Calls items other others) : name = other ∧ args = others := by
  cases h with
  | plain head core =>
    cases h' with
    | plain head' => exact ⟨Option.some.inj (head.symm.trans head'), rfl⟩
    | prefixed head' => exact absurd (Option.some.inj (head.symm.trans head')) core
  | prefixed head second =>
    cases h' with
    | plain head' core => exact absurd (Option.some.inj (head'.symm.trans head)) core
    | prefixed _ second' => exact ⟨Option.some.inj (second.symm.trans second'), rfl⟩

/-- A list without the prefix is given to the form of its first symbol. -/
theorem Node.resolve_plain (forms : FormTable) {head : Node} {name : String}
    (symbol : head.symbol? = some name) (other : name ≠ "core") (args : List Node) (span : Span)
    (request : Request) :
    (Node.list (head :: args) span).resolve forms request = (do
      FormM.position request.block
      forms.apply name span (args.map (Node.operand forms))
        { request with viaCore := false }) := by
  rw [Node.resolve, Node.operands_eq_map]
  simp only [FormTable.dispatch, List.map_cons, Node.operand, symbol]
  congr 1
  funext _
  split
  · rename_i named
    cases named
  · rename_i named _
    cases named
    exact absurd rfl other
  · rename_i named _
    cases named
    exact absurd rfl other
  · rename_i named _ _
    cases named
    rfl

/-- A list with the prefix is given to the form of its second symbol in the same table. -/
theorem Node.resolve_prefixed (forms : FormTable) {head second : Node} {name : String}
    (core : head.symbol? = some "core") (symbol : second.symbol? = some name) (args : List Node)
    (span : Span) (request : Request) :
    (Node.list (head :: second :: args) span).resolve forms request = (do
      FormM.position request.block
      forms.apply name span (args.map (Node.operand forms))
        { request with viaCore := true }) := by
  rw [Node.resolve, Node.operands_eq_map]
  simp only [FormTable.dispatch, List.map_cons, Node.operand, core, symbol]

namespace FormTable

/-- The built-in forms, each with its name. -/
inductive BuiltIn : String → Form → Prop
  | field : BuiltIn ":" .field
  | assign : BuiltIn "setf" .assign
  | addressOf : BuiltIn "#" .addressOf
  | dereference : BuiltIn "@" .dereference
  | alignmentOf : BuiltIn "alignmentof" .alignmentOf
  | sizeOf : BuiltIn "sizeof" .sizeOf
  | offsetOf : BuiltIn "offsetof" .offsetOf

theorem builtIn_of_find? {name : String} {form : Form} (found : core.find? name = some form) :
    BuiltIn name form := by
  obtain ⟨before, after, split, -⟩ := List.lookup_eq_some_iff.mp found
  have mem : (name, form) ∈ core.entries := by rw [split]; simp
  simp only [core, List.mem_cons, Prod.mk.injEq, List.not_mem_nil, or_false] at mem
  rcases mem with ⟨rfl, rfl⟩ | ⟨rfl, rfl⟩ | ⟨rfl, rfl⟩ | ⟨rfl, rfl⟩ | ⟨rfl, rfl⟩ | ⟨rfl, rfl⟩ |
    ⟨rfl, rfl⟩
  · exact .field
  · exact .assign
  · exact .addressOf
  · exact .dereference
  · exact .alignmentOf
  · exact .sizeOf
  · exact .offsetOf

theorem apply_core (name : String) (span : Span) (args : List Node) (request : Request) :
    Application span request name args
      (core.apply name span (args.map (Node.operand .core)) request) := by
  simp only [apply]
  cases found : core.find? name with
  | none => exact .refused _
  | some form =>
    cases builtIn_of_find? found with
    | field => exact .of_two Form.takes_field .field
    | assign => exact .of_two Form.takes_assign .assign
    | addressOf => exact .of_one Form.takes_addressOf .addressOf
    | dereference => exact .of_one Form.takes_dereference .dereference
    | alignmentOf => exact .of_one (Form.takes_measuring _) .alignmentOf
    | sizeOf => exact .of_one (Form.takes_measuring _) .sizeOf
    | offsetOf => exact .of_two Form.takes_offsetOf .offsetOf

/-- A list is refused, or it calls a form. -/
theorem dispatch_core (span : Span) (items : List Node) (request : Request) :
    (∃ fault, core.dispatch span (items.map (Node.operand .core)) request = FormM.fail fault span) ∨
      ∃ name args viaCore, Node.Calls items name args ∧
        Application span { request with viaCore } name args
          (core.dispatch span (items.map (Node.operand .core)) request) := by
  simp only [dispatch]
  split
  · exact .inl ⟨_, rfl⟩
  · rename_i head args hitems
    obtain ⟨first, rest, rfl, rfl, rfl⟩ := List.map_eq_cons_iff.mp hitems
    split
    · exact .inl ⟨_, rfl⟩
    · exact .inl ⟨_, rfl⟩
    · rename_i second others hcore hrest
      obtain ⟨next, args, rfl, rfl, rfl⟩ := List.map_eq_cons_iff.mp hrest
      split
      · rename_i name hname
        exact .inr ⟨name, args, true, .prefixed hcore hname, apply_core name span args _⟩
      · exact .inl ⟨_, rfl⟩
    · rename_i name hname alone more
      refine .inr ⟨name, rest, false, .plain hname ?_, apply_core name span rest _⟩
      rintro rfl
      cases rest with
      | nil => exact alone rfl rfl
      | cons second args => exact more _ _ rfl rfl

end FormTable

/-- A property of evaluations holds of all nodes if it holds of tokens and refusals, and goes from
the arguments of a call to whatever the built-in table makes of them. -/
theorem Node.core_induction {P : Node → Request → FormM TypedValue → Prop}
    (atom : ∀ token request, P (.atom token) request (Token.resolve token request))
    (refused : ∀ items span request fault,
      P (.list items span) request (do FormM.position request.block; FormM.fail fault span))
    (call : ∀ items span request name args viaCore action, Node.Calls items name args →
      Application span { request with viaCore } name args action →
      (∀ arg ∈ args, ∀ request, P arg request (arg.resolve .core request)) →
      P (.list items span) request (do FormM.position request.block; action))
    (node : Node) : ∀ request, P node request (node.resolve .core request) := by
  refine @Node.rec (fun node => ∀ request, P node request (node.resolve .core request))
    (fun nodes => ∀ item ∈ nodes, ∀ request, P item request (item.resolve .core request))
    ?_ ?_ ?_ ?_ node
  · exact atom
  · intro items span ih request
    rw [Node.resolve, Node.operands_eq_map]
    rcases FormTable.dispatch_core span items request with
      ⟨fault, same⟩ | ⟨name, args, viaCore, calls, application⟩
    · rw [same]
      exact refused items span request fault
    · exact call items span request name args viaCore _ calls application fun arg mem =>
        ih arg (calls.subset mem)
  · intro item hi
    cases hi
  · intro head tail hhead htail item hi
    rcases List.mem_cons.mp hi with rfl | later
    · exact hhead
    · exact htail item later

end FormLowering
