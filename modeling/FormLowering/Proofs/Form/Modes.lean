import FormLowering.Proofs.Form.Strings

/-!
Value mode and address mode. A form asks for its parts in the same way in both, and only its last
step looks at the mode: the place of an answer is the address that the other mode answers with, and
value mode goes on to read it.
-/

namespace FormLowering

/-- The request in value mode or in address mode. -/
def Request.mode (request : Request) (address : Bool) : Request := { request with address }

/-- The unit after at most one more instruction in a block, which reads at a place: it loads what
is stored there, or takes the address of the first element of an array. -/
inductive CompilationUnit.Reads (block : BlockId) (place : ValueId) (unit : CompilationUnit) :
    CompilationUnit → Prop
  | nothing : Reads block place unit unit
  | load : Reads block place unit
      { unit with builder := ((unit.builder.position block).load place).2 }
  | element (ty : Ty) : Reads block place unit
      { unit with builder := ((unit.builder.position block).gep place [0, 0] ty).2 }

/-- What an evaluation comes to in value mode and in address mode. -/
inductive ModesAgree (block : BlockId) : Except FormError TypedValue × CompilationUnit →
    Except FormError TypedValue × CompilationUnit → Prop
  | failed (error : FormError) (unit : CompilationUnit) :
      ModesAgree block (.error error, unit) (.error error, unit)
  | unplaced {result : TypedValue} (unit : CompilationUnit) : result.place? = none →
      ModesAgree block (.ok result, unit) (.ok result, unit)
  | placed {value address : TypedValue} {place : Place} {stored : Ty}
      {unit later : CompilationUnit} : value.place? = some place →
      address.value = place.value → address.ty.pointee? = some stored →
      place.ty.pointee? = some stored → unit.Reads block place.value later →
      ModesAgree block (.ok value, later) (.ok address, unit)

namespace FormM

variable {α : Type}

/-- From the unit, the operations come to what an evaluation does in value and in address mode. -/
def Modes (block : BlockId) (unit : CompilationUnit) (value address : FormM TypedValue) : Prop :=
  ModesAgree block (value.outcome unit) (address.outcome unit)

namespace Modes

variable {block : BlockId} {unit : CompilationUnit}

theorem fail (fault : FormFault) (span : Span) :
    Modes block unit (fail fault span) (fail fault span) :=
  .failed _ _

/-- An answer without a place is the same in both modes. -/
theorem unplaced {action : FormM TypedValue}
    (h : ∀ result later, action.outcome unit = (.ok result, later) → result.place? = none) :
    Modes block unit action action := by
  simp only [Modes]
  rcases ended : action.outcome unit with ⟨error | result, later⟩
  · exact .failed error later
  · exact .unplaced later (h result later ended)

/-- What is done in both modes alike changes nothing between them. -/
theorem bind {action : FormM α} {next next' : α → FormM TypedValue}
    (rest : ∀ a later, action.outcome unit = (.ok a, later) →
      Modes block later (next a) (next' a)) :
    Modes block unit (action >>= next) (action >>= next') := by
  simp only [Modes]
  rw [outcome_bind, outcome_bind]
  rcases ended : action.outcome unit with ⟨error | a, later⟩
  · exact .failed error later
  · exact rest a later ended

end Modes

section Operations

variable {request : Request} {unit : CompilationUnit}

theorem place_constant {ty : Ty} {value : Constant} {result : TypedValue} {later : CompilationUnit}
    (h : (constant request ty value).outcome unit = (.ok result, later)) :
    result.place? = none := by
  cases h
  rfl

theorem place_measured {ty : Ty} {span : Span} {query : Registry → Target → LayoutM Nat}
    {result : TypedValue} {later : CompilationUnit}
    (h : (measured request ty span query).outcome unit = (.ok result, later)) :
    result.place? = none := by
  obtain ⟨answer, mid, -, h⟩ := of_bind h
  cases answer with
  | error error => cases h
  | ok n =>
    obtain ⟨_, _, -, h⟩ := of_bind h
    dsimp only at h
    split at h
    · exact place_constant h
    · cases h

/-- An access in value mode is one instruction in the block, and keeps its place. -/
theorem outcome_access (address : ValueId) (stored : Ty) (request : Request)
    (unit : CompilationUnit) : ∃ value later,
      (access address stored (request.mode false)).outcome (unit.positioned request.block) =
        (.ok value, later) ∧
      value.place? = some ⟨address, .pointerTo stored⟩ ∧ unit.Reads request.block address later := by
  simp only [access, Request.mode]
  cases stored.element? with
  | some element => exact ⟨_, _, rfl, rfl, .element (.pointerTo element)⟩
  | none => exact ⟨_, _, rfl, rfl, .load⟩

/-- In address mode an access is nothing but its address. -/
theorem modes_access (address : ValueId) (stored : Ty)
    (here : unit.builder.At request.block) :
    Modes request.block unit (access address stored (request.mode false))
      (access address stored (request.mode true)) := by
  have same : unit.positioned request.block = unit := by
    rw [CompilationUnit.positioned, here.positioned]
  obtain ⟨value, later, ended, place, reads⟩ := outcome_access address stored request unit
  rw [same] at ended
  simp only [Modes]
  rw [ended]
  exact .placed place rfl rfl rfl reads

end Operations
end FormM

open FormM (Modes)

/-! ## Tokens -/

section Tokens

variable (token : Token) {request : Request} {unit : CompilationUnit}

theorem Token.modes_identifier (here : unit.builder.At request.block) :
    Modes request.block unit (token.identifier (request.mode false))
      (token.identifier (request.mode true)) := by
  refine .bind fun named later passed => ?_
  obtain ⟨-, rfl⟩ := FormM.of_check passed
  cases named with
  | some named => exact .unplaced fun _ _ => FormM.place_constant
  | none =>
    refine .bind fun _ _ read => ?_
    cases read
    split
    · exact FormM.modes_access _ _ here
    · exact .fail _ _

theorem Token.place_string {result : TypedValue} {later : CompilationUnit}
    (h : (token.string request).outcome unit = (.ok result, later)) : result.place? = none := by
  rw [Token.string_eq] at h
  split at h
  · cases h
  · obtain ⟨stored, mid, -, h⟩ := FormM.of_bind h
    obtain ⟨id, last, -, h⟩ := FormM.of_bind h
    cases h
    rfl

theorem Token.place_integer {result : TypedValue} {later : CompilationUnit}
    (h : (token.integer request).outcome unit = (.ok result, later)) : result.place? = none := by
  obtain ⟨_, _, read, h⟩ := FormM.of_bind h
  dsimp only at h
  split at h
  · exact FormM.place_constant h
  · cases h

theorem Token.place_floating {result : TypedValue} {later : CompilationUnit}
    (h : (token.floating request).outcome unit = (.ok result, later)) : result.place? = none := by
  unfold floating at h
  dsimp only at h
  split at h
  · exact FormM.place_constant h
  · cases h

theorem Token.modes_resolve : Modes request.block unit (token.resolve (request.mode false))
    (token.resolve (request.mode true)) := by
  refine .bind fun _ later positioned => ?_
  cases positioned
  -- only the name of a variable looks at the mode
  cases kind : token.kind with
  | integer =>
    have same (unit : CompilationUnit) :
        Modes request.block unit (token.integer request) (token.integer request) :=
      .unplaced fun _ _ => token.place_integer
    exact same _
  | floating =>
    have same (unit : CompilationUnit) :
        Modes request.block unit (token.floating request) (token.floating request) :=
      .unplaced fun _ _ => token.place_floating
    exact same _
  | identifier =>
    refine .bind fun found later speculated => ?_
    rcases token.of_speculate speculated kind with
      ⟨ty, constant, result, rfl, -, ended⟩ | ⟨rfl, rfl, -⟩
    · refine .unplaced fun _ _ returned => ?_
      cases returned
      exact FormM.place_constant ended
    · exact token.modes_identifier Builder.at_position
  | string =>
    refine .bind fun found later speculated => ?_
    obtain ⟨rfl, -⟩ := token.of_speculate_string speculated kind
    have same : Modes request.block later (token.string request) (token.string request) :=
      .unplaced fun _ _ => token.place_string
    exact same

end Tokens

/-! ## Forms -/

section Forms

variable {request : Request} {unit : CompilationUnit}

theorem FormM.modes_fieldAt (address : ValueId) (record : Ty) (name : String) (base field : Span)
    (here : unit.builder.At request.block) :
    Modes request.block unit (FormM.fieldAt address record name base field (request.mode false))
      (FormM.fieldAt address record name base field (request.mode true)) := by
  refine .bind fun _ _ read => ?_
  cases read
  refine .bind fun found later passed => ?_
  obtain ⟨-, rfl⟩ := FormM.of_check passed
  refine .bind fun id later emitted => ?_
  cases emitted
  exact FormM.modes_access _ _ (here.pushInstruction _ _)

/-- To follow a pointer does not move the insertion point. -/
theorem FormM.at_follow {place : TypedValue} {outer : Ty} {record : ValueId × Ty}
    {later : CompilationUnit} (here : unit.builder.At request.block)
    (h : (FormM.follow place outer).outcome unit = (.ok record, later)) :
    later.builder.At request.block := by
  unfold follow at h
  split at h
  · obtain ⟨id, mid, emitted, h⟩ := of_bind h
    cases h
    cases emitted
    exact here.load place.value
  · cases h
    exact here

theorem Operand.modes_field (base field : Operand) :
    Modes request.block unit (FormM.resolveField base field (request.mode false))
      (FormM.resolveField base field (request.mode true)) := by
  rw [FormM.resolveField_eq, FormM.resolveField_eq]
  refine .bind fun name _ _ => .bind fun place _ _ => .bind fun _ later positioned => ?_
  cases positioned
  split
  · exact .fail _ _
  · refine .bind fun record later followed => ?_
    exact FormM.modes_fieldAt _ _ _ _ _ (FormM.at_follow Builder.at_position followed)

theorem FormM.modes_storeAt (source place : TypedValue) (stored : Ty) :
    Modes request.block unit (FormM.storeAt source place stored (request.mode false))
      (FormM.storeAt source place stored (request.mode true)) :=
  .bind fun _ _ _ => .bind fun _ _ _ => .placed rfl rfl rfl rfl .nothing

theorem Operand.modes_assign (target value : Operand) :
    Modes request.block unit (FormM.assign target value (request.mode false))
      (FormM.assign target value (request.mode true)) := by
  rw [FormM.assign_eq, FormM.assign_eq]
  refine .bind fun place _ _ => ?_
  split
  · refine .bind fun source _ _ => ?_
    split
    · exact FormM.modes_storeAt _ _ _
    · exact .fail _ _
  · exact .fail _ _

/-- The place is the pointer that the operand is evaluated to. -/
theorem Operand.modes_dereference (operand : Operand) (span : Span) :
    Modes request.block unit (Form.dereference span [operand] (request.mode false))
      (Form.dereference span [operand] (request.mode true)) := by
  refine .bind fun inner later _ => ?_
  cases pointee : inner.ty.pointee? with
  | none => exact .fail _ _
  | some stored =>
    obtain ⟨value, last, ended, place, reads⟩ :=
      FormM.outcome_access inner.value stored request later
    have followed : (do
        FormM.position request.block
        FormM.access inner.value stored (request.mode false)).outcome later = (.ok value, last) := by
      rw [FormM.outcome_bind, FormM.outcome_position]
      exact ended
    have placed : ModesAgree request.block (.ok value, last)
        (.ok { block := request.block, value := inner.value, ty := inner.ty }, later) :=
      .placed place rfl pointee rfl reads
    rw [← followed] at placed
    exact placed

/-- In both modes a measurement is the same constant. -/
theorem Operand.modes_measuring (operand : Operand) (span : Span)
    (query : Registry → Target → Ty → LayoutM Nat) :
    Modes request.block unit (Form.measuring query span [operand] (request.mode false))
      (Form.measuring query span [operand] (request.mode true)) := by
  refine .bind fun ty later _ => ?_
  have same (query : Registry → Target → LayoutM Nat) : Modes request.block later
      (FormM.measured request ty operand.node.span query)
      (FormM.measured request ty operand.node.span query) :=
    .unplaced fun _ _ => FormM.place_measured
  exact same _

theorem Operand.modes_offsetOf (struct field : Operand) (span : Span) :
    Modes request.block unit (Form.offsetOf span [struct, field] (request.mode false))
      (Form.offsetOf span [struct, field] (request.mode true)) := by
  refine .bind fun ty _ _ => ?_
  split
  · exact .fail _ _
  · refine .bind fun name _ _ => .bind fun now later _ => ?_
    split
    · exact .fail _ _
    · have same (query : Registry → Target → LayoutM Nat) : Modes request.block later
          (FormM.measured request ty struct.node.span query)
          (FormM.measured request ty struct.node.span query) :=
        .unplaced fun _ _ => FormM.place_measured
      exact same _

end Forms

/-- The form does the same in both modes up to the read at the place. -/
def Form.Modal (form : Form) : Prop :=
  ∀ (span : Span) (args : List Operand) (request : Request) (unit : CompilationUnit),
    Modes request.block unit (form span args (request.mode false))
      (form span args (request.mode true))

section Arguments

variable {form : Form}

theorem Form.Modal.of_one (takes : form.Takes 1)
    (one : ∀ (span : Span) (operand : Operand) (request : Request) (unit : CompilationUnit),
      Modes request.block unit (form span [operand] (request.mode false))
        (form span [operand] (request.mode true))) : form.Modal := by
  intro span args request unit
  by_cases h : args.length = 1
  · obtain ⟨operand, rfl⟩ := List.length_eq_one_iff.mp h
    exact one span operand request unit
  · rw [takes _ _ _ h, takes _ _ _ h]
    exact .fail _ _

theorem Form.Modal.of_two (takes : form.Takes 2)
    (two : ∀ (span : Span) (first second : Operand) (request : Request) (unit : CompilationUnit),
      Modes request.block unit (form span [first, second] (request.mode false))
        (form span [first, second] (request.mode true))) : form.Modal := by
  intro span args request unit
  by_cases h : args.length = 2
  · match args, h with
    | [first, second], _ => exact two span first second request unit
  · rw [takes _ _ _ h, takes _ _ _ h]
    exact .fail _ _

end Arguments

namespace FormTable

/-- Only `#` treats its result in another way. -/
theorem BuiltIn.modal {name : String} {form : Form} (h : BuiltIn name form) (other : name ≠ "#") :
    form.Modal := by
  cases h with
  | field => exact .of_two Form.takes_field fun _ base field _ _ => base.modes_field field
  | assign => exact .of_two Form.takes_assign fun _ target value _ _ => target.modes_assign value
  | addressOf => exact absurd rfl other
  | dereference =>
    exact .of_one Form.takes_dereference fun span operand _ _ => operand.modes_dereference span
  | alignmentOf =>
    exact .of_one (Form.takes_measuring _) fun span operand _ _ => operand.modes_measuring span _
  | sizeOf =>
    exact .of_one (Form.takes_measuring _) fun span operand _ _ => operand.modes_measuring span _
  | offsetOf =>
    exact .of_two Form.takes_offsetOf fun span struct field _ _ => struct.modes_offsetOf field span

theorem modal_apply {name : String} (other : name ≠ "#") : (core.apply name).Modal := by
  intro span args request unit
  simp only [apply]
  cases found : core.find? name with
  | none => exact .fail _ _
  | some form => exact (builtIn_of_find? found).modal other span args request unit

end FormTable

/-! ## Nodes -/

/-- The node is a list that calls the form `#`. -/
def Node.IsAddressOf (node : Node) : Prop :=
  ∃ items span args, node = .list items span ∧ Node.Calls items "#" args

theorem Node.modes_resolve {node : Node} (other : ¬ node.IsAddressOf) (request : Request)
    (unit : CompilationUnit) : Modes request.block unit (node.resolve .core (request.mode false))
      (node.resolve .core (request.mode true)) := by
  cases node with
  | atom token => exact token.modes_resolve
  | list items span =>
    refine .bind fun _ later _ => ?_
    rw [Node.operands_eq_map]
    have called {name : String} {args : List Node} (calls : Node.Calls items name args)
        (operands : List Operand) (viaCore : Bool) : Modes request.block later
          (FormTable.core.apply name span operands { request.mode false with viaCore })
          (FormTable.core.apply name span operands { request.mode true with viaCore }) := by
      refine FormTable.modal_apply ?_ span operands { request with viaCore } later
      rintro rfl
      exact other ⟨items, _, _, rfl, calls⟩
    simp only [FormTable.dispatch]
    split
    · exact .fail _ _
    · rename_i head args hitems
      obtain ⟨first, rest, rfl, rfl, rfl⟩ := List.map_eq_cons_iff.mp hitems
      split
      · exact .fail _ _
      · exact .fail _ _
      · rename_i second others hcore hrest
        obtain ⟨next, args, rfl, rfl, rfl⟩ := List.map_eq_cons_iff.mp hrest
        split
        · rename_i name hname
          exact called (.prefixed hcore hname) _ true
        · exact .fail _ _
      · rename_i name hname alone more
        refine called (.plain hname ?_) _ false
        rintro rfl
        cases rest with
        | nil => exact alone rfl rfl
        | cons second args => exact more _ _ rfl rfl

/-! ## Storage -/

/-- The value is the address of a field of the record at a place, or of the record that the pointer
stored there leads to, and is computed last. -/
inductive CompilationUnit.TakesField (place : ValueId) (unit : CompilationUnit) :
    ValueId → CompilationUnit → Prop
  | direct (index : Nat) (ty : Ty) : TakesField place unit
      (unit.builder.gep place [0, index] ty).1
      { unit with builder := (unit.builder.gep place [0, index] ty).2 }
  | through (index : Nat) (ty : Ty) : TakesField place unit
      ((unit.builder.load place).2.gep (unit.builder.load place).1 [0, index] ty).1
      { unit with
        builder := ((unit.builder.load place).2.gep (unit.builder.load place).1 [0, index] ty).2 }

section Storage

variable {request : Request} {unit later : CompilationUnit} {result : TypedValue}

/-- What `#` reports is the address that its operand evaluates to in address mode. -/
theorem Node.resolve_of_addressOf {node : Node} (other : ¬ node.IsAddressOf) {items : List Node}
    {span : Span} (calls : Node.Calls items "#" [node])
    (h : ((Node.list items span).resolve .core (request.mode false)).outcome unit =
      (.ok result, later)) :
    ∃ address mid, (node.resolve .core (request.nested true)).outcome unit = (.ok address, mid) ∧
      address.value = result.value := by
  obtain ⟨viaCore, same⟩ := calls.resolve_eq span (request.mode false)
  rw [same] at h
  obtain ⟨_, _, positioned, h⟩ := FormM.of_bind h
  cases positioned
  change (node.resolve .core (request.nested false) >>= _).outcome (unit.positioned request.block) =
    _ at h
  obtain ⟨inner, mid, resolved, h⟩ := FormM.of_bind h
  have resolved := (node.outcome_resolve .core (request.nested false) unit).trans resolved
  have modes : ModesAgree request.block ((node.resolve .core (request.nested false)).outcome unit)
      ((node.resolve .core (request.nested true)).outcome unit) :=
    Node.modes_resolve other (request.nested false) unit
  rw [resolved] at modes
  generalize ended : (node.resolve .core (request.nested true)).outcome unit = answer at modes ⊢
  cases modes with
  | unplaced _ unplaced =>
    dsimp only at h
    rw [unplaced] at h
    cases h
  | @placed _ address place _ mid _ hplace same =>
    dsimp only at h
    rw [hplace] at h
    cases h
    exact ⟨address, mid, rfl, same⟩

/-- An assignment ends with a store through the address of its target. -/
theorem FormM.storing_of_assign {target value : Operand} {place : TypedValue}
    {mid : CompilationUnit}
    (located : (target.resolve (request.nested true)).outcome unit = (.ok place, mid))
    (h : (FormM.assign target value request).outcome unit = (.ok result, later)) :
    ∃ (last : CompilationUnit) (source : TypedValue),
      later = last.storing request.block source place := by
  obtain ⟨_, _, _, source, last, again, -, -, same, -⟩ := Operand.of_assign h
  cases located.symm.trans again
  exact ⟨last, source, same⟩

/-- A field reference ends with the address of a field at the address of its base. -/
theorem FormM.takesField_of_resolveField {base field : Operand} {place : TypedValue}
    {mid : CompilationUnit}
    (located : (base.resolve (request.nested true)).outcome unit = (.ok place, mid))
    (h : (FormM.resolveField base field (request.mode true)).outcome unit = (.ok result, later)) :
    (mid.positioned request.block).TakesField place.value result.value later := by
  rw [FormM.resolveField_eq] at h
  obtain ⟨name, _, passed, h⟩ := of_bind h
  obtain ⟨-, rfl⟩ := of_check passed
  obtain ⟨_, _, again, h⟩ := of_bind h
  cases located.symm.trans again
  obtain ⟨_, _, positioned, h⟩ := of_bind h
  cases positioned
  split at h
  · cases h
  · obtain ⟨record, last, followed, h⟩ := of_bind h
    obtain ⟨_, _, read, h⟩ := of_bind h
    cases read
    obtain ⟨found, _, passed, h⟩ := of_bind h
    obtain ⟨-, rfl⟩ := of_check passed
    obtain ⟨id, _, emitted, h⟩ := of_bind h
    cases emitted
    cases h
    unfold follow at followed
    split at followed
    · obtain ⟨id, _, emitted, returned⟩ := of_bind followed
      cases emitted
      cases returned
      exact .through _ _
    · cases followed
      exact .direct _ _

end Storage

/-- Value mode and address mode agree, for any unit and any node but a call of `#`. So an
assignment stores to the very address that `#` reports, and a field reference starts from it. -/
theorem Node.modes_agree {node : Node} (other : ¬ node.IsAddressOf) (request : Request)
    (unit : CompilationUnit) :
    ModesAgree request.block ((node.resolve .core (request.mode false)).outcome unit)
      ((node.resolve .core (request.mode true)).outcome unit) ∧
    ∀ (items : List Node) (span : Span) (reported : TypedValue) (later : CompilationUnit),
      Node.Calls items "#" [node] →
      ((Node.list items span).resolve .core (request.mode false)).outcome unit =
        (.ok reported, later) →
      (∀ value result after,
        (node.assign .core value request).outcome unit = (.ok result, after) →
        ∃ (last : CompilationUnit) (source : TypedValue),
          after = last.storing request.block source reported) ∧
      ∀ field result after,
        (node.resolveField .core field (request.mode true)).outcome unit = (.ok result, after) →
        ∃ last : CompilationUnit,
          (last.positioned request.block).TakesField reported.value result.value after := by
  refine ⟨Node.modes_resolve other request unit, fun items span reported later calls h => ?_⟩
  obtain ⟨address, mid, located, same⟩ := Node.resolve_of_addressOf other calls h
  constructor
  · intro value result after assigned
    obtain ⟨last, source, rfl⟩ := FormM.storing_of_assign located assigned
    refine ⟨last, source, ?_⟩
    simp only [CompilationUnit.storing]
    rw [same]
  · intro field result after referred
    rw [← same]
    exact ⟨mid, FormM.takesField_of_resolveField located referred⟩

/-- In `(@ p)` value mode emits a second load. The first one, of `p`, gives the address in the other
mode, and that is what `(# (@ p))` reports and what `(setf (@ p) #\x)` stores to. -/
theorem followed_pointer_modes :
    let name (text : String) : Node := .atom ⟨.identifier, text, .dummy⟩
    let node : Node := .list [name "@", name "p"] .dummy
    let unit := ((CompilationUnit.new "m" .x86_64 0).perform (.enterFunction "f")).perform
      (.declareLocal "p" (.pointerTo .char))
    let request : Request := { block := ⟨0⟩ }
    let value := (node.resolve .core (request.mode false)).outcome unit
    let address := (node.resolve .core (request.mode true)).outcome unit
    let assigned := (node.assign .core (name "#\\x") request).outcome unit
    let storage : TypedValue := { block := ⟨0⟩, value := ⟨1⟩, ty := .pointerTo .char }
    ModesAgree ⟨0⟩ value address ∧
      (value.2.module.values.size, address.2.module.values.size) = (3, 2) ∧
      (((Node.list [name "#", node] .dummy).resolve .core request).outcome unit).1 = .ok storage ∧
      ∃ (last : CompilationUnit) (source : TypedValue),
        assigned.2 = last.storing ⟨0⟩ source storage := by
  intro name node unit request value address assigned storage
  have other : ¬ node.IsAddressOf := by
    rintro ⟨items, span, args, same, calls⟩
    obtain ⟨rfl, rfl⟩ := Node.list.inj same
    have found : Node.Calls [name "@", name "p"] "@" [name "p"] := .plain rfl (by decide)
    exact absurd (found.unique calls).1 (by decide)
  obtain ⟨agree, storing⟩ := Node.modes_agree other request unit
  have reported : (((Node.list [name "#", node] .dummy).resolve .core request).outcome unit).1 =
      .ok storage := by decide +kernel
  have stored : assigned.1 = .ok ⟨⟨0⟩, ⟨2⟩, .char, some ⟨⟨1⟩, .pointerTo .char⟩⟩ := by
    decide +kernel
  refine ⟨agree, by decide +kernel, reported, ?_⟩
  exact (storing _ .dummy storage _ (.plain rfl (by decide)) (Prod.ext reported rfl)).1 _ _ _
    (Prod.ext stored rfl)

end FormLowering
