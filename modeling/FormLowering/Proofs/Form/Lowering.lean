import FormLowering.Proofs.Form.Application
import FormLowering.Proofs.Form.Effect

/-!
What the built-in forms emit. From a unit that is ready, an evaluation makes only changes of the
listed kinds, whether it succeeds or fails, and an answer has the type that it says.
-/

namespace FormLowering

namespace CompilationUnit

/-- The value can be used in the block, and its type is the given one up to the const flag. -/
structure Holds (unit : CompilationUnit) (block : BlockId) (id : ValueId) (ty : Ty) : Prop where
  available : unit.Available block id
  typed : ∃ found, unit.module.typeOf? id = some found ∧ found.Similar ty

theorem Holds.similar {unit : CompilationUnit} {block : BlockId} {id : ValueId} {a b : Ty}
    (h : unit.Holds block id a) (similar : a.Similar b) : unit.Holds block id b := by
  obtain ⟨found, hfound, hs⟩ := h.typed
  exact ⟨h.available, found, hfound, hs.trans similar⟩

theorem Holds.pointer {unit : CompilationUnit} {block : BlockId} {id : ValueId} {pointee : Ty}
    {isConst : Bool} (h : unit.Holds block id (.pointer pointee isConst)) :
    ∃ flag, unit.module.typeOf? id = some (.pointer pointee flag) := by
  obtain ⟨found, hfound, hs⟩ := h.typed
  obtain ⟨flag, rfl⟩ := hs.eq_pointer
  exact ⟨flag, hfound⟩

theorem Holds.later {unit later : CompilationUnit} {block : BlockId} {id : ValueId} {ty : Ty}
    (h : unit.Holds block id ty) (effects : Effects block unit later) :
    later.Holds block id ty := by
  obtain ⟨found, hfound, hs⟩ := h.typed
  exact ⟨effects.available h.available, found, effects.grows.typeOf hfound, hs⟩

/-- The storage of a visible variable is a usable pointer to the variable's type. -/
theorem Typed.holds_storage {unit : CompilationUnit} (typed : unit.Typed) {name : String}
    {x : Variable} (h : unit.lookup? name = some x) (block : BlockId) :
    unit.Holds block x.storage (.pointerTo x.ty) := by
  rcases mem_of_lookup? h with hlocal | hglobal
  · obtain ⟨label, block?, hv⟩ := typed.locals hlocal
    exact ⟨⟨_, hv, .inr (.inr ⟨x, hlocal, rfl⟩)⟩, _, Module.typeOf?_of_value? hv, .refl _⟩
  · obtain ⟨id, hv⟩ := typed.globals hglobal
    exact ⟨⟨_, hv, .inl nofun⟩, _, Module.typeOf?_of_value? hv, .refl _⟩

end CompilationUnit

/-- An answer agrees with the module: its value has its type, and so has its place, which only
value mode gives. What stands at the place is the value, or an array that the value points into. -/
structure TypedValue.Sound (result : TypedValue) (unit : CompilationUnit) (block : BlockId)
    (address : Bool) : Prop where
  value : unit.Holds block result.value result.ty
  place : ∀ {place}, result.place? = some place → address = false ∧
    unit.Holds block place.value place.ty ∧ ∃ stored, place.ty = .pointerTo stored ∧
      (result.ty = stored ∨
        ∃ length element, stored = .array length element ∧ result.ty = .pointerTo element)

namespace FormM

variable {α β : Type}

/-- The operation makes only changes that code of the block allows, and an answer is as
described. -/
def Lowers (block : BlockId) (unit : CompilationUnit) (action : FormM α)
    (post : α → CompilationUnit → Prop) : Prop :=
  Effects block unit (action.outcome unit).2 ∧
    ∀ a, (action.outcome unit).1 = .ok a → post a (action.outcome unit).2

namespace Lowers

variable {block : BlockId} {unit : CompilationUnit} {post : α → CompilationUnit → Prop}

theorem pure {a : α} (h : post a unit) : Lowers block unit (pure a) post := by
  refine ⟨.refl, ?_⟩
  intro b hb
  cases hb
  exact h

theorem fail (fault : FormFault) (span : Span) : Lowers block unit (fail fault span) post :=
  ⟨.single (.record _ unit.layout unit.nextName), nofun⟩

theorem bind {action : FormM α} {next : α → FormM β} {Q : α → CompilationUnit → Prop}
    {post : β → CompilationUnit → Prop} (first : Lowers block unit action Q)
    (rest : ∀ a later, Effects block unit later → Q a later → Lowers block later (next a) post) :
    Lowers block unit (action >>= next) post := by
  obtain ⟨effects, answer⟩ := first
  simp only [Lowers]
  rw [outcome_bind]
  revert effects answer
  rcases action.outcome unit with ⟨e | a, later⟩
  · intro effects _
    exact ⟨effects, nofun⟩
  · intro effects answer
    obtain ⟨more, final⟩ := rest a later effects (answer a rfl)
    exact ⟨effects.trans more, final⟩

theorem bind_get {next : CompilationUnit → FormM α} (rest : Lowers block unit (next unit) post) :
    Lowers block unit (get >>= next) post := by
  simp only [Lowers]
  rw [outcome_bind, outcome_get]
  exact rest

/-- A check that passes changes nothing, and one that fails only reports. -/
theorem bind_check {answer : Except FormError β} {next : β → FormM α}
    (rest : ∀ b, answer = .ok b → Lowers block unit (next b) post) :
    Lowers block unit (FormM.check answer >>= next) post := by
  simp only [Lowers]
  rw [outcome_bind]
  cases answer with
  | error error => exact ⟨.single (.record _ unit.layout unit.nextName), nofun⟩
  | ok b => exact rest b rfl

theorem bind_parseType {node : Node} {next : Ty → FormM α}
    (rest : ∀ ty, Lowers block unit (next ty) post) :
    Lowers block unit (FormM.parseType node >>= next) post := by
  simp only [FormM.parseType]
  rw [bind_assoc]
  exact bind_get (bind_check fun ty _ => rest ty)

theorem mono {action : FormM α} {post wider : α → CompilationUnit → Prop}
    (h : Lowers block unit action post) (imp : ∀ a later, post a later → wider a later) :
    Lowers block unit action wider :=
  ⟨h.1, fun a ha => imp a _ (h.2 a ha)⟩

theorem measure {query : Registry → Target → LayoutM α}
    {Q : Except LayoutError α → CompilationUnit → Prop} (h : ∀ a later, Q a later) :
    Lowers block unit (measure query) Q :=
  ⟨.single (.record unit.log _ unit.nextName), fun a _ => h a _⟩

/-- An attempt is what it attempts, and a failed one takes its reports back. -/
theorem attempt {action : FormM α} (h : Lowers block unit action post) :
    Lowers block unit (attempt action) fun answer later => ∀ a, answer = .ok a → post a later := by
  simp only [Lowers] at h ⊢
  rw [outcome_attempt]
  revert h
  rcases action.outcome unit with ⟨e | a, later⟩
  · intro ⟨effects, _⟩
    refine ⟨effects.tail (.record _ later.layout later.nextName), ?_⟩
    intro answer hanswer
    cases hanswer
    exact nofun
  · intro ⟨effects, answer⟩
    refine ⟨effects, ?_⟩
    intro found hfound
    cases hfound
    intro b hb
    cases hb
    exact answer a rfl

/-- A position that is already taken changes nothing. -/
theorem bind_position (ready : unit.Ready block) {next : Unit → FormM α}
    (rest : Lowers block unit (next ()) post) :
    Lowers block unit (FormM.position block >>= next) post := by
  simp only [Lowers]
  rw [outcome_bind, outcome_position, ready.here.positioned]
  exact rest

end Lowers

/-! ## Emission -/

section Emission

variable {block : BlockId} {unit : CompilationUnit}

/-- A typed instruction on usable operands is a usable value of its type. -/
theorem lowers_instruction (ready : unit.Ready block) {operation : Builder → ValueId × Builder}
    {instruction : Instruction} {ty : Ty}
    (h : operation unit.builder = unit.builder.pushInstruction instruction ty)
    (typed : instruction.Typed unit.module unit.types ty) (reads : instruction.operands ≠ [])
    (available : ∀ id ∈ instruction.operands, unit.Available block id) :
    Lowers block unit (build operation) fun id later => later.Holds block id ty := by
  simp only [Lowers]
  rw [outcome_build, h]
  refine ⟨.single (.instruction typed reads available), ?_⟩
  intro id hid
  cases hid
  have hv : (unit.builder.pushInstruction instruction ty).2.module.value? unit.builder.nextValue =
      some ⟨.instruction instruction, ty, some block⟩ := by
    rw [Builder.value?_pushInstruction, if_pos rfl, ready.here.position]
  rw [Builder.pushInstruction_fst]
  exact ⟨⟨_, hv, .inr (.inl rfl)⟩, ty, Module.typeOf?_of_value? hv, .refl ty⟩

theorem lowers_load (ready : unit.Ready block) {pointer : ValueId} {pointee : Ty} {isConst : Bool}
    (h : unit.Holds block pointer (.pointer pointee isConst)) :
    Lowers block unit (build (·.load pointer)) fun id later => later.Holds block id pointee := by
  obtain ⟨flag, hty⟩ := h.pointer
  refine lowers_instruction ready (unit.builder.load_of_typeOf? hty) (.load hty) nofun ?_
  intro id hid
  cases List.mem_singleton.mp hid
  exact h.available

theorem lowers_store (ready : unit.Ready block) {value pointer : ValueId} {stored : Ty}
    {isConst : Bool} (hp : unit.Holds block pointer (.pointer stored isConst))
    (hv : unit.Holds block value stored) :
    Lowers block unit (build (·.store value pointer)) fun _ _ => True := by
  obtain ⟨flag, hty⟩ := hp.pointer
  obtain ⟨source, hsource, hs⟩ := hv.typed
  have reads : (Instruction.store value pointer).operands ≠ [] := nofun
  have emitted := unit.builder.store_of_typeOf? hty value
  refine (lowers_instruction ready emitted (.store hty hsource hs) reads ?_).mono fun _ _ _ => trivial
  intro id hid
  rcases List.mem_cons.mp hid with rfl | hid
  · exact hv.available
  · cases List.mem_singleton.mp hid
    exact hp.available

theorem lowers_element (ready : unit.Ready block) {pointer : ValueId} {length : Nat} {element : Ty}
    {isConst : Bool} (h : unit.Holds block pointer (.pointer (.array length element) isConst))
    (flag : Bool) :
    Lowers block unit (build (·.gep pointer [0, 0] (.pointer element flag)))
      fun id later => later.Holds block id (.pointer element flag) := by
  obtain ⟨found, hty⟩ := h.pointer
  refine lowers_instruction ready rfl (.element flag hty) nofun ?_
  intro id hid
  cases List.mem_singleton.mp hid
  exact h.available

theorem lowers_constant (request : Request) {ty : Ty} {value : Constant}
    (h : value.Literal ty) :
    Lowers block unit (constant request ty value)
      fun result later => result.Sound later block request.address := by
  have hv := unit.builder.value?_pushValue ⟨.constant value, ty, none⟩ unit.builder.nextValue
  rw [if_pos rfl] at hv
  refine .bind (Q := fun id later => later.Holds block id ty) ?_ fun id later _ holds =>
    .pure ⟨holds, nofun⟩
  refine ⟨.single (.constant h), ?_⟩
  intro id hid
  cases hid
  exact ⟨⟨_, hv, .inl nofun⟩, ty, Module.typeOf?_of_value? hv, .refl ty⟩

/-- A string becomes a global of its own, whose address is usable. -/
theorem lowers_string (name text : String) (span : Span) :
    Lowers block unit
      (registerGlobal name (.ofString text) .internal true (some (.bytes (stringBytes text))) span)
      fun x later => later.Holds block x.storage (.pointerTo (.ofString text)) := by
  have refused : Lowers block unit (fail (.redefinition name) span) fun (x : Variable) later =>
      later.Holds block x.storage (.pointerTo (.ofString text)) := .fail _ _
  simp only [Lowers] at refused ⊢
  rw [outcome_registerGlobal]
  cases known : Variable.named? unit.globals name with
  | some x =>
    rw [if_pos Option.isSome_some]
    exact refused
  | none =>
    rw [if_neg (by simp)]
    cases hadded : unit.builder.addGlobal? name (.ofString text) .internal true
      (some (.bytes (stringBytes text))) with
    | none => exact refused
    | some added =>
      refine ⟨.single (.string known hadded), ?_⟩
      intro x hx
      cases hx
      have hv := (unit.builder.value?_addGlobal? hadded added.2.1).trans (if_pos rfl)
      exact ⟨⟨_, hv, .inl nofun⟩, _, Module.typeOf?_of_value? hv, .refl _⟩

/-- Storage at a usable address gives a sound answer in either mode. -/
theorem lowers_access (ready : unit.Ready block) {address : ValueId} {stored : Ty}
    (request : Request) (h : unit.Holds block address (.pointerTo stored)) :
    Lowers block unit (access address stored request)
      fun result later => result.Sound later block request.address := by
  unfold access
  dsimp only
  split
  · exact .pure ⟨h, nofun⟩
  · rename_i value
    have hvalue : request.address = false := by simpa using value
    split
    · rename_i element helement
      obtain ⟨length, rfl⟩ := Ty.eq_array_of_element? helement
      refine .bind (lowers_element ready h false) fun id later effects holds => .pure ⟨holds, ?_⟩
      intro place hplace
      cases hplace
      exact ⟨hvalue, h.later effects, _, rfl, .inr ⟨length, element, rfl, rfl⟩⟩
    · refine .bind (lowers_load ready h) fun id later effects holds => .pure ⟨holds, ?_⟩
      intro place hplace
      cases hplace
      exact ⟨hvalue, h.later effects, _, rfl, .inl rfl⟩

end Emission
end FormM
end FormLowering
