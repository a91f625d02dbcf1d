import FormLowering.Proofs.Form.Lowering

/-!
Type soundness of evaluations. The two annotations of a result, its own type and the module's type
of its value, agree up to the const flag of the outermost pointer, and so do those of its place.
-/

namespace FormLowering

open FormM (Lowers)

/-- Evaluation in the block of its request answers soundly from every unit that is ready. -/
def Evaluates (request : Request) (action : FormM TypedValue) : Prop :=
  ∀ {unit : CompilationUnit}, unit.Ready request.block →
    Lowers request.block unit action
      fun result later => result.Sound later request.block request.address

section Tokens

variable (token : Token) (request : Request)

theorem Token.evaluates_integer : Evaluates request (token.integer request) := by
  intro unit ready
  refine .bind_get ?_
  dsimp only
  split
  · exact FormM.lowers_constant request (.int _ _ _)
  · exact .fail _ _

theorem Token.floatingKind_primitive (wanted? : Option Ty) :
    ∃ kind, (floatingKind wanted?).1 = .primitive kind := by
  simp only [floatingKind]
  split
  · exact ⟨.double, rfl⟩
  · exact ⟨.longDouble, rfl⟩
  · exact ⟨.float, rfl⟩

theorem Token.evaluates_floating : Evaluates request (token.floating request) := by
  intro unit ready
  unfold Token.floating
  obtain ⟨kind, hkind⟩ := floatingKind_primitive request.wanted?
  dsimp only
  split
  · rw [hkind]
    exact FormM.lowers_constant request (.float _ _ _)
  · exact .fail _ _

theorem Token.lowers_speculate {unit : CompilationUnit} :
    Lowers request.block unit (token.speculate request) fun found later =>
      ∀ result, found = some result → result.Sound later request.block request.address := by
  refine .bind_get ?_
  split
  · exact .pure nofun
  · rename_i enum _
    have literal : Lowers request.block unit (token.enumLiteral enum request) fun result later =>
        result.Sound later request.block request.address := by
      exact .bind_check fun value _ => .bind_get (FormM.lowers_constant request (.enum _ _ _))
    refine .bind literal.attempt fun answer later _ sound => .pure ?_
    intro result hresult
    cases answer with
    | error e => cases hresult
    | ok found =>
      cases hresult
      exact sound result rfl

theorem Token.literal_of_namedConstant? {ty : Ty} {constant : Constant}
    (h : token.namedConstant? = .ok (some (ty, constant))) : constant.Literal ty := by
  unfold namedConstant? at h
  split at h
  · cases h
    exact .int _ _ _
  · split at h
    · cases h
      exact .int _ _ _
    · split at h
      · cases h
        exact .int _ _ _
      · cases h
      · cases h

theorem Token.evaluates_identifier : Evaluates request (token.identifier request) := by
  intro unit ready
  refine .bind_check ?_
  intro named hnamed
  split
  · exact FormM.lowers_constant request (token.literal_of_namedConstant? hnamed)
  · refine .bind_get ?_
    split
    · rename_i found hfound
      exact FormM.lowers_access ready request (ready.typed.holds_storage hfound _)
    · exact .fail _ _

/-- A string literal becomes a global; its value is the address of the first byte. -/
theorem Token.evaluates_string : Evaluates request (token.string request) := by
  intro unit ready
  unfold Token.string
  split
  · exact .fail _ _
  · dsimp only
    refine .bind (Q := fun _ later => later.Ready request.block)
      ⟨.single (.record _ _ _), fun _ _ => (Effect.record _ _ _).ready ready⟩ ?_
    intro name named _ ready
    refine .bind (FormM.lowers_string name token.text token.span) ?_
    intro x later effects holds
    refine .bind (FormM.lowers_element (effects.ready ready) holds true) ?_
    intro id last _ holds
    exact .pure ⟨holds, nofun⟩

theorem Token.evaluates_resolve : Evaluates request (token.resolve request) := by
  intro unit ready
  refine .bind_position ready ?_
  cases token.kind with
  | integer => exact token.evaluates_integer request ready
  | floating => exact token.evaluates_floating request ready
  | identifier =>
    refine .bind (token.lowers_speculate request) ?_
    intro found later effects sound
    cases found with
    | some result => exact .pure (sound result rfl)
    | none => exact token.evaluates_identifier request (effects.ready ready)
  | string =>
    refine .bind (token.lowers_speculate request) ?_
    intro found later effects sound
    cases found with
    | some result => exact .pure (sound result rfl)
    | none => exact token.evaluates_string request (effects.ready ready)

end Tokens

section Forms

variable {first second : Operand} {request : Request}

/-- What is assignable differs at most in the right to write. -/
theorem Ty.Similar.of_isAssignable {source target : Ty} (h : source.isAssignable target) :
    source.Similar target := by
  unfold isAssignable at h
  rcases Bool.or_eq_true_iff.mp h with same | weaker
  · cases eq_of_beq same
    exact .refl _
  · split at weaker
    · cases eq_of_beq weaker
      exact Ty.similar_pointer _ _ _
    · cases weaker

/-- A field that is found belongs to a struct with a body. -/
theorem Registry.fieldIn_eq_ok {types : Registry} {ty : Ty} {name : String} {base place : Span}
    {found : Nat × Ty} (h : types.fieldIn ty name base place = .ok found) :
    ∃ struct known fields field, ty = .struct struct ∧ types.struct? struct = some known ∧
      known.fields? = some fields ∧ known.field? name = some (found.1, field) ∧
      fields[found.1]? = some field ∧ found.2 = field.ty := by
  unfold fieldIn at h
  split at h
  · cases h
  · rename_i struct hstruct
    split at h
    · cases h
    · rename_i known hknown
      split at h
      · cases h
      · split at h
        · rename_i index field hfield
          cases h
          have hfield' := hfield
          unfold StructDef.field? at hfield'
          obtain ⟨fields, hfields, hfield'⟩ := Option.bind_eq_some_iff.mp hfield'
          obtain ⟨found, _, hfield'⟩ := Option.bind_eq_some_iff.mp hfield'
          obtain ⟨_, hget, hfield'⟩ := Option.bind_eq_some_iff.mp hfield'
          cases hfield'
          exact ⟨struct, known, fields, field, Ty.eq_struct_of_structName? hstruct, hknown, hfields,
            hfield, hget, rfl⟩
        · cases h

theorem FormM.lowers_follow {block : BlockId} {unit : CompilationUnit} (ready : unit.Ready block)
    {place : TypedValue} {outer : Ty} {isConst : Bool}
    (h : unit.Holds block place.value (.pointer outer isConst)) :
    Lowers block unit (FormM.follow place outer)
      fun record later => ∃ flag, later.Holds block record.1 (.pointer record.2 flag) := by
  simp only [follow]
  split
  · rename_i inner hinner
    obtain ⟨flag, rfl⟩ := Ty.eq_pointer_of_pointee? hinner
    exact .bind (FormM.lowers_load ready h) fun id later _ holds => .pure ⟨flag, holds⟩
  · exact .pure ⟨isConst, h⟩

theorem FormM.lowers_fieldAt {unit : CompilationUnit} (ready : unit.Ready request.block)
    {address : ValueId} {record : Ty} {name : String} {base field : Span} {isConst : Bool}
    (h : unit.Holds request.block address (.pointer record isConst)) :
    Lowers request.block unit (FormM.fieldAt address record name base field request)
      fun result later => result.Sound later request.block request.address := by
  refine .bind_get (.bind_check fun found hfound => ?_)
  obtain ⟨struct, known, fields, entry, rfl, hknown, hfields, -, hget, hty⟩ :=
    Registry.fieldIn_eq_ok hfound
  obtain ⟨flag, hpointer⟩ := h.pointer
  rw [hty]
  refine .bind (FormM.lowers_instruction ready rfl (.field hpointer hknown hfields hget) nofun ?_) ?_
  · intro id hid
    cases List.mem_singleton.mp hid
    exact h.available
  · intro id later effects holds
    exact FormM.lowers_access (effects.ready ready) request holds

theorem Operand.evaluates_field (hf : ∀ request, Evaluates request (first.resolve request)) :
    Evaluates request (FormM.resolveField first second request) := by
  intro unit ready
  rw [FormM.resolveField_eq]
  refine .bind_check ?_
  intro name _
  refine .bind (hf (request.nested true) ready) ?_
  intro place later effects sound
  have ready := effects.ready ready
  refine .bind_position ready ?_
  split
  · exact .fail _ _
  · rename_i outer houter
    obtain ⟨flag, hty⟩ := Ty.eq_pointer_of_pointee? houter
    have holds := sound.value
    rw [hty] at holds
    refine .bind (FormM.lowers_follow ready holds) ?_
    rintro record last effects ⟨flag, holds⟩
    exact FormM.lowers_fieldAt (effects.ready ready) holds

theorem Operand.evaluates_assign (hf : ∀ request, Evaluates request (first.resolve request))
    (hs : ∀ request, Evaluates request (second.resolve request)) :
    Evaluates request (FormM.assign first second request) := by
  intro unit ready
  refine .bind (hf (request.nested true) ready) ?_
  intro place later effects target
  have ready := effects.ready ready
  split
  · rename_i stored hty
    have holds := target.value
    rw [hty] at holds
    refine .bind (hs (request.nested false (some stored)) ready) ?_
    intro source last effects value
    have ready := effects.ready ready
    have holds := holds.later effects
    split
    · rename_i assignable
      have hvalue := value.value.similar (.of_isAssignable assignable)
      refine .bind_position ready ?_
      refine .bind (FormM.lowers_store ready holds hvalue) ?_
      intro _ done effects _
      dsimp only
      split
      · exact .pure ⟨holds.later effects, nofun⟩
      · rename_i mode
        refine .pure ⟨hvalue.later effects, ?_⟩
        intro found hfound
        cases hfound
        exact ⟨by simpa using mode, holds.later effects, stored, rfl, .inl rfl⟩
    · exact .fail _ _
  · exact .fail _ _

theorem Operand.evaluates_addressOf {span : Span}
    (hf : ∀ request, Evaluates request (first.resolve request)) :
    Evaluates request (Form.addressOf span [first] request) := by
  intro unit ready
  unfold Form.addressOf
  dsimp only
  split
  · exact .fail _ _
  · refine .bind (hf (request.nested false) ready) ?_
    intro inner later effects sound
    split
    · rename_i place hplace
      obtain ⟨-, holds, -⟩ := sound.place hplace
      exact .pure ⟨holds, nofun⟩
    · exact .fail _ _

theorem Operand.evaluates_dereference (span : Span)
    (hf : ∀ request, Evaluates request (first.resolve request)) :
    Evaluates request (Form.dereference span [first] request) := by
  intro unit ready
  refine .bind (hf (request.nested false) ready) ?_
  intro inner later effects sound
  split
  · exact .fail _ _
  · rename_i stored hstored
    split
    · exact .pure ⟨sound.value, nofun⟩
    · have ready := effects.ready ready
      obtain ⟨flag, hty⟩ := Ty.eq_pointer_of_pointee? hstored
      have holds := sound.value
      rw [hty] at holds
      refine .bind_position ready ?_
      exact FormM.lowers_access ready request (holds.similar (Ty.similar_pointer _ _ _))

theorem FormM.evaluates_measured (ty : Ty) (span : Span) (query : Registry → Target → LayoutM Nat) :
    Evaluates request (FormM.measured request ty span query) := by
  intro unit ready
  refine .bind (.measure (Q := fun _ _ => True) fun _ _ => trivial) ?_
  intro answer later _ _
  cases answer with
  | error error => exact .fail _ _
  | ok n =>
    refine .bind_get ?_
    dsimp only
    split
    · exact FormM.lowers_constant request (.int _ _ _)
    · exact .fail _ _

theorem Operand.evaluates_measuring (span : Span) (query : Registry → Target → Ty → LayoutM Nat) :
    Evaluates request (Form.measuring query span [first] request) := by
  intro unit ready
  exact .bind_parseType fun ty => FormM.evaluates_measured _ _ _ ready

theorem Operand.evaluates_offsetOf (span : Span) :
    Evaluates request (Form.offsetOf span [first, second] request) := by
  intro unit ready
  refine .bind_parseType ?_
  intro ty
  split
  · exact .fail _ _
  · refine .bind_check fun field _ => .bind_get ?_
    split
    · exact .fail _ _
    · exact FormM.evaluates_measured _ _ _ ready

end Forms

theorem Node.evaluates_resolve (node : Node) :
    ∀ request, Evaluates request (node.resolve .core request) := by
  refine Node.core_induction (P := fun _ request action => Evaluates request action)
    (fun token request => token.evaluates_resolve request)
    (fun _ _ _ _ _ ready => .bind_position ready (.fail _ _)) ?_ node
  intro items span request name args viaCore action _ application ih unit ready
  refine .bind_position ready ?_
  -- the prefix `core` is in the request, but no built-in form looks at it
  cases application with
  | refused fault => exact .fail _ _
  | field base => exact Operand.evaluates_field (ih base (by simp)) ready
  | assign target value =>
    exact Operand.evaluates_assign (ih target (by simp)) (ih value (by simp)) ready
  | addressOf operand => exact Operand.evaluates_addressOf (ih operand (by simp)) ready
  | dereference operand => exact Operand.evaluates_dereference span (ih operand (by simp)) ready
  | alignmentOf => exact Operand.evaluates_measuring span _ ready
  | sizeOf => exact Operand.evaluates_measuring span _ ready
  | offsetOf => exact Operand.evaluates_offsetOf span ready

theorem Evaluation.evaluates_action (evaluation : Evaluation) (request : Request) :
    Evaluates request (evaluation.action .core request) := by
  cases evaluation with
  | any node => exact node.evaluates_resolve request
  | token node =>
    cases node with
    | atom token => exact token.evaluates_resolve request
    | list items span => exact fun ready => .bind_position ready (.fail _ _)
  | member base field => exact Operand.evaluates_field base.evaluates_resolve
  | assign target value =>
    exact Operand.evaluates_assign target.evaluates_resolve value.evaluates_resolve

end FormLowering
