import FormLowering.Proofs.Typing.Evaluation

/-!
Type soundness of reachable units. Every operation keeps a unit typed, so wherever evaluation
starts, results agree with the module, and every load and store agrees with its pointer.
-/

namespace FormLowering

namespace CompilationUnit

/-- The unit with a block as its insertion point. -/
def positioned (unit : CompilationUnit) (block : BlockId) : CompilationUnit :=
  { unit with builder := unit.builder.position block }

theorem Typed.ready {unit : CompilationUnit} {block : BlockId} (h : unit.Typed)
    (hasBlock : unit.HasBlock block) : (unit.positioned block).Ready block where
  typed := h.same rfl (.refl _) id rfl
  hasBlock := hasBlock
  here := Builder.at_position

end CompilationUnit

/-- Evaluation first moves the insertion point to the block of its request. -/
theorem Node.outcome_resolve (forms : FormTable) (node : Node) (request : Request)
    (unit : CompilationUnit) :
    (node.resolve forms request).outcome unit =
      (node.resolve forms request).outcome (unit.positioned request.block) := by
  cases node with
  | atom token => exact FormM.outcome_bind_congr rfl
  | list items span => exact FormM.outcome_bind_congr rfl

/-- It does so before anything else, unless it fails at once. -/
theorem Evaluation.outcome_action (forms : FormTable) (evaluation : Evaluation) (request : Request)
    (unit : CompilationUnit) :
    (evaluation.action forms request).outcome unit =
        (evaluation.action forms request).outcome (unit.positioned request.block) ∨
      ∃ error, (evaluation.action forms request).outcome unit =
        (.error error, { unit with log := unit.log.push error.diagnostic }) := by
  cases evaluation with
  | any node => exact .inl (node.outcome_resolve forms request unit)
  | token node =>
    cases node with
    | atom token => exact .inl ((Node.atom token).outcome_resolve forms request unit)
    | list items span => exact .inl (FormM.outcome_bind_congr rfl)
  | member base field =>
    change (FormM.resolveField _ _ _).outcome unit = (FormM.resolveField _ _ _).outcome _ ∨
      ∃ error, (FormM.resolveField _ _ _).outcome unit = _
    rw [FormM.resolveField_eq, FormM.outcome_bind, FormM.outcome_bind]
    have h := base.outcome_resolve forms (request.nested true) unit
    cases hname : (Node.operand forms field).node.fieldName with
    | error error => exact .inr ⟨error, rfl⟩
    | ok name => exact .inl (FormM.outcome_bind_congr h)
  | assign target value =>
    exact .inl (FormM.outcome_bind_congr
      (target.outcome_resolve forms (request.nested true) unit))

/-- From a typed unit, an evaluation leaves a typed unit and answers soundly. -/
theorem Evaluation.sound (evaluation : Evaluation) (request : Request) {unit : CompilationUnit}
    (typed : unit.Typed) (hasBlock : unit.HasBlock request.block) :
    ((evaluation.action .core request).outcome unit).2.Typed ∧
      ∀ result, ((evaluation.action .core request).outcome unit).1 = .ok result →
        result.Sound ((evaluation.action .core request).outcome unit).2 request.block
          request.address := by
  rcases evaluation.outcome_action .core request unit with same | ⟨error, failed⟩
  · have ready := typed.ready hasBlock
    obtain ⟨effects, sound⟩ := evaluation.evaluates_action request ready
    rw [same]
    exact ⟨(effects.ready ready).typed, sound⟩
  · rw [failed]
    exact ⟨typed.same rfl (.refl _) id rfl, nofun⟩

namespace CompilationUnit

theorem typed_new (name : String) (target : Target) (limit : Nat) :
    (CompilationUnit.new name target limit).Typed where
  module id v hv := by
    change (#[] : Array Value)[id.index]? = some v at hv
    simp at hv
  locals hx := by
    obtain ⟨scope, hs, -⟩ := hx
    cases hs
  globals hx := nomatch hx

variable {unit : CompilationUnit}

theorem Typed.define (h : unit.Typed) {defined : Except RegistryError Registry}
    (grows : ∀ types, defined = .ok types → unit.types.Extends types) :
    (unit.define defined).Typed := by
  cases defined with
  | ok types => exact h.same rfl (grows types rfl) id rfl
  | error error => exact h

theorem Typed.enterFunction (h : unit.Typed) (name : String) : (unit.enterFunction name).2.Typed := by
  refine h.grow (unit.builder.extends_createFunction name) (.refl _) ?_ ?_ .inl
  · intro id v hv hold
    have same : (unit.builder.createFunction name).2.2.module.value? id = unit.module.value? id := by
      rw [Builder.createFunction_eq]
      rfl
    change (unit.builder.createFunction name).2.2.module.value? id = some v at hv
    rw [same, hold] at hv
    cases hv
  · rintro x ⟨scope, hs, hx⟩
    rcases List.mem_cons.mp hs with rfl | old
    · cases hx
    · exact .inl ⟨scope, old, hx⟩

theorem Typed.popScope (h : unit.Typed) : unit.popScope.Typed := by
  refine h.same rfl (.refl _) ?_ rfl
  rintro x ⟨scope, hs, hx⟩
  exact ⟨scope, List.mem_of_mem_tail hs, hx⟩

theorem Typed.pushScope (h : unit.Typed) : unit.pushScope.Typed := by
  refine h.same rfl (.refl _) ?_ rfl
  rintro x ⟨scope, hs, hx⟩
  rcases List.mem_cons.mp hs with rfl | old
  · cases hx
  · exact ⟨scope, old, hx⟩

end CompilationUnit

/-- A new binding is the only variable that a scope stack gains by it. -/
theorem ScopeStack.mem_of_bind? {stack : ScopeStack} {binding x : Variable} {scope : List Variable}
    (hs : scope ∈ ((stack.bind? binding).getD stack).scopes) (hx : x ∈ scope) :
    x = binding ∨ ∃ scope ∈ stack.scopes, x ∈ scope := by
  cases h : stack.bind? binding with
  | none =>
    rw [h] at hs
    exact .inr ⟨scope, hs, hx⟩
  | some later =>
    rw [h] at hs
    unfold bind? at h
    split at h
    · cases h
    · rename_i inner outer hstack
      split at h
      · cases h
        rcases List.mem_cons.mp hs with rfl | old
        · rcases List.mem_append.mp hx with old | new
          · exact .inr ⟨inner, by simp [hstack], old⟩
          · exact .inl (List.mem_singleton.mp new)
        · exact .inr ⟨scope, by simp [hstack, old], hx⟩
      · cases h

/-- A declared local is a new stack slot in the innermost scope. -/
theorem FormM.outcome_declareLocal (name : String) (ty : Ty) (unit : CompilationUnit) :
    (declareLocal name ty).outcome unit =
      if unit.scopes.canBind name then
        let slot := unit.builder.alloca ty name
        let binding : Variable := ⟨name, name, ty, slot.1, none⟩
        (.ok binding, { unit with
          builder := slot.2, scopes := (unit.scopes.bind? binding).getD unit.scopes })
      else (fail (.redefinition name) .dummy).outcome unit := by
  simp only [declareLocal]
  rw [outcome_bind, outcome_get]
  dsimp only
  split <;> rfl

theorem CompilationUnit.Typed.declareLocal {unit : CompilationUnit} (h : unit.Typed) (name : String)
    (ty : Ty) : ((FormM.declareLocal name ty).outcome unit).2.Typed := by
  rw [FormM.outcome_declareLocal]
  split
  · have hm := unit.builder.extends_pushInstruction (.alloca ty name) (.pointerTo ty)
    have hv := unit.builder.value?_pushInstruction (.alloca ty name) (.pointerTo ty)
    refine h.grow hm (.refl _) ?_ ?_ .inl
    · intro id v hnew hold
      have hnew := (hv id).symm.trans hnew
      split at hnew
      · cases hnew
        exact .instruction _ (.alloca ty name)
      · exact absurd (hold.symm.trans hnew) nofun
    · rintro x ⟨scope, hs, hx⟩
      rcases ScopeStack.mem_of_bind? hs hx with rfl | old
      · refine .inr ⟨name, unit.builder.block?, ?_⟩
        exact (hv _).trans (if_pos (Builder.pushInstruction_fst ..))
      · exact .inl old
  · exact h.same rfl (.refl _) id rfl

theorem CompilationUnit.Typed.declareGlobal {unit : CompilationUnit} (h : unit.Typed) (name : String)
    (ty : Ty) (linkage : Linkage) (init? : Option Constant) :
    ((FormM.declareGlobal name ty linkage init?).outcome unit).2.Typed := by
  simp only [FormM.declareGlobal]
  rw [FormM.outcome_registerGlobal]
  split
  · exact h.same rfl (.refl _) id rfl
  · split
    · exact h.same rfl (.refl _) id rfl
    · rename_i id address builder hadded
      have hv := unit.builder.value?_addGlobal? hadded
      refine h.grow (unit.builder.extends_addGlobal? hadded) (.refl _) ?_ .inl ?_
      · intro other v hnew hold
        have hnew := (hv other).symm.trans hnew
        split at hnew
        · cases hnew
          exact .globalAddress ((unit.builder.global?_addGlobal? hadded id).trans (if_pos rfl))
        · exact absurd (hold.symm.trans hnew) nofun
      · intro x hx
        rcases List.mem_append.mp hx with old | new
        · exact .inl old
        · cases List.mem_singleton.mp new
          exact .inr ⟨id, (hv address).trans (if_pos rfl)⟩

theorem CompilationUnit.Typed.perform {unit : CompilationUnit} (h : unit.Typed)
    {operation : Operation} (admissible : operation.Admissible unit) :
    (unit.perform operation).Typed := by
  cases operation with
  | declareStruct name => exact h.same rfl (unit.types.extends_declareStruct name) id rfl
  | defineStruct name params fields => exact h.define fun _ => Registry.extends_defineStruct
  | defineEnum name underlying members => exact h.define fun _ => Registry.extends_defineEnum
  | enterFunction name => exact h.enterFunction name
  | pushScope => exact h.pushScope
  | popScope => exact h.popScope
  | declareLocal name ty => exact h.declareLocal name ty
  | declareGlobal name ty linkage init? => exact h.declareGlobal name ty linkage init?
  | evaluate evaluation request => exact (evaluation.sound request h admissible).1
  | parseType node =>
    change ((FormM.check (node.typeName unit.types)).outcome unit).2.Typed
    cases node.typeName unit.types with
    | ok ty => exact h
    | error error => exact h.same rfl (.refl _) id rfl
  | alignment ty => exact h.same rfl (.refl _) id rfl
  | size ty => exact h.same rfl (.refl _) id rfl
  | fieldOffset ty index => exact h.same rfl (.refl _) id rfl
  | fail fault span => exact h.same rfl (.refl _) id rfl
  | rollback mark => exact h.same rfl (.refl _) id rfl

theorem Reachable.typed {unit : CompilationUnit} (h : Reachable unit) : unit.Typed := by
  induction h with
  | new name target limit => exact CompilationUnit.typed_new name target limit
  | perform _ _ admissible ih => exact ih.perform admissible

/-- The types of an answer agree with the types that the module records. -/
structure TypedValue.Agrees (result : TypedValue) (module : Module) : Prop where
  value : ∃ ty, module.typeOf? result.value = some ty ∧ ty.Similar result.ty
  place : ∀ place, result.place? = some place → ∃ stored, place.ty = .pointerTo stored ∧
    (∃ ty, module.typeOf? place.value = some ty ∧ ty.Similar place.ty) ∧
    (result.ty = stored ∨
      ∃ length element, stored = .array length element ∧ result.ty = .pointerTo element)

/-- Every load and every store of the module goes through a pointer, which a load agrees with
exactly and a store up to the const flag of the outermost pointer. -/
structure Module.AccessesAgree (module : Module) : Prop where
  load : ∀ id pointer ty block?,
    module.value? id = some ⟨.instruction (.load pointer), ty, block?⟩ →
    (module.typeOf? pointer).bind Ty.pointee? = some ty
  store : ∀ id value pointer ty block?,
    module.value? id = some ⟨.instruction (.store value pointer), ty, block?⟩ →
    ∃ source stored, module.typeOf? value = some source ∧
      (module.typeOf? pointer).bind Ty.pointee? = some stored ∧ source.Similar stored

theorem Module.Typed.accessesAgree {module : Module} {types : Registry} (h : module.Typed types) :
    module.AccessesAgree where
  load id pointer ty block? hv := by
    have typed := h id _ hv
    cases typed with
    | instruction _ typed =>
      cases typed with
      | load hp => rw [hp]; rfl
  store id value pointer ty block? hv := by
    have typed := h id _ hv
    cases typed with
    | instruction _ typed =>
      cases typed with
      | @store _ _ source stored _ hp hsource similar =>
        refine ⟨source, stored, hsource, ?_, similar⟩
        rw [hp]
        rfl

theorem TypedValue.Sound.agrees {result : TypedValue} {unit : CompilationUnit} {block : BlockId}
    {address : Bool} (h : result.Sound unit block address) : result.Agrees unit.module where
  value := h.value.typed
  place place hplace := by
    obtain ⟨-, holds, stored, hstored, how⟩ := h.place hplace
    exact ⟨stored, hstored, holds.typed, how⟩

/-- In a reachable unit, an answer has the types that the module records, in address mode it has
no place, and all loads and stores of the module agree with their pointers. -/
theorem evaluation_types_agree {unit : CompilationUnit} (reachable : Reachable unit)
    (evaluation : Evaluation) (request : Request) (hasBlock : unit.HasBlock request.block) :
    let ended := (evaluation.action .core request).outcome unit
    (∀ result, ended.1 = .ok result →
      result.Agrees ended.2.module ∧ (request.address → result.place? = none)) ∧
    ended.2.module.AccessesAgree := by
  intro ended
  obtain ⟨typed, sound⟩ := evaluation.sound request reachable.typed hasBlock
  refine ⟨fun result hresult => ?_, typed.module.accessesAgree⟩
  have sound := sound result hresult
  refine ⟨sound.agrees, ?_⟩
  intro address
  cases hplace : result.place? with
  | none => rfl
  | some place =>
    obtain ⟨value, -⟩ := sound.place hplace
    exact absurd (address.symm.trans value) nofun

/-- A routine with a pointer that may write to characters and one that may not. -/
def CompilationUnit.twoPointers : CompilationUnit :=
  (((new "m" .x86_64 0).perform (.enterFunction "f")).perform
    (.declareLocal "reader" (.constPointerTo .char))).perform
    (.declareLocal "writer" (.pointerTo .char))

/-- An assignment gives up the right to write in the type of its answer, not in the module. -/
theorem assignment_types_agree :
    let name (text : String) : Node := .atom ⟨.identifier, text, .dummy⟩
    let ended := ((Evaluation.assign (name "reader") (name "writer")).action .core
      { block := ⟨0⟩ }).outcome .twoPointers
    (∃ result, ended.1 = .ok result ∧ result.ty = .constPointerTo .char ∧
      ended.2.module.typeOf? result.value = some (.pointerTo .char) ∧
      result.Agrees ended.2.module) ∧ ended.2.module.AccessesAgree := by
  intro name ended
  have reachable : Reachable .twoPointers :=
    .perform (.declareLocal "writer" _) (.perform (.declareLocal "reader" _)
      (.perform (.enterFunction "f") (.new "m" .x86_64 0) trivial) trivial) trivial
  obtain ⟨answers, accesses⟩ := evaluation_types_agree reachable
    (.assign (name "reader") (name "writer")) { block := ⟨0⟩ } rfl
  exact ⟨⟨_, rfl, rfl, rfl, (answers _ rfl).1⟩, accesses⟩

end FormLowering
