import FormLowering.Proofs.Form.Change
import FormLowering.Proofs.Unit.Emission

/-!
The namespace of a unit. It lists the globals of the module, each with the address that the module
gives it, whatever was declared, stored or refused; so a generated name is new to both, and no
string is ever refused for its name.
-/

namespace FormLowering

/-- The variable that a unit knows a global as. -/
def Global.variable (g : Global) : Variable := ⟨g.name, g.name, g.ty, g.address, some g.linkage⟩

/-- A typed access goes through a pointer. -/
theorem Instruction.Typed.directed {module : Module} {types : Registry} {instruction : Instruction}
    {ty : Ty} (h : instruction.Typed module types ty) (block? : Option BlockId) :
    module.isMisdirected ⟨.instruction instruction, ty, block?⟩ = false := by
  cases h with
  | alloca | element | field => rfl
  | load pointer | store pointer =>
    simp only [Module.isMisdirected]
    rw [pointer]
    rfl

namespace CompilationUnit

/-- The builder is consistent, and the namespace lists the globals of its module. -/
structure Linked (unit : CompilationUnit) : Prop where
  builder : unit.builder.Consistent
  globals : unit.globals = unit.module.globals.toList.map Global.variable

variable {unit later : CompilationUnit}

/-- Tables that hold no code and no names do not matter. -/
theorem Linked.same (h : unit.Linked) (builder : later.builder = unit.builder)
    (globals : later.globals = unit.globals) : later.Linked where
  builder := builder ▸ h.builder
  globals := by
    rw [globals, h.globals, module, module, builder]

/-- An edit that adds no global. -/
theorem Linked.edit (h : unit.Linked) (edit : Builder.Edit) (known : edit.Known unit.module)
    (builder : later.builder = unit.builder.edit edit) (globals : later.globals = unit.globals)
    (kept : (unit.builder.edit edit).module.globals = unit.module.globals) : later.Linked where
  builder := builder ▸ h.builder.edit known
  globals := by
    rw [globals, h.globals, module, module, builder, kept]
    rfl

theorem Linked.instruction (h : unit.Linked) (instruction : Instruction) {ty : Ty}
    (known : ∀ operand ∈ instruction.operands, (unit.module.value? operand).isSome)
    (directed : unit.module.isMisdirected ⟨.instruction instruction, ty, unit.builder.block?⟩ = false)
    (builder : later.builder = (unit.builder.pushInstruction instruction ty).2)
    (globals : later.globals = unit.globals) : later.Linked where
  builder := by
    rw [builder]
    refine h.builder.instruction unit.builder rfl rfl known ?_
    rw [show unit.builder.module = unit.module from rfl, directed]
    rfl
  globals := by
    rw [globals, h.globals, module, module, builder, unit.builder.globals_pushInstruction]

/-- A new global is the last of the module and of the namespace. -/
theorem Linked.addGlobal (h : unit.Linked) {name : String} {ty : Ty} {linkage : Linkage}
    {isConstant : Bool} {init? : Option Constant} {added : GlobalId × ValueId × Builder}
    (hadded : unit.builder.addGlobal? name ty linkage isConstant init? = some added)
    (builder : later.builder = added.2.2)
    (globals : later.globals = unit.globals ++ [⟨name, name, ty, added.2.1, some linkage⟩]) :
    later.Linked where
  builder := by
    have edited : (unit.builder.edit (.addGlobal name ty linkage isConstant init?)).Consistent :=
      h.builder.edit trivial
    simp only [Builder.edit] at edited
    rw [hadded] at edited
    exact builder ▸ edited
  globals := by
    rw [globals, h.globals, module, module, builder, unit.builder.globals_addGlobal? hadded,
      List.map_append]
    rfl

end CompilationUnit

/-- An evaluation adds to the namespace what it adds to the module. -/
theorem Effect.linked {block : BlockId} {unit later : CompilationUnit}
    (h : Effect block unit later) (linked : unit.Linked) : later.Linked := by
  cases h with
  | instruction typed _ available =>
    refine linked.instruction _ (fun operand mem => ?_) (typed.directed _) rfl rfl
    obtain ⟨v, hv, -⟩ := available operand mem
    rw [hv]
    rfl
  | constant => exact linked.edit (.constant _ _) trivial rfl rfl rfl
  | string _ added => exact linked.addGlobal added rfl rfl
  | record => exact linked.same rfl rfl

namespace CompilationUnit

variable {unit : CompilationUnit}

theorem linked_new (name : String) (target : Target) (limit : Nat) :
    (CompilationUnit.new name target limit).Linked where
  builder := Builder.consistent_ofName name
  globals := rfl

theorem Linked.enterFunction (h : unit.Linked) (name : String) :
    (unit.enterFunction name).2.Linked := by
  refine h.edit (.createFunction name) trivial rfl rfl ?_
  simp only [Builder.edit]
  rw [Builder.createFunction_eq]
  rfl

theorem Linked.declareLocal (h : unit.Linked) (name : String) (ty : Ty) :
    ((FormM.declareLocal name ty).outcome unit).2.Linked := by
  rw [FormM.outcome_declareLocal]
  split
  · exact h.instruction (.alloca ty name) nofun rfl rfl rfl
  · exact h.same rfl rfl

theorem Linked.declareGlobal (h : unit.Linked) (name : String) (ty : Ty) (linkage : Linkage)
    (init? : Option Constant) :
    ((FormM.declareGlobal name ty linkage init?).outcome unit).2.Linked := by
  simp only [FormM.declareGlobal]
  rw [FormM.outcome_registerGlobal]
  split
  · exact h.same rfl rfl
  · split
    · exact h.same rfl rfl
    · rename_i hadded
      exact h.addGlobal hadded rfl rfl

theorem Linked.evaluate (h : unit.Linked) (typed : unit.Typed) (evaluation : Evaluation)
    {request : Request} (hasBlock : unit.HasBlock request.block) :
    ((evaluation.action .core request).outcome unit).2.Linked := by
  rcases evaluation.outcome_action .core request unit with same | ⟨error, failed⟩
  · obtain ⟨effects, -⟩ := evaluation.evaluates_action request (typed.ready hasBlock)
    rw [same]
    refine effects.keeps Effect.linked ?_
    exact h.edit (.position request.block) hasBlock rfl rfl rfl
  · rw [failed]
    exact h.same rfl rfl

theorem globals_define (unit : CompilationUnit) (defined : Except RegistryError Registry) :
    (unit.define defined).globals = unit.globals := by
  cases defined <;> rfl

theorem globals_parseType (unit : CompilationUnit) (node : Node) :
    (unit.perform (.parseType node)).globals = unit.globals := by
  change ((FormM.check (node.typeName unit.types)).outcome unit).2.globals = unit.globals
  cases node.typeName unit.types <;> rfl

theorem Linked.perform (h : unit.Linked) (typed : unit.Typed) {operation : Operation}
    (admissible : operation.Admissible unit) : (unit.perform operation).Linked := by
  cases operation with
  | declareStruct | pushScope | popScope | alignment | size | fieldOffset | fail | rollback =>
    exact h.same rfl rfl
  | defineStruct name params fields => exact h.same (builder_define unit _) (globals_define unit _)
  | defineEnum name underlying members =>
    exact h.same (builder_define unit _) (globals_define unit _)
  | enterFunction name => exact h.enterFunction name
  | declareLocal name ty => exact h.declareLocal name ty
  | declareGlobal name ty linkage init? => exact h.declareGlobal name ty linkage init?
  | evaluate evaluation request => exact h.evaluate typed evaluation admissible
  | parseType node => exact h.same (builder_parseType unit node) (globals_parseType unit node)

end CompilationUnit

theorem Reachable.linked {unit : CompilationUnit} (h : Reachable unit) : unit.Linked := by
  induction h with
  | new name target limit => exact CompilationUnit.linked_new name target limit
  | perform operation reachable admissible ih => exact ih.perform reachable.typed admissible

/-! ## Names -/

/-- No two globals of a well-formed module have one name. -/
theorem Module.WellFormed.nodup {module : Module} (h : module.WellFormed) :
    (module.globals.toList.map (·.name)).Nodup := by
  rw [List.Nodup, List.pairwise_map, List.pairwise_iff_getElem]
  intro i j hi hj before same
  have first : module.global? ⟨i⟩ = some module.globals.toList[i] := by
    simp [Module.global?]
  have second : module.global? ⟨j⟩ = some module.globals.toList[j] := by
    simp [Module.global?]
  cases h.global_unique first second same
  exact Nat.lt_irrefl _ before

namespace CompilationUnit

variable {unit : CompilationUnit}

/-- The namespace of a unit and its module have the same names for the same storage. -/
structure NamesAgree (unit : CompilationUnit) : Prop where
  /-- Both have the same names, in the order of declaration. -/
  names : unit.globals.map (·.name) = unit.module.globals.toList.map (·.name)
  distinct : (unit.globals.map (·.name)).Nodup
  /-- The name table of the module has every global once, and nothing else. -/
  tabled : unit.module.names = unit.module.namedGlobals
  /-- A global is found by its name. -/
  found : ∀ id g, unit.module.global? id = some g → unit.module.globalNamed? g.name = some id
  /-- The storage of a variable is the address of the global of its name. -/
  storage : ∀ x ∈ unit.globals, ∃ id g, unit.module.globalNamed? x.name = some id ∧
    unit.module.global? id = some g ∧ g.name = x.name ∧ g.ty = x.ty ∧ g.address = x.storage ∧
    unit.module.value? x.storage = some ⟨.globalAddress id, .pointerTo x.ty, none⟩

theorem Linked.names (h : unit.Linked) :
    unit.globals.map (·.name) = unit.module.globals.toList.map (·.name) := by
  rw [h.globals, List.map_map]
  rfl

/-- The table of the module has the names of the namespace. -/
theorem Linked.mem_names_iff (h : unit.Linked) {name : String} :
    name ∈ unit.module.names.map (·.1) ↔ name ∈ unit.globals.map (·.name) := by
  have tabled : unit.module.names = unit.module.namedGlobals := h.builder.module.tabled
  rw [h.names, tabled, Module.map_fst_namedGlobals, List.mem_reverse]

theorem Linked.namesAgree (h : unit.Linked) : unit.NamesAgree where
  names := h.names
  distinct := h.names ▸ h.builder.module.nodup
  tabled := h.builder.module.tabled
  found id g hg := h.builder.module.named.mpr ⟨g, hg, rfl⟩
  storage x hx := by
    rw [h.globals] at hx
    obtain ⟨g, mem, rfl⟩ := List.mem_map.mp hx
    obtain ⟨index, found⟩ := Array.mem_iff_getElem?.mp (Array.mem_toList_iff.mp mem)
    have hg : unit.module.global? ⟨index⟩ = some g := found
    exact ⟨⟨index⟩, g, h.builder.module.named.mpr ⟨g, hg, rfl⟩, hg, rfl, rfl, rfl,
      h.builder.module.address hg⟩

end CompilationUnit

theorem Token.speculate_answers (token : Token) (request : Request) (unit : CompilationUnit)
    {error : FormError} {later : CompilationUnit} :
    (token.speculate request).outcome unit ≠ (.error error, later) := by
  intro failed
  unfold Token.speculate at failed
  rcases FormM.of_bind_error failed with failed | ⟨_, _, read, failed⟩
  · cases failed
  · cases read
    split at failed
    · cases failed
    · rcases FormM.of_bind_error failed with failed | ⟨_, _, _, failed⟩
      · rw [FormM.outcome_attempt] at failed
        split at failed <;> cases failed
      · cases failed

/-- A string literal is only ever refused for the type that the context wants. -/
theorem Token.of_string_error {token : Token} (kind : token.kind = .string) {request : Request}
    {unit later : CompilationUnit} {error : FormError}
    (failed : (token.resolve request).outcome unit = (.error error, later)) :
    ∃ wanted, request.wanted? = some wanted ∧
      error = ⟨.literalConstruction wanted token.text, token.span⟩ := by
  unfold Token.resolve at failed
  rw [kind] at failed
  rcases FormM.of_bind_error failed with failed | ⟨_, _, positioned, failed⟩
  · cases failed
  · rcases FormM.of_bind_error failed with failed | ⟨found, mid, speculated, failed⟩
    · exact absurd failed (token.speculate_answers request _)
    · cases found with
      | some result => cases failed
      | none =>
        change (token.string request).outcome mid = _ at failed
        rw [Token.string_eq] at failed
        split at failed
        · rename_i wanted hwanted refused
          cases failed
          exact ⟨wanted, hwanted, rfl⟩
        · obtain ⟨result, last, stored⟩ := token.storedString_answers request mid
          cases stored.symm.trans failed

namespace CompilationUnit

/-- Only a name that is taken is refused, and nothing but the report comes of it. -/
theorem Linked.of_declareGlobal_error (h : unit.Linked) {name : String} {ty : Ty}
    {linkage : Linkage} {init? : Option Constant} {error : FormError} {later : CompilationUnit}
    (failed : (FormM.declareGlobal name ty linkage init?).outcome unit = (.error error, later)) :
    name ∈ unit.globals.map (·.name) ∧ error = ⟨.redefinition name, .dummy⟩ ∧
      later = { unit with log := unit.log.push error.diagnostic } := by
  rw [FormM.declareGlobal, FormM.outcome_registerGlobal] at failed
  split at failed
  · rename_i bound
    cases failed
    exact ⟨Variable.isSome_named?_iff.mp bound, rfl, rfl⟩
  · split at failed
    · rename_i refused
      cases failed
      refine ⟨?_, rfl, rfl⟩
      unfold Builder.addGlobal? at refused
      split at refused
      · rename_i defined
        exact h.mem_names_iff.mp (Module.isSome_globalNamed?_iff.mp defined)
      · cases refused
    · cases failed

/-- The namespace of a reachable unit is that of its module. So the search for a generated name ends
at one that neither has; a string literal is never refused for its name, at this unit or in the
midst of an evaluation; and a global that is refused, for a name that is taken, leaves nothing but
its report. -/
theorem names_agree {unit : CompilationUnit} (reachable : Reachable unit) :
    unit.NamesAgree ∧
      (unit.SearchEnds unit.nextName unit.unusedNumber ∧
        Variable.named? unit.globals (generatedName unit.unusedNumber) = none ∧
        unit.module.globalNamed? (generatedName unit.unusedNumber) = none) ∧
      (∀ (current later : CompilationUnit) (token : Token) (request : Request) (error : FormError),
        token.kind = .string → (token.resolve request).outcome current = (.error error, later) →
        ∃ wanted, request.wanted? = some wanted ∧
          error = ⟨.literalConstruction wanted token.text, token.span⟩) ∧
      ∀ (name : String) (ty : Ty) (linkage : Linkage) (init? : Option Constant) (error : FormError)
        (later : CompilationUnit),
        (FormM.declareGlobal name ty linkage init?).outcome unit = (.error error, later) →
        name ∈ unit.globals.map (·.name) ∧ error = ⟨.redefinition name, .dummy⟩ ∧
          later = { unit with log := unit.log.push error.diagnostic } := by
  have linked := reachable.linked
  obtain ⟨unused, -, -⟩ := unit.unusedNumber_spec
  rw [isUnused, Bool.and_eq_true, Option.isNone_iff_eq_none, Option.isNone_iff_eq_none] at unused
  refine ⟨linked.namesAgree, ⟨unit.searchEnds_unusedNumber, unused⟩, ?_, ?_⟩
  · intro current later token request error kind failed
    exact token.of_string_error kind failed
  · intro name ty linkage init? error later failed
    exact linked.of_declareGlobal_error failed

/-- A string is stored between two globals that have names of the generated form. -/
def betweenNames : CompilationUnit :=
  (((((new "m" .x86_64 0).perform (.declareGlobal "_kv0" .bool .external none)).perform
    (.enterFunction "f")).perform
    (.evaluate (.any (.atom ⟨.string, "hi", .dummy⟩)) { block := ⟨0⟩ })).perform
    (.declareGlobal "_kv2" .bool .internal none)).perform (.declareGlobal "_kv1" .bool .internal none)

/-- Each search skips the name that stands in its way. -/
theorem betweenNames_agree :
    betweenNames.module.globals.toList.map (·.name) = ["_kv0", "_kv1", "_kv2"] ∧
      betweenNames.NamesAgree ∧ betweenNames.SearchEnds 2 3 := by
  have hasBlock : (((new "m" .x86_64 0).perform (.declareGlobal "_kv0" .bool .external none)).perform
      (.enterFunction "f")).HasBlock ⟨0⟩ := by
    unfold HasBlock
    decide +kernel
  have reachable : Reachable betweenNames :=
    .perform _ (.perform _ (.perform _ (.perform _ (.perform _ (.new "m" .x86_64 0) trivial) trivial)
      hasBlock) trivial) trivial
  obtain ⟨agree, ⟨ends, -⟩, -⟩ := names_agree reachable
  refine ⟨by decide +kernel, agree, ?_⟩
  have first : betweenNames.nextName = 2 := by decide +kernel
  have last : betweenNames.unusedNumber = 3 := by decide +kernel
  rw [first, last] at ends
  exact ends

end CompilationUnit
end FormLowering
