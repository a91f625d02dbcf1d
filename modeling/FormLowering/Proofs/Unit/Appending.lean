import FormLowering.Proofs.Form.Strings
import FormLowering.Proofs.Ty.Exact

/-!
Evaluation only appends. Whether it succeeds or fails, what was there stays as it was, the block of
the request gains the new instructions in the order of their numbers, and the module and the unit's
namespace gain the strings. The table of forms is no part of a unit, so nothing can change it.
-/

namespace FormLowering

/-- What is new stands in the block, and the rest of the module is as it was. -/
structure Module.Confined (block : BlockId) (module later : Module) : Prop where
  grows : module.Extends later
  name : later.name = module.name
  functions : later.functions = module.functions
  elsewhere : ∀ {other}, other ≠ block → later.block? other = module.block? other
  placed : ∀ {id instruction ty block?}, module.value? id = none →
    later.value? id = some ⟨.instruction instruction, ty, block?⟩ → block? = some block

namespace Module

variable {block : BlockId} {module mid later : Module}

theorem Confined.trans (first : module.Confined block mid) (rest : mid.Confined block later) :
    module.Confined block later where
  grows := first.grows.trans rest.grows
  name := rest.name.trans first.name
  functions := rest.functions.trans first.functions
  elsewhere other := (rest.elsewhere other).trans (first.elsewhere other)
  placed {id _ _ _} new hv := by
    cases halfway : mid.value? id with
    | none => exact rest.placed halfway hv
    | some w =>
      cases (rest.grows.value halfway).symm.trans hv
      exact first.placed new halfway

theorem Confined.refl (block : BlockId) (module : Module) : module.Confined block module where
  grows := .refl module
  name := rfl
  functions := rfl
  elsewhere _ := rfl
  placed new hv := by cases new.symm.trans hv

/-- A block gains the new instructions that record it, each once and in the order of their
numbers. -/
theorem WellFormed.gained (h : module.WellFormed) (wellFormed : later.WellFormed)
    (grows : module.Extends later) {b : Block} {more : List ValueId}
    (hb : module.block? block = some b)
    (hb' : later.block? block = some { b with instructions := b.instructions ++ more }) :
    more.Pairwise (·.index < ·.index) ∧ ∀ id, id ∈ more ↔ module.value? id = none ∧
      ∃ instruction ty, later.value? id = some ⟨.instruction instruction, ty, some block⟩ := by
  refine ⟨(List.pairwise_append.mp (wellFormed.increasing hb')).2.1, fun id => ?_⟩
  constructor
  · intro mem
    have here : id ∈ b.instructions ++ more := List.mem_append_right _ mem
    obtain ⟨⟨kind, ty, block?⟩, hv⟩ := Option.isSome_iff_exists.mp (wellFormed.known hb' here)
    obtain rfl : block? = some block := wellFormed.block_of_mem hb' hv here
    obtain ⟨⟨instruction, rfl⟩, -⟩ := wellFormed.recorded hv rfl
    exact ⟨h.new_of_mem wellFormed grows hb hb' mem, instruction, ty, hv⟩
  · rintro ⟨new, instruction, ty, hv⟩
    have listed := wellFormed.listed hv hb'
    rw [if_pos rfl] at listed
    have here : id ∈ b.instructions ++ more := List.count_pos_iff.mp (listed ▸ Nat.one_pos)
    refine (List.mem_append.mp here).resolve_left fun old => ?_
    have known := h.known hb old
    rw [new] at known
    cases known

end Module

/-- A change by an evaluation in a block is confined to the block. -/
theorem Effect.confined {block : BlockId} {unit later : CompilationUnit}
    (h : Effect block unit later) (position : unit.builder.block? = some block) :
    unit.module.Confined block later.module := by
  have grows := h.grows
  cases h with
  | @instruction instruction ty =>
    have pushed := Builder.pushInstruction_snd unit.builder position instruction ty
    refine ⟨grows, ?_, ?_, fun {other} differ => ?_, fun {id _ _ _} new hv => ?_⟩
    · exact congrArg (·.module.name) pushed
    · exact congrArg (·.module.functions) pushed
    · exact (Builder.block?_pushInstruction unit.builder position instruction ty other).trans
        (if_neg (Ne.symm differ))
    · cases eq_of_added (unit.builder.value?_pushInstruction instruction ty id) new hv
      exact position
  | constant =>
    refine ⟨grows, rfl, rfl, fun _ => rfl, fun {id _ _ _} new hv => ?_⟩
    cases eq_of_added (unit.builder.value?_pushValue _ id) new hv
  | string _ added =>
    have pushed := unit.builder.addGlobal?_eq_some added
    refine ⟨grows, ?_, ?_, fun {other} _ => ?_, fun {id _ _ _} new hv => ?_⟩
    · exact congrArg (·.2.2.module.name) pushed
    · exact congrArg (·.2.2.module.functions) pushed
    · exact congrArg (·.2.2.module.block? other) pushed
    · cases eq_of_added (unit.builder.value?_addGlobal? added id) new hv
  | record => exact .refl block _

theorem Effects.confined {block : BlockId} {unit later : CompilationUnit}
    (h : Effects block unit later) (position : unit.builder.block? = some block) :
    unit.module.Confined block later.module :=
  (h.keeps (P := fun u => u.builder.block? = some block ∧ unit.module.Confined block u.module)
    (fun step held => ⟨step.position.trans held.1, held.2.trans (step.confined held.1)⟩)
    ⟨position, .refl block _⟩).2

theorem Effects.target {block : BlockId} {unit later : CompilationUnit}
    (h : Effects block unit later) : later.target = unit.target :=
  h.keeps (P := fun u => u.target = unit.target) (fun step same => step.target.trans same) rfl

namespace CompilationUnit

/-- The later unit has all that the unit has, as it was, and new code in the block. -/
structure Appends (unit later : CompilationUnit) (block : BlockId) : Prop where
  types : later.types = unit.types
  target : later.target = unit.target
  scopes : later.scopes = unit.scopes
  name : later.module.name = unit.module.name
  functions : later.module.functions = unit.module.functions
  value : ∀ {id v}, unit.module.value? id = some v → later.module.value? id = some v
  /-- A name that leads to a global goes on leading to it. -/
  named : ∀ {name id}, unit.module.globalNamed? name = some id →
    later.module.globalNamed? name = some id
  elsewhere : ∀ {other}, other ≠ block → later.module.block? other = unit.module.block? other
  /-- The block keeps its code and gains the new instructions, in the order of their numbers. -/
  gained : ∃ b new, unit.module.block? block = some b ∧
    later.module.block? block = some { b with instructions := b.instructions ++ new } ∧
    new.Pairwise (·.index < ·.index) ∧
    ∀ id, id ∈ new ↔ unit.module.value? id = none ∧ (later.module.instruction? id).isSome
  operands : ∀ {id instruction}, unit.module.value? id = none →
    later.module.instruction? id = some instruction →
    ∀ operand ∈ instruction.operands, operand.index < id.index

variable {unit : CompilationUnit}

theorem appends_resolve (reachable : Reachable unit) (node : Node) {request : Request}
    (hasBlock : unit.HasBlock request.block) :
    unit.Appends ((node.resolve .core request).outcome unit).2 request.block := by
  have linked := (Reachable.perform (.evaluate (.any node) request) reachable hasBlock).linked
  change ((node.resolve .core request).outcome unit).2.Linked at linked
  obtain ⟨effects, -⟩ := node.evaluates_resolve request (reachable.typed.ready hasBlock)
  rw [← node.outcome_resolve] at effects
  generalize ((node.resolve .core request).outcome unit).2 = later at linked effects ⊢
  have confined : unit.module.Confined request.block later.module := effects.confined rfl
  have wellFormed := linked.builder.module
  refine ⟨effects.types, effects.target, effects.scopes, confined.name, confined.functions,
    confined.grows.value, fun led => ?_, confined.elsewhere, ?_, fun new found => ?_⟩
  · obtain ⟨g, hg, same⟩ := reachable.linked.builder.module.named.mp led
    exact wellFormed.named.mpr ⟨g, confined.grows.global hg, same⟩
  · obtain ⟨b, hb⟩ := Option.isSome_iff_exists.mp hasBlock
    obtain ⟨more, hb'⟩ := confined.grows.block hb
    obtain ⟨increasing, gained⟩ :=
      reachable.linked.builder.module.gained wellFormed confined.grows hb hb'
    refine ⟨b, more, hb, hb', increasing, fun id => (gained id).trans ?_⟩
    constructor
    · rintro ⟨new, instruction, ty, hv⟩
      have found := Module.instruction?_eq_some hv
      exact ⟨new, Option.isSome_of_mem found⟩
    · rintro ⟨new, isSome⟩
      obtain ⟨instruction, found⟩ := Option.isSome_iff_exists.mp isSome
      obtain ⟨ty, block?, hv⟩ := Module.value?_of_instruction? found
      exact ⟨new, instruction, ty, confined.placed new hv ▸ hv⟩
  · obtain ⟨ty, block?, hv⟩ := Module.value?_of_instruction? found
    exact wellFormed.operands hv

/-- Evaluation only appends, whether it succeeds or fails. It adds code to the block of the request,
and one internal constant global for each string token that is accepted in the course of it, under
the same name in the module and in the namespace; everything else stays as it was. -/
theorem evaluation_appends (reachable : Reachable unit) (node : Node) (request : Request)
    (hasBlock : unit.HasBlock request.block) :
    let later := ((node.resolve .core request).outcome unit).2
    unit.Appends later request.block ∧ ∃ strings added,
      later.module.globals.toList = unit.module.globals.toList ++ added ∧
      later.globals = unit.globals ++ added.map Global.variable ∧
      (∀ g ∈ added, g.linkage = .internal ∧ g.isConstant = true) ∧
      List.Forall₂ Task.Stores strings added ∧ strings.Nodup ∧
      ∀ part, part ∈ strings ↔
        Relation.ReflTransGen Task.Asks ⟨node, request, unit⟩ part ∧ ∃ g, part.Stores g := by
  intro later
  have linked : later.Linked :=
    (Reachable.perform (.evaluate (.any node) request) reachable hasBlock).linked
  obtain ⟨strings, added, lists⟩ := node.listed request unit
  refine ⟨appends_resolve reachable node hasBlock, strings, added, lists.globals, ?_, ?_,
    lists.stores, lists.nodup, lists.complete⟩
  · rw [linked.globals, reachable.linked.globals, lists.globals, List.map_append]
  · intro g mem
    obtain ⟨part, stores⟩ := lists.stores.exists_left g mem
    cases stores
    exact ⟨rfl, rfl⟩

/-- The node `(setf writer (setf reader "ab"))`. -/
def storedTwice : Node :=
  let name (text : String) : Node := .atom ⟨.identifier, text, .dummy⟩
  .list [name "setf", name "writer",
    .list [name "setf", name "reader", .atom ⟨.string, "ab", .dummy⟩] .dummy] .dummy

/-- The pointer to the string may not be written through, so the outer assignment fails; the string
stays, and so does the code of the inner one. -/
theorem failed_evaluation_appends :
    let ended := (storedTwice.resolve .core { block := ⟨0⟩ }).outcome twoPointers
    ended.1 = .error ⟨.typeMismatch (.pointerTo .char) (.constPointerTo .char), .dummy⟩ ∧
      twoPointers.Appends ended.2 ⟨0⟩ ∧ ended.2.globals.map (·.name) = ["_kv0"] := by
  intro ended
  have reachable : Reachable twoPointers :=
    .perform (.declareLocal "writer" _) (.perform (.declareLocal "reader" _)
      (.perform (.enterFunction "f") (.new "m" .x86_64 0) trivial) trivial) trivial
  obtain ⟨appends, -⟩ := evaluation_appends reachable storedTwice { block := ⟨0⟩ } rfl
  have names : ((storedTwice.resolve .core { block := ⟨0⟩ }).outcome twoPointers).2.globals.map
      (·.name) = ["_kv0"] := by
    decide +kernel
  have failed : ((storedTwice.resolve .core { block := ⟨0⟩ }).outcome twoPointers).1 =
      .error ⟨.typeMismatch (.pointerTo .char) (.constPointerTo .char), .dummy⟩ := by
    decide +kernel
  exact ⟨failed, appends, names⟩

end CompilationUnit
end FormLowering
