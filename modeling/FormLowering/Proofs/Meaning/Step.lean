import Mathlib.Tactic.ByContra
import FormLowering.Proofs.Meaning.Relation

/-!
One instruction and its direct counterpart: a read, a component of a pointer, a write. Each of them
finds the same objects in memory, since data lead only to objects that exist already.
-/

namespace FormLowering

variable {program : Program} {unit : CompilationUnit} {machine after : Machine} {store : Store}

theorem Variable.Denotes.keep {module later : Module} {x : Variable} {binding : Binding}
    (h : x.Denotes program module machine binding) (grows : module.Extends later)
    (kept : program.Kept module machine after) : x.Denotes program later after binding where
  name := h.name
  ty := h.ty
  defined := grows.defines h.defined
  value := (kept _ h.defined).trans h.value

/-- New code, reports and measurements keep a correspondence, if new data lead only to objects
that are there. -/
theorem Related.frame (related : Related program unit machine store) {builder : Builder}
    {layout measured : LayoutMemo} {log : Log} {memory : List (Root × Datum)}
    (grows : unit.module.Extends builder.module) (hm : builder.module.Extends program.module)
    (globals : builder.module.globals = unit.module.globals)
    (names : builder.module.names = unit.module.names)
    (kept : program.Kept unit.module machine after) (hlayout : layout = measured)
    (hmemory : ∀ root, memory.lookup root = after.memory.lookup root)
    (new : ∀ {id datum}, builder.module.Defines id → ¬ unit.module.Defines id →
      program.value after id = .ok datum → datum.Known unit.module.globals.size)
    (objects : ∀ {root object}, after.memory.lookup root = some object →
      object.Known unit.module.globals.size) :
    Related program { unit with builder, layout, log } after
      { store with layout := measured, memory } where
  module := hm
  runs := related.runs
  types := related.types
  target := related.target
  layout := hlayout
  nextName := related.nextName
  scopes := related.scopes.imp fun _ _ h => h.imp fun _ _ hx => hx.keep grows kept
  globals := related.globals.imp fun _ _ hx => hx.keep grows kept
  definitions := by
    change store.definitions = builder.module.globals.toList.map Global.definition
    rw [globals]
    exact related.definitions
  tabled := by
    change builder.module.names = builder.module.namedGlobals
    rw [names, related.tabled, Module.namedGlobals, Module.namedGlobals, globals]
  memory := hmemory
  values {id datum} defined hvalue := by
    change datum.Known builder.module.globals.size
    rw [globals]
    by_cases old : unit.module.Defines id
    · exact related.values old ((kept id old).symm.trans hvalue)
    · exact new defined old hvalue
  objects {root object} h := by
    change object.Known builder.module.globals.size
    rw [globals]
    exact objects h

/-- An object of a root that exists already is the same for both. -/
theorem Related.object (related : Related program unit machine store) {root : Root}
    (known : ∀ id, root = .global id → id.index < unit.module.globals.size) :
    store.object root = (program.object machine root).toOption := by
  simp only [Store.object, Program.object, Machine.object?]
  rw [related.memory root]
  cases machine.memory.lookup root with
  | some object => rfl
  | none =>
    cases root with
    | stack slot => rfl
    | global id =>
      have hlt := known id rfl
      have hold : unit.module.global? id = some unit.module.globals[id.index] :=
        Array.getElem?_eq_getElem hlt
      have hdefinition : store.definitions[id.index]? =
          some (Global.definition unit.module.globals[id.index]) := by
        rw [related.definitions]
        simp [hlt]
      have hnew := related.module.global hold
      have htypes : store.types = program.types := related.types.symm.trans related.runs.symm
      revert hdefinition hnew
      generalize unit.module.globals[id.index] = found
      obtain ⟨name, ty, linkage, isConstant, init?, address⟩ := found
      intro hdefinition hnew
      unfold Store.initial Program.initial
      dsimp only
      rw [hdefinition, hnew, htypes]
      cases init? with
      | none => rfl
      | some init => rfl

theorem Related.read (related : Related program unit machine store) {address : Address}
    (known : (Datum.address address).Known unit.module.globals.size) :
    store.read address = (program.read machine address).toOption := by
  simp only [Store.read, Program.read]
  rw [related.object fun id hid => known address (.here address) id hid]
  cases program.object machine address.root with
  | error trap => rfl
  | ok object => rfl

/-- A write goes to the object that the machine finds. -/
theorem Related.write (related : Related program unit machine store) {address : Address}
    (known : (Datum.address address).Known unit.module.globals.size) (source : Datum) :
    store.write address source =
      ((program.object machine address.root).toOption.bind fun object =>
        (Datum.set source object address.path).toOption).map fun changed =>
          { store with memory := (address.root, changed) :: store.memory } := by
  have same := related.object fun id hid => known address (.here address) id hid
  simp only [Store.write]
  rw [same]
  cases program.object machine address.root with
  | error trap => rfl
  | ok object => cases hset : Datum.set source object address.path <;> simp [hset, Except.toOption]

section Execute

variable {pointer : ValueId} {datum : Datum} (related : Related program unit machine store)
  (hpointer : program.value machine pointer = .ok datum)
  (known : datum.Known unit.module.globals.size)

include related hpointer known

end Execute

theorem Builder.Pushes.defines {builder later : Builder} {instruction : Instruction}
    (h : builder.Pushes later instruction) : later.module.Defines builder.nextValue := by
  obtain ⟨⟨ty, module⟩, -⟩ := h
  simp only [Module.Defines]
  rw [module, Builder.value?_pushInstruction, if_pos rfl]
  rfl

section Simulate

variable {pointer : ValueId} {datum : Datum} (related : Related program unit machine store)
  (defined : unit.module.Defines pointer) (hpointer : program.value machine pointer = .ok datum)

include related defined hpointer

end Simulate

end FormLowering
