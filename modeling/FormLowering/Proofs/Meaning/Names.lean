import FormLowering.Proofs.Meaning.Access

/-!
Names. Corresponding states have the same names in use and the same numbers of objects, so a name is
found, generated and given to a new global alike.
-/

namespace FormLowering

variable {program : Program} {unit : CompilationUnit} {machine : Machine} {store : Store}

section Lists

variable {module : Module} {vars : List Variable} {bindings : List Binding}

/-- Corresponding lists have the same name first, or both do not have it. -/
theorem Variable.denotes_find
    (h : List.Forall₂ (fun x => x.Denotes program module machine) vars bindings) (name : String) :
    (Variable.named? vars name = none ∧ bindings.find? (·.name == name) = none) ∨
      ∃ x binding, Variable.named? vars name = some x ∧
        bindings.find? (·.name == name) = some binding ∧ x.Denotes program module machine binding := by
  simp only [Variable.named?]
  induction h with
  | nil => exact .inl ⟨rfl, rfl⟩
  | @cons x binding vars bindings hx _ ih =>
    rw [List.find?_cons, List.find?_cons, ← hx.name]
    cases x.name == name with
    | true => exact .inr ⟨x, binding, rfl, rfl, hx⟩
    | false => exact ih

theorem Variable.denotes_findSome {scopes : List (List Variable)} {inner : List (List Binding)}
    (h : List.Forall₂ (List.Forall₂ fun x => x.Denotes program module machine) scopes inner)
    (name : String) :
    (scopes.findSome? (Variable.named? · name) = none ∧
        inner.findSome? (·.find? (·.name == name)) = none) ∨
      ∃ x binding, scopes.findSome? (Variable.named? · name) = some x ∧
        inner.findSome? (·.find? (·.name == name)) = some binding ∧
        x.Denotes program module machine binding := by
  induction h with
  | nil => exact .inl ⟨rfl, rfl⟩
  | cons hscope _ ih =>
    rw [List.findSome?_cons, List.findSome?_cons]
    rcases denotes_find hscope name with ⟨hx, hb⟩ | ⟨x, binding, hx, hb, hdenotes⟩
    · rw [hx, hb]
      exact ih
    · rw [hx, hb]
      exact .inr ⟨x, binding, rfl, rfl, hdenotes⟩

end Lists

/-- A name that the unit knows means the same object to direct evaluation. -/
theorem Related.lookup (related : Related program unit machine store) {name : String} {x : Variable}
    (h : unit.lookup? name = some x) : ∃ binding, store.lookup? name = some binding ∧
      x.Denotes program unit.module machine binding := by
  unfold CompilationUnit.lookup? ScopeStack.lookup? at h
  simp only [Store.lookup?]
  rcases Variable.denotes_findSome related.scopes name with ⟨hx, hb⟩ | ⟨y, binding, hy, hb, hdenotes⟩
  · rw [hx, Option.none_or] at h
    rw [hb, Option.none_or]
    rcases Variable.denotes_find related.globals name with ⟨hx, _⟩ | ⟨y, binding, hy, hb, hdenotes⟩
    · rw [hx] at h
      cases h
    · rw [hy] at h
      cases h
      exact ⟨binding, hb, hdenotes⟩
  · rw [hy, Option.some_or] at h
    cases h
    rw [hb, Option.some_or]
    exact ⟨binding, rfl, hdenotes⟩

theorem Related.isUnused (related : Related program unit machine store) (name : String) :
    unit.isUnused name = store.isUnused name := by
  have globals : (Variable.named? unit.globals name).isNone =
      (store.globals.find? (·.name == name)).isNone := by
    rcases Variable.denotes_find related.globals name with ⟨hx, hb⟩ | ⟨x, binding, hx, hb, -⟩
    · rw [hx, hb]
      rfl
    · rw [hx, hb]
      rfl
  have definitions : (unit.module.globalNamed? name).isNone =
      (store.definitions.find? (·.name == name)).isNone := by
    have same : (unit.module.globalNamed? name).isSome ↔
        (store.definitions.find? (·.name == name)).isSome := by
      rw [Module.isSome_globalNamed?_iff, related.tabled, Module.map_fst_namedGlobals,
        related.definitions]
      simp [Global.definition]
    rw [← Option.not_isSome, ← Option.not_isSome, Bool.eq_iff_iff.mpr same]
  simp only [CompilationUnit.isUnused, Store.isUnused]
  rw [globals, definitions]

theorem Related.unusedNumber (related : Related program unit machine store) :
    unit.unusedNumber = store.unusedNumber := by
  have unused : (fun n => unit.isUnused (CompilationUnit.generatedName n)) =
      fun n => store.isUnused (CompilationUnit.generatedName n) := by
    funext n
    exact related.isUnused _
  have globals : unit.globals.length = store.globals.length := related.globals.length_eq
  have definitions : unit.module.names.length = store.definitions.length := by
    rw [related.tabled, related.definitions]
    simp [Module.namedGlobals]
  unfold CompilationUnit.unusedNumber Store.unusedNumber
  dsimp only
  rw [unused, globals, definitions, related.nextName]

section Definition

variable {name : String} {ty : Ty} {linkage : Linkage} {isConstant : Bool} {init? : Option Constant}
  {added : GlobalId × ValueId × Builder}
  (h : unit.builder.addGlobal? name ty linkage isConstant init? = some added)

include h

theorem Program.value_addGlobal? (hm : added.2.2.module.Extends program.module) (machine : Machine) :
    program.value machine added.2.1 = .ok (.address ⟨.global added.1, []⟩) := by
  have hv := (unit.builder.value?_addGlobal? h added.2.1).trans (if_pos rfl)
  simp only [Program.value]
  rw [hm.value hv]

theorem Module.defines_addGlobal? : added.2.2.module.Defines added.2.1 :=
  Option.isSome_iff_exists.mpr
    ⟨_, (unit.builder.value?_addGlobal? h added.2.1).trans (if_pos rfl)⟩

/-- The next global has the same number for both. -/
theorem Related.next_global (related : Related program unit machine store) :
    added.1 = ⟨store.definitions.length⟩ := by
  rw [unit.builder.addGlobal?_eq_some h, related.definitions]
  simp [CompilationUnit.module]

/-- Data lead to the new global at most. -/
theorem Related.known_addGlobal? (related : Related program unit machine store)
    (hm : added.2.2.module.Extends program.module) {id : ValueId} {datum : Datum}
    (defined : added.2.2.module.Defines id) (hdatum : program.value machine id = .ok datum) :
    datum.Known (unit.module.globals.size + 1) := by
  by_cases new : id = added.2.1
  · rw [new, Program.value_addGlobal? h hm machine] at hdatum
    cases hdatum
    intro address holds other hother
    cases holds
    cases hother
    rw [unit.builder.addGlobal?_eq_some h]
    exact Nat.lt_succ_self _
  · have old : unit.module.Defines id := by
      unfold Module.Defines at defined
      rw [unit.builder.value?_addGlobal? h, if_neg new] at defined
      exact defined
    exact (related.values old hdatum).mono (Nat.le_succ _)

/-- A global that both define is the same new object. -/
theorem Related.define (related : Related program unit machine store)
    (hm : added.2.2.module.Extends program.module) :
    Related program
      { unit with
        builder := added.2.2
        globals := unit.globals ++ [⟨name, name, ty, added.2.1, some linkage⟩] } machine
      (store.define name ty init?) := by
  have grows := unit.builder.extends_addGlobal? h
  have globals : added.2.2.module.globals.toList = unit.module.globals.toList ++ _ :=
    unit.builder.globals_addGlobal? h
  have size : added.2.2.module.globals.size = unit.module.globals.size + 1 := by
    simpa using congrArg List.length globals
  constructor
  · exact hm
  · exact related.runs
  · exact related.types
  · exact related.target
  · exact related.layout
  · exact related.nextName
  · exact related.scopes.imp fun _ _ h => h.imp fun _ _ hx => hx.keep grows .refl
  · refine List.rel_append (related.globals.imp fun _ _ hx => hx.keep grows .refl) (.cons ?_ .nil)
    refine ⟨rfl, rfl, Module.defines_addGlobal? h, ?_⟩
    rw [← related.next_global h]
    exact Program.value_addGlobal? h hm machine
  · change store.definitions ++ _ = added.2.2.module.globals.toList.map Global.definition
    rw [related.definitions, globals, List.map_append]
    rfl
  · exact Builder.tabled_addGlobal? related.tabled h
  · exact related.memory
  · intro id datum defined hdatum
    exact size ▸ related.known_addGlobal? h hm defined hdatum
  · intro root object hobject
    exact size ▸ (related.objects hobject).mono (Nat.le_succ _)

end Definition

end FormLowering
