import FormLowering.Proofs.Unit.Namespace
import FormLowering.Proofs.Unit.ScopeHistory

/-!
Names are lexical. What a name means in a unit is read off the operations that led to it: the latest
local that was declared under it in a scope that is still open, and otherwise the global. What is
done between the opening of a scope and its end is forgotten with it, the globals apart.
-/

namespace FormLowering

/-- What an operation does to the scopes. A local that is refused is not declared. -/
def Operation.scopeEvents (unit : CompilationUnit) : Operation → List ScopeEvent
  | .enterFunction _ | .pushScope => [.opened]
  | .popScope => [.closed]
  | .declareLocal name ty =>
    match ((FormM.declareLocal name ty).outcome unit).1 with
    | .ok x => [.declared x]
    | .error _ => []
  | _ => []

/-- The operation declares a global, and is not refused. -/
def Operation.Registers (unit : CompilationUnit) (operation : Operation) (x : Variable) : Prop :=
  ∃ name ty linkage init?, operation = .declareGlobal name ty linkage init? ∧
    ((FormM.declareGlobal name ty linkage init?).outcome unit).1 = .ok x

namespace CompilationUnit

/-- What operations do to the scopes, each performed on what the one before left. -/
def scopeHistory (unit : CompilationUnit) : List Operation → List ScopeEvent
  | [] => []
  | operation :: rest => operation.scopeEvents unit ++ (unit.perform operation).scopeHistory rest

/-- One of the operations declared the global. -/
def Registered (unit : CompilationUnit) (operations : List Operation) (x : Variable) : Prop :=
  ∃ before operation after, operations = before ++ operation :: after ∧
    operation.Registers (unit.performs before) x

theorem performs_append (unit : CompilationUnit) (first second : List Operation) :
    unit.performs (first ++ second) = (unit.performs first).performs second :=
  List.foldl_append

/-! ## Scopes -/

section Scopes

variable {start : ScopeStack} {unit : CompilationUnit} {events : List ScopeEvent}

theorem scopes_define (unit : CompilationUnit) (defined : Except RegistryError Registry) :
    (unit.define defined).scopes = unit.scopes := by
  cases defined <;> rfl

theorem scopes_parseType (unit : CompilationUnit) (node : Node) :
    (unit.perform (.parseType node)).scopes = unit.scopes := by
  have changes : Changes False unit (unit.perform (.parseType node)) :=
    FormM.Makes.parseType node unit
  exact changes.scopes

theorem scopes_declareGlobal (unit : CompilationUnit) (name : String) (ty : Ty) (linkage : Linkage)
    (init? : Option Constant) :
    ((FormM.declareGlobal name ty linkage init?).outcome unit).2.scopes = unit.scopes := by
  rw [FormM.declareGlobal, FormM.outcome_registerGlobal]
  split
  · rfl
  · split <;> rfl

/-- The events of an operation lead from its scopes to those that it leaves. -/
theorem undergoes_perform (h : ScopeStack.Undergoes start events unit.scopes)
    (operation : Operation) : ScopeStack.Undergoes start (events ++ operation.scopeEvents unit)
      (unit.perform operation).scopes := by
  have keeps {operation : Operation} (silent : operation.scopeEvents unit = [])
      (same : (unit.perform operation).scopes = unit.scopes) :
      ScopeStack.Undergoes start (events ++ operation.scopeEvents unit)
        (unit.perform operation).scopes := by
    rw [silent, List.append_nil, same]
    exact h
  cases operation with
  | enterFunction | pushScope => exact .opened h
  | popScope => exact .closed h
  | declareLocal name ty =>
    simp only [Operation.scopeEvents, perform]
    rw [FormM.outcome_declareLocal]
    by_cases room : unit.scopes.canBind name = true
    · rw [if_pos room]
      exact h.bind room
    · rw [if_neg room]
      exact (List.append_nil events).symm ▸ h
  | declareGlobal name ty linkage init? =>
    exact keeps rfl (unit.scopes_declareGlobal name ty linkage init?)
  | evaluate evaluation request => exact keeps rfl (evaluation.makes_action request unit).scopes
  | parseType node => exact keeps rfl (scopes_parseType unit node)
  | defineStruct | defineEnum => exact keeps rfl (scopes_define unit _)
  | declareStruct | alignment | size | fieldOffset | fail | rollback => exact keeps rfl rfl

theorem undergoes_performs (h : ScopeStack.Undergoes start events unit.scopes)
    (operations : List Operation) : ScopeStack.Undergoes start
      (events ++ unit.scopeHistory operations) (unit.performs operations).scopes := by
  induction operations generalizing unit events with
  | nil => exact (List.append_nil events).symm ▸ h
  | cons operation rest ih =>
    rw [scopeHistory, ← List.append_assoc]
    exact ih (undergoes_perform h operation)

/-- Operations that leave a scope open at the end that was pushed before them, and none in it, leave
the scopes around it as they were. -/
theorem scopes_bracketed {operations : List Operation}
    (above : ScopeEvent.Above (unit.pushScope.scopeHistory operations) 0) :
    (unit.pushScope.performs operations).popScope.scopes = unit.scopes := by
  have undergone : ScopeStack.Undergoes unit.pushScope.scopes
      (unit.pushScope.scopeHistory operations) (unit.pushScope.performs operations).scopes :=
    undergoes_performs .nil operations
  have outer := undergone.drop above
  rw [List.drop_one] at outer
  exact congrArg ScopeStack.mk outer

end Scopes

end CompilationUnit

/-! ## Globals -/

/-- Only strings add globals to a unit that changes, under generated names. -/
theorem Change.globals {stores : Prop} {unit later : CompilationUnit}
    (h : Change stores unit later) : ∃ new, later.globals = unit.globals ++ new ∧
      ∀ x ∈ new, CompilationUnit.isGenerated x.name = true := by
  cases h with
  | report | edit | measure => exact ⟨[], (List.append_nil _).symm, nofun⟩
  | string added =>
    refine ⟨_, rfl, fun x mem => ?_⟩
    cases List.mem_singleton.mp mem
    exact CompilationUnit.isGenerated_generatedName _

theorem Changes.globals {stores : Prop} {unit later : CompilationUnit}
    (h : Changes stores unit later) : ∃ new, later.globals = unit.globals ++ new ∧
      ∀ x ∈ new, CompilationUnit.isGenerated x.name = true := by
  induction h with
  | refl => exact ⟨[], (List.append_nil _).symm, nofun⟩
  | tail _ step ih =>
    obtain ⟨first, same, generated⟩ := ih
    obtain ⟨second, grown, more⟩ := step.globals
    exact ⟨first ++ second, by rw [grown, same, List.append_assoc],
      fun x mem => (List.mem_append.mp mem).elim (generated x) (more x)⟩

namespace CompilationUnit

variable {unit : CompilationUnit} {operations : List Operation} {x : Variable}

/-- A global is refused, or it is added to those that have other names. -/
theorem declareGlobal_cases (unit : CompilationUnit) (name : String) (ty : Ty) (linkage : Linkage)
    (init? : Option Constant) :
    let outcome := (FormM.declareGlobal name ty linkage init?).outcome unit
    (∃ error, outcome.1 = .error error ∧ outcome.2.globals = unit.globals) ∨
      ∃ x, outcome.1 = .ok x ∧ x.name = name ∧ Variable.named? unit.globals name = none ∧
        outcome.2.globals = unit.globals ++ [x] := by
  dsimp only
  rw [FormM.declareGlobal, FormM.outcome_registerGlobal]
  split
  · exact .inl ⟨_, rfl, rfl⟩
  · rename_i unbound
    split
    · exact .inl ⟨_, rfl, rfl⟩
    · exact .inr ⟨_, rfl, rfl, by simpa using unbound, rfl⟩

/-- Globals are only added: the one that an operation declares, and the strings that it stores. -/
theorem globals_perform (unit : CompilationUnit) (operation : Operation) :
    ∃ new, (unit.perform operation).globals = unit.globals ++ new ∧
      ∀ x ∈ new, isGenerated x.name = true ∨ operation.Registers unit x := by
  have keeps {operation : Operation} (same : (unit.perform operation).globals = unit.globals) :
      ∃ new, (unit.perform operation).globals = unit.globals ++ new ∧
        ∀ x ∈ new, isGenerated x.name = true ∨ operation.Registers unit x :=
    ⟨[], by rw [same, List.append_nil], nofun⟩
  cases operation with
  | declareGlobal name ty linkage init? =>
    rcases unit.declareGlobal_cases name ty linkage init? with
      ⟨error, -, same⟩ | ⟨x, declared, -, -, grown⟩
    · exact keeps same
    · refine ⟨[x], grown, fun y mem => .inr ⟨name, ty, linkage, init?, rfl, ?_⟩⟩
      rw [List.mem_singleton.mp mem]
      exact declared
  | evaluate evaluation request =>
    obtain ⟨new, grown, generated⟩ := (evaluation.makes_action request unit).globals
    exact ⟨new, grown, fun x mem => .inl (generated x mem)⟩
  | declareLocal name ty =>
    apply keeps
    simp only [perform]
    rw [FormM.outcome_declareLocal]
    split <;> rfl
  | parseType node => exact keeps (globals_parseType unit node)
  | defineStruct | defineEnum => exact keeps (globals_define unit _)
  | declareStruct | alignment | size | fieldOffset | fail | rollback => exact keeps rfl
  | enterFunction | pushScope | popScope => exact keeps rfl

theorem globals_performs (unit : CompilationUnit) (operations : List Operation) :
    ∃ new, (unit.performs operations).globals = unit.globals ++ new ∧
      ∀ x ∈ new, isGenerated x.name = true ∨ unit.Registered operations x := by
  induction operations generalizing unit with
  | nil => exact ⟨[], (List.append_nil _).symm, nofun⟩
  | cons operation rest ih =>
    obtain ⟨first, grown, made⟩ := unit.globals_perform operation
    obtain ⟨second, grownLater, madeLater⟩ := ih (unit.perform operation)
    refine ⟨first ++ second, ?_, fun x mem => ?_⟩
    · exact grownLater.trans (by rw [grown, List.append_assoc])
    · rcases List.mem_append.mp mem with early | late
      · exact (made x early).imp_right fun registers => ⟨[], operation, rest, rfl, registers⟩
      · refine (madeLater x late).imp_right ?_
        rintro ⟨before, other, after, rfl, registers⟩
        exact ⟨operation :: before, other, after, rfl, registers⟩

/-- A global keeps its name. -/
theorem named?_performs {name : String} (named : Variable.named? unit.globals name = some x)
    (operations : List Operation) :
    Variable.named? (unit.performs operations).globals name = some x := by
  obtain ⟨new, grown, -⟩ := unit.globals_performs operations
  rw [grown, Variable.named?, List.find?_append, ← Variable.named?, named, Option.some_or]

theorem Registered.named (h : unit.Registered operations x) :
    Variable.named? (unit.performs operations).globals x.name = some x := by
  obtain ⟨before, operation, after, rfl, name, ty, linkage, init?, rfl, declared⟩ := h
  rcases (unit.performs before).declareGlobal_cases name ty linkage init? with
    ⟨error, refused, -⟩ | ⟨y, added, rfl, unbound, grown⟩
  · cases refused.symm.trans declared
  · cases added.symm.trans declared
    rw [performs_append]
    change Variable.named? (((unit.performs before).perform _).performs after).globals _ = _
    refine named?_performs ?_ after
    rw [perform, grown, Variable.named?_concat, unbound, if_pos rfl, Option.none_or]

end CompilationUnit

/-! ## Names -/

namespace CompilationUnit

open ScopeEvent

/-- What the name of a unit means by its history: the latest local in a scope that is still open,
and otherwise the global. -/
def Means (unit : CompilationUnit) (history : List ScopeEvent) (name : String) (x : Variable) :
    Prop :=
  Visible history name x ∨
    (∀ y, ¬Visible history name y) ∧ Variable.named? unit.globals name = some x

/-- No scope is open, or the innermost one has declared the name. -/
def Taken (history : List ScopeEvent) (name : String) : Prop :=
  (∀ inner, ¬Happened (· = .opened) history inner) ∨ Happened (Declares name) history 0

variable {unit : CompilationUnit} {history : List ScopeEvent}

theorem lookup?_iff (h : ScopeStack.Undergoes {} history unit.scopes) (name : String)
    (x : Variable) : unit.lookup? name = some x ↔ unit.Means history name x := by
  rw [lookup?, Option.or_eq_some_iff, Option.eq_none_iff_forall_ne_some]
  simp only [ne_eq, h.lookup, Means]

theorem canBind_iff (h : ScopeStack.Undergoes {} history unit.scopes) (name : String) :
    unit.scopes.canBind name = true ↔ ¬Taken history name := by
  rw [h.canBind_iff, Taken, not_or, not_forall_not]

/-- Names are lexical, whatever was done to a unit. A name means the latest local that was declared
under it in a scope that is still open, else the global, and those are the globals that were
declared and the strings. A local is refused, for nothing but a report, where no scope is open or
the innermost one has declared its name; else it gets a slot. And a scope that is pushed and popped
again leaves every local what it was, and no other. -/
theorem names_are_lexical (unitName : String) (target : Target) (limit : Nat)
    (operations : List Operation) :
    let start := CompilationUnit.new unitName target limit
    let unit := start.performs operations
    let history := start.scopeHistory operations
    (∀ name x, unit.lookup? name = some x ↔ unit.Means history name x) ∧
      (∀ x, start.Registered operations x → Variable.named? unit.globals x.name = some x) ∧
      (∀ name x, Variable.named? unit.globals name = some x →
        x.name = name ∧ (isGenerated name = true ∨ start.Registered operations x)) ∧
      (∀ name ty,
        let outcome := (FormM.declareLocal name ty).outcome unit
        let error : FormError := ⟨.redefinition name, .dummy⟩
        (Taken history name →
          outcome = (.error error, { unit with log := unit.log.push error.diagnostic })) ∧
        (¬Taken history name →
          outcome.1 = .ok ⟨name, name, ty, (unit.builder.alloca ty name).1, none⟩ ∧
          outcome.2.builder = (unit.builder.alloca ty name).2)) ∧
      ∀ inner, Above (unit.pushScope.scopeHistory inner) 0 →
        let later := (unit.pushScope.performs inner).popScope
        ∀ name, (∀ x, Visible history name x → later.lookup? name = some x) ∧
          ((∀ x, ¬Visible history name x) →
            later.lookup? name = Variable.named? later.globals name) := by
  intro start unit history
  have begun : ScopeStack.Undergoes {} [] start.scopes := .nil
  have scopes : ScopeStack.Undergoes {} history unit.scopes := undergoes_performs begun operations
  refine ⟨lookup?_iff scopes, fun x => Registered.named, ?_, ?_, ?_⟩
  · intro name x named
    obtain ⟨new, grown, made⟩ := start.globals_performs operations
    obtain rfl : x.name = name := by simpa using List.find?_some named
    have mem : x ∈ new := List.mem_of_find?_eq_some (grown ▸ named)
    exact ⟨rfl, made x mem⟩
  · intro name ty outcome error
    have same : outcome = _ := FormM.outcome_declareLocal name ty unit
    constructor
    · intro taken
      rw [same, if_neg fun room => (canBind_iff scopes name).mp room taken]
      rfl
    · intro free
      rw [same, if_pos ((canBind_iff scopes name).mpr free)]
      exact ⟨rfl, rfl⟩
  · intro inner above later name
    have restored : later.scopes = unit.scopes := scopes_bracketed above
    rw [lookup?, restored]
    constructor
    · intro x visible
      rw [scopes.lookup.mpr visible, Option.some_or]
    · intro unseen
      have unbound : unit.scopes.lookup? name = none :=
        Option.eq_none_iff_forall_ne_some.mpr fun x found => unseen x (scopes.lookup.mp found)
      rw [unbound, Option.none_or]

/-- A local in a routine has the name of a global. -/
def shadowing : List Operation :=
  [.declareGlobal "x" .bool .internal none, .enterFunction "f", .declareLocal "x" (.primitive .int)]

/-- It is shadowed twice, a local is refused, and a global of another name is declared. -/
def shadowedTwice : List Operation :=
  [.declareLocal "x" .char, .pushScope, .declareLocal "x" .bool, .declareLocal "x" .char,
    .declareLocal "y" .bool, .popScope, .declareGlobal "y" .char .internal none]

/-- After the scope the name means the local again, and the other one the global. -/
theorem shadowed_local_restored :
    let unit := (new "m" .x86_64 0).performs shadowing
    let inside := unit.pushScope.performs shadowedTwice
    (inside.lookup? "x").map (·.ty) = some .char ∧
      Above (unit.pushScope.scopeHistory shadowedTwice) 0 ∧
      inside.popScope.lookup? "x" = some ⟨"x", "x", .primitive .int, ⟨1⟩, none⟩ ∧
      inside.popScope.lookup? "y" = Variable.named? inside.popScope.globals "y" := by
  intro unit inside
  obtain ⟨means, -, -, -, bracketed⟩ := names_are_lexical "m" .x86_64 0 shadowing
  have above : Above (unit.pushScope.scopeHistory shadowedTwice) 0 := by decide +kernel
  have history : (new "m" .x86_64 0).scopeHistory shadowing =
      [.opened, .declared ⟨"x", "x", .primitive .int, ⟨1⟩, none⟩] := by decide +kernel
  have visible : Visible ((new "m" .x86_64 0).scopeHistory shadowing) "x"
      ⟨"x", "x", .primitive .int, ⟨1⟩, none⟩ := by
    rw [history]
    exact ⟨[.opened], [], rfl, rfl, by decide, fun between y rest same => by simp at same⟩
  have unknown : ∀ x, ¬Visible ((new "m" .x86_64 0).scopeHistory shadowing) "y" x := by
    intro x found
    have unbound : unit.lookup? "y" = none := by decide +kernel
    cases unbound.symm.trans ((means "y" x).mpr (.inl found))
  exact ⟨by decide +kernel, above, (bracketed _ above "x").1 _ visible,
    (bracketed _ above "y").2 unknown⟩

end CompilationUnit
end FormLowering
