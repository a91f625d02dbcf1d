import FormLowering.Proofs.Typing.Code
import FormLowering.Proofs.Unit.Operation

/-!
Typing of units. The module of a unit is typed, and the storage of a variable is a pointer to the
variable's type: a stack slot of it, or the address of a global.
-/

namespace FormLowering

/-- The variable lives in a stack slot of its type. -/
def Variable.OnStack (module : Module) (x : Variable) : Prop :=
  ∃ name block?, module.value? x.storage =
    some ⟨.instruction (.alloca x.ty name), .pointerTo x.ty, block?⟩

def Variable.InModule (module : Module) (x : Variable) : Prop :=
  ∃ id, module.value? x.storage = some ⟨.globalAddress id, .pointerTo x.ty, none⟩

namespace CompilationUnit

def IsLocal (unit : CompilationUnit) (x : Variable) : Prop :=
  ∃ scope ∈ unit.scopes.scopes, x ∈ scope

structure Typed (unit : CompilationUnit) : Prop where
  module : unit.module.Typed unit.types
  locals : ∀ {x}, unit.IsLocal x → x.OnStack unit.module
  globals : ∀ {x}, x ∈ unit.globals → x.InModule unit.module

end CompilationUnit

section Growth

variable {module later : Module} {x : Variable}

theorem Variable.OnStack.mono (hm : module.Extends later) (h : x.OnStack module) :
    x.OnStack later := by
  obtain ⟨name, block?, h⟩ := h
  exact ⟨name, block?, hm.value h⟩

theorem Variable.InModule.mono (hm : module.Extends later) (h : x.InModule module) :
    x.InModule later := by
  obtain ⟨id, h⟩ := h
  exact ⟨id, hm.value h⟩

end Growth

/-- A unit stays typed when its tables grow by typed values and by variables with typed storage. -/
theorem CompilationUnit.Typed.grow {unit later : CompilationUnit} (h : unit.Typed)
    (hm : unit.module.Extends later.module) (ht : unit.types.Extends later.types)
    (values : ∀ id v, later.module.value? id = some v → unit.module.value? id = none →
      v.Typed later.module later.types)
    (locals : ∀ {x}, later.IsLocal x → unit.IsLocal x ∨ x.OnStack later.module)
    (globals : ∀ {x}, x ∈ later.globals → x ∈ unit.globals ∨ x.InModule later.module) :
    later.Typed where
  module := h.module.grow hm ht values
  locals hx := (locals hx).elim (fun old => (h.locals old).mono hm) id
  globals hx := (globals hx).elim (fun old => (h.globals old).mono hm) id

/-- Growth of the registry, the reports and the other tables that hold no code. -/
theorem CompilationUnit.Typed.same {unit later : CompilationUnit} (h : unit.Typed)
    (hm : later.module = unit.module) (ht : unit.types.Extends later.types)
    (hs : ∀ {x}, later.IsLocal x → unit.IsLocal x) (hg : later.globals = unit.globals) :
    later.Typed := by
  refine h.grow (hm ▸ .refl _) ht ?_ (fun hx => .inl (hs hx)) (fun hx => .inl (hg ▸ hx))
  intro id v hv hold
  rw [hm, hold] at hv
  cases hv

theorem ScopeStack.mem_of_lookup? {stack : ScopeStack} {name : String} {x : Variable}
    (h : stack.lookup? name = some x) : ∃ scope ∈ stack.scopes, x ∈ scope := by
  obtain ⟨scope, hs, hx⟩ := List.exists_of_findSome?_eq_some h
  exact ⟨scope, hs, List.mem_of_find?_eq_some hx⟩

/-- A name means a variable of an open scope or a global. -/
theorem CompilationUnit.mem_of_lookup? {unit : CompilationUnit} {name : String} {x : Variable}
    (h : unit.lookup? name = some x) : unit.IsLocal x ∨ x ∈ unit.globals := by
  unfold lookup? at h
  cases hlocal : unit.scopes.lookup? name with
  | some y =>
    rw [hlocal] at h
    cases h
    exact .inl (ScopeStack.mem_of_lookup? hlocal)
  | none =>
    rw [hlocal, Option.none_or] at h
    exact .inr (List.mem_of_find?_eq_some h)

end FormLowering
