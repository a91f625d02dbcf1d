import Mathlib.Logic.Relation
import FormLowering.Proofs.Typing.Unit

/-!
What an evaluation does to a unit, one change at a time. Each change carries what the forms have
checked before it, so a property of evaluations is shown once for every kind of change.
-/

namespace FormLowering
namespace CompilationUnit

/-- The value can be an operand of code in a block: it is a constant or an address, it stands in
the block itself, or it is the slot of a visible variable. -/
def Available (unit : CompilationUnit) (block : BlockId) (id : ValueId) : Prop :=
  ∃ v, unit.module.value? id = some v ∧
    ((∀ instruction, v.kind ≠ .instruction instruction) ∨ v.block? = some block ∨
      ∃ x, unit.IsLocal x ∧ x.storage = id)

/-- Evaluation can go on in the block. -/
structure Ready (unit : CompilationUnit) (block : BlockId) : Prop where
  typed : unit.Typed
  hasBlock : unit.HasBlock block
  here : unit.builder.At block

end CompilationUnit

/-- The type of the global that stores a string. -/
def Ty.ofString (text : String) : Ty := .array (stringBytes text).length .char

/-- One change of a unit by an evaluation in a block. -/
inductive Effect (block : BlockId) : CompilationUnit → CompilationUnit → Prop
  /-- A typed access or address computation on available operands. -/
  | instruction {unit : CompilationUnit} {instruction : Instruction} {ty : Ty} :
      instruction.Typed unit.module unit.types ty → instruction.operands ≠ [] →
      (∀ id ∈ instruction.operands, unit.Available block id) →
      Effect block unit { unit with builder := (unit.builder.pushInstruction instruction ty).2 }
  | constant {unit : CompilationUnit} {constant : Constant} {ty : Ty} : constant.Literal ty →
      Effect block unit { unit with builder := (unit.builder.constant ty constant).2 }
  /-- A string under a name that is new to the unit and to the module. -/
  | string {unit : CompilationUnit} {name text : String} {added : GlobalId × ValueId × Builder} :
      Variable.named? unit.globals name = none →
      unit.builder.addGlobal? name (.ofString text) .internal true
        (some (.bytes (stringBytes text))) = some added →
      Effect block unit { unit with
        builder := added.2.2
        globals := unit.globals ++ [⟨name, name, .ofString text, added.2.1, some .internal⟩] }
  /-- Reports, measurements and generated names are kept apart from the code. -/
  | record {unit : CompilationUnit} (log : Log) (layout : LayoutMemo) (nextName : Nat) :
      Effect block unit { unit with log, layout, nextName }

namespace Effect

variable {block : BlockId} {unit later : CompilationUnit}

theorem types (h : Effect block unit later) : later.types = unit.types := by
  cases h <;> rfl

theorem target (h : Effect block unit later) : later.target = unit.target := by
  cases h <;> rfl

theorem scopes (h : Effect block unit later) : later.scopes = unit.scopes := by
  cases h <;> rfl

theorem isLocal (h : Effect block unit later) {x : Variable} : later.IsLocal x ↔ unit.IsLocal x := by
  simp only [CompilationUnit.IsLocal]
  rw [h.scopes]

theorem grows (h : Effect block unit later) : unit.module.Extends later.module := by
  cases h with
  | instruction => exact unit.builder.extends_pushInstruction _ _
  | constant => exact unit.builder.extends_pushValue _
  | string _ added => exact unit.builder.extends_addGlobal? added
  | record => exact .refl _

theorem point (h : Effect block unit later) : later.builder.point = unit.builder.point := by
  cases h with
  | instruction => exact unit.builder.point_pushInstruction _ _
  | constant => rfl
  | string _ added => exact unit.builder.point_addGlobal? added
  | record => rfl

theorem position (h : Effect block unit later) : later.builder.block? = unit.builder.block? :=
  congrArg Prod.snd h.point

/-- A change brings in only typed values. -/
theorem module_typed (h : Effect block unit later) (typed : unit.module.Typed unit.types) :
    later.module.Typed later.types := by
  apply Module.Typed.grow typed h.grows (h.types ▸ .refl _)
  intro id v hv hold
  cases h with
  | @instruction instruction ty hi =>
    change (unit.builder.pushInstruction instruction ty).2.module.value? id = some v at hv
    rw [Builder.value?_pushInstruction] at hv
    split at hv
    · cases hv
      exact .instruction _ (hi.mono (unit.builder.extends_pushInstruction _ _) (.refl _))
    · exact absurd (hold.symm.trans hv) nofun
  | constant hc =>
    change (unit.builder.pushValue _).2.module.value? id = some v at hv
    rw [Builder.value?_pushValue] at hv
    split at hv
    · cases hv
      exact .constant hc
    · exact absurd (hold.symm.trans hv) nofun
  | @string name text added fresh hadded =>
    change added.2.2.module.value? id = some v at hv
    rw [unit.builder.value?_addGlobal? hadded] at hv
    split at hv
    · cases hv
      have hg := unit.builder.global?_addGlobal? hadded added.1
      exact .globalAddress (hg.trans (if_pos rfl))
    · exact absurd (hold.symm.trans hv) nofun
  | record => exact absurd (hold.symm.trans hv) nofun

theorem typed (h : Effect block unit later) (typed : unit.Typed) : later.Typed where
  module := h.module_typed typed.module
  locals hx := (typed.locals (h.isLocal.mp hx)).mono h.grows
  globals {x} hx := by
    cases h with
    | @string name text added fresh hadded =>
      rcases List.mem_append.mp hx with old | new
      · exact (typed.globals old).mono (unit.builder.extends_addGlobal? hadded)
      · cases List.mem_singleton.mp new
        exact ⟨added.1, (unit.builder.value?_addGlobal? hadded _).trans (if_pos rfl)⟩
    | instruction => exact (typed.globals hx).mono (unit.builder.extends_pushInstruction _ _)
    | constant => exact (typed.globals hx).mono (unit.builder.extends_pushValue _)
    | record => exact typed.globals hx

theorem ready (h : Effect block unit later) (ready : unit.Ready block) : later.Ready block where
  typed := h.typed ready.typed
  hasBlock := h.grows.hasBlock ready.hasBlock
  here := ready.here.later ready.hasBlock h.grows h.point

theorem available (h : Effect block unit later) {id : ValueId}
    (available : unit.Available block id) : later.Available block id := by
  obtain ⟨v, hv, how⟩ := available
  refine ⟨v, h.grows.value hv, ?_⟩
  rcases how with fixed | placed | ⟨x, hx, same⟩
  · exact .inl fixed
  · exact .inr (.inl placed)
  · exact .inr (.inr ⟨x, h.isLocal.mpr hx, same⟩)

end Effect

def Effects (block : BlockId) : CompilationUnit → CompilationUnit → Prop :=
  Relation.ReflTransGen (Effect block)

namespace Effects

variable {block : BlockId} {unit later : CompilationUnit}

/-- What every single change keeps, any number of them keeps. -/
theorem keeps {P : CompilationUnit → Prop}
    (step : ∀ {a b}, Effect block a b → P a → P b) (h : Effects block unit later) (start : P unit) :
    P later := by
  induction h with
  | refl => exact start
  | tail _ last ih => exact step last ih

theorem grows (h : Effects block unit later) : unit.module.Extends later.module :=
  h.keeps (P := fun u => unit.module.Extends u.module) (fun step g => g.trans step.grows)
    (.refl _)

theorem types (h : Effects block unit later) : later.types = unit.types :=
  h.keeps (P := fun u => u.types = unit.types) (fun step same => step.types.trans same) rfl

theorem scopes (h : Effects block unit later) : later.scopes = unit.scopes :=
  h.keeps (P := fun u => u.scopes = unit.scopes) (fun step same => step.scopes.trans same) rfl

theorem ready (h : Effects block unit later) : unit.Ready block → later.Ready block :=
  h.keeps Effect.ready

theorem available (h : Effects block unit later) {id : ValueId} :
    unit.Available block id → later.Available block id :=
  h.keeps (P := fun u => u.Available block id) fun step => step.available

end Effects
end FormLowering
