import FormLowering.Code.Builder
import FormLowering.Report.Render
import FormLowering.Unit.FormError
import FormLowering.Unit.Scope

/-!
All that one compilation owns, and the operations on it that may fail. A failure is reported in the
log where it arises, and what was done before it stays done.
-/

namespace FormLowering

/-- The state of one compilation. -/
structure CompilationUnit where
  types : Registry := {}
  target : Target
  layout : LayoutMemo := {}
  scopes : ScopeStack := {}
  /-- The unit's namespace: declared globals and stored literals. -/
  globals : List Variable := []
  log : Log
  builder : Builder
  /-- The number that the next generated name is tried with. -/
  nextName : Nat := 0
  deriving Repr, Inhabited

/-- An operation on a unit that may fail; it keeps its effects in either case. -/
abbrev FormM := ExceptT FormError (StateM CompilationUnit)

namespace CompilationUnit

def new (name : String) (target : Target) (limit : Nat) : CompilationUnit :=
  { target, log := { limit }, builder := .ofName name }

def module (unit : CompilationUnit) : Module := unit.builder.module

/-- The variable that a name means: the innermost local, else the global. -/
def lookup? (unit : CompilationUnit) (name : String) : Option Variable :=
  (unit.scopes.lookup? name).or (Variable.named? unit.globals name)

def faultReport (faults : Nat) : Diagnostic :=
  { code := .internal, message := s!"{faults} instruction(s) could not be emitted correctly" }

/-- The module and the log at the end; faults of the builder are one more report. -/
def finish (unit : CompilationUnit) : Module × Log :=
  let faults := unit.builder.faults
  (unit.module, if faults = 0 then unit.log else unit.log.push (faultReport faults))

def report (unit : CompilationUnit) (renderer : Renderer) : Option String :=
  renderer.log unit.log unit.module.name

def rollback (unit : CompilationUnit) (mark : Checkpoint) : CompilationUnit :=
  { unit with log := unit.log.rollback mark }

def pushScope (unit : CompilationUnit) : CompilationUnit :=
  { unit with scopes := unit.scopes.push }

def popScope (unit : CompilationUnit) : CompilationUnit :=
  { unit with scopes := unit.scopes.pop }

/-- Starts a routine with its outermost scope, and gives its entry block. -/
def enterFunction (unit : CompilationUnit) (name : String) : BlockId × CompilationUnit :=
  let (_, entry, builder) := unit.builder.createFunction name
  (entry, { unit with builder, scopes := unit.scopes.push })

def generatedName (n : Nat) : String := s!"_kv{n}"

def isUnused (unit : CompilationUnit) (name : String) : Bool :=
  (Variable.named? unit.globals name).isNone && (unit.module.globalNamed? name).isNone

/-- The first number from `nextName` on whose name is unused. Among one more numbers than there
are names in use there is one. -/
def unusedNumber (unit : CompilationUnit) : Nat :=
  let inUse := unit.globals.length + unit.module.names.length
  let candidates := List.range' unit.nextName (inUse + 1)
  (candidates.find? fun n => unit.isUnused (generatedName n)).getD (unit.nextName + inUse)

end CompilationUnit

namespace FormM

/-- Passes a result on, and reports it if it is a failure. -/
def check {α : Type} : Except FormError α → FormM α
  | .ok result => pure result
  | .error error => do
    modify fun unit => { unit with log := unit.log.push error.diagnostic }
    throw error

def fail {α : Type} (fault : FormFault) (span : Span) : FormM α := check (.error ⟨fault, span⟩)

/-- The outcome of an attempt; one that failed leaves no report. -/
def attempt {α : Type} (action : FormM α) : FormM (Except FormError α) := ExceptT.mk do
  let mark := (← get).log.checkpoint
  let outcome ← action.run
  if outcome matches .error _ then modify (·.rollback mark)
  return .ok outcome

def build {α : Type} (operation : Builder → α × Builder) : FormM α :=
  modifyGet fun unit =>
    let (result, builder) := operation unit.builder
    (result, { unit with builder })

def position (block : BlockId) : FormM Unit := build fun builder => ((), builder.position block)

/-- The answer of a layout query on the unit's types. -/
def measure {α : Type} (query : Registry → Target → LayoutM α) : FormM (Except LayoutError α) :=
  modifyGet fun unit =>
    let (answer, layout) := (query unit.types unit.target).run.run unit.layout
    (answer, { unit with layout })

/-- Declares a stack variable in the innermost scope, with its slot at the insertion point. -/
def declareLocal (name : String) (ty : Ty) : FormM Variable := do
  if (← get).scopes.canBind name then
    let storage ← build (·.alloca ty name)
    let binding : Variable := ⟨name, name, ty, storage, none⟩
    modify fun unit => { unit with scopes := (unit.scopes.bind? binding).getD unit.scopes }
    return binding
  else fail (.redefinition name) .dummy

/-- Adds a global to the module and to the unit's namespace. -/
def registerGlobal (name : String) (ty : Ty) (linkage : Linkage) (isConstant : Bool)
    (init? : Option Constant) (span : Span) : FormM Variable := do
  let unit ← get
  if (Variable.named? unit.globals name).isSome then fail (.redefinition name) span
  else match unit.builder.addGlobal? name ty linkage isConstant init? with
    | none => fail (.redefinition name) span
    | some (_, storage, builder) =>
      let binding : Variable := ⟨name, name, ty, storage, some linkage⟩
      set { unit with builder, globals := unit.globals ++ [binding] }
      return binding

def declareGlobal (name : String) (ty : Ty) (linkage : Linkage) (init? : Option Constant) :
    FormM Variable :=
  registerGlobal name ty linkage false init? .dummy

/-- A global name that this unit does not use yet. -/
def unusedName : FormM String :=
  modifyGet fun unit =>
    let number := unit.unusedNumber
    (CompilationUnit.generatedName number, { unit with nextName := number + 1 })

end FormM

end FormLowering
