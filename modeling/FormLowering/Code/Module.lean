import FormLowering.Code.Constant
import FormLowering.Ty.Basic

/-!
The output of a unit: values, globals, functions and blocks, each kind numbered from zero in the
order of creation.
-/

namespace FormLowering

/-- The number of a constant, a global's address or an instruction. -/
structure ValueId where
  index : Nat
  deriving DecidableEq, Repr, Inhabited

structure GlobalId where
  index : Nat
  deriving DecidableEq, Repr, Inhabited

structure BlockId where
  index : Nat
  deriving DecidableEq, Repr, Inhabited

structure FunctionId where
  index : Nat
  deriving DecidableEq, Repr, Inhabited

/-- Who sees a global. -/
inductive Linkage where
  /-- Its own unit. -/
  | internal
  /-- Other units too. -/
  | external
  deriving DecidableEq, Repr, Inhabited

def Linkage.text : Linkage → String
  | .internal => "internal"
  | .external => "external"

/-- A variable of the module; `ty` is the type of what is stored, `address` the value of its
address. -/
structure Global where
  name : String
  ty : Ty
  linkage : Linkage
  isConstant : Bool
  init? : Option Constant
  address : ValueId
  deriving Repr, Inhabited

inductive Instruction where
  | alloca (allocated : Ty) (name : String)
  | load (pointer : ValueId)
  | store (value pointer : ValueId)
  /-- An address: the first index steps over whole objects, each further one into a component. -/
  | gep (pointer : ValueId) (indices : List Nat)
  deriving DecidableEq, Repr, Inhabited

namespace Instruction

def isLoad : Instruction → Bool
  | .load _ => true
  | _ => false

def isStore : Instruction → Bool
  | .store .. => true
  | _ => false

end Instruction

inductive ValueKind where
  | constant (constant : Constant)
  | globalAddress (global : GlobalId)
  | instruction (instruction : Instruction)
  deriving Repr, Inhabited

/-- A value with its type, and its block if it is an instruction that was placed. -/
structure Value where
  kind : ValueKind
  ty : Ty
  block? : Option BlockId
  deriving Repr, Inhabited

/-- Instructions in the order of execution. -/
structure Block where
  function : FunctionId
  label : String
  instructions : List ValueId
  deriving Repr, Inhabited

structure Function where
  name : String
  blocks : List BlockId
  deriving Repr, Inhabited

/-- What a module is made of, and the table that its globals are found in by name. -/
structure Module where
  name : String
  values : Array Value := #[]
  globals : Array Global := #[]
  names : List (String × GlobalId) := []
  functions : Array Function := #[]
  blocks : Array Block := #[]
  deriving Repr, Inhabited

namespace Module

def value? (module : Module) (id : ValueId) : Option Value := module.values[id.index]?

def global? (module : Module) (id : GlobalId) : Option Global := module.globals[id.index]?

def function? (module : Module) (id : FunctionId) : Option Function := module.functions[id.index]?

def block? (module : Module) (id : BlockId) : Option Block := module.blocks[id.index]?

def typeOf? (module : Module) (id : ValueId) : Option Ty := (module.value? id).map (·.ty)

def instruction? (module : Module) (id : ValueId) : Option Instruction :=
  match module.value? id with
  | some ⟨.instruction instruction, _, _⟩ => some instruction
  | _ => none

def constant? (module : Module) (id : ValueId) : Option Constant :=
  match module.value? id with
  | some ⟨.constant constant, _, _⟩ => some constant
  | _ => none

def globalNamed? (module : Module) (name : String) : Option GlobalId :=
  module.names.lookup name

/-- The instructions of a block with their numbers. -/
def instructions (module : Module) (block : BlockId) : List (ValueId × Instruction) :=
  match module.block? block with
  | some block => block.instructions.filterMap fun id => (module.instruction? id).map (id, ·)
  | none => []

def count (module : Module) (block : BlockId) (test : Instruction → Bool) : Nat :=
  (module.instructions block).countP (test ·.2)

end Module

end FormLowering
