import FormLowering.Code.Module

/-!
Extending a module at an insertion point. Nothing is refused except a second global of a name: an
instruction without a block and an access through no pointer are made all the same, and counted.
-/

namespace FormLowering

/-- A module under construction, the function and the block that take the next instruction, and the
number of faults so far. -/
structure Builder where
  module : Module
  function? : Option FunctionId := none
  block? : Option BlockId := none
  faults : Nat := 0
  deriving Repr, Inhabited

namespace Builder

def ofName (name : String) : Builder := { module := { name } }

def position (builder : Builder) (block : BlockId) : Builder :=
  { builder with
    function? := (builder.module.block? block).map (·.function)
    block? := some block }

def appendBlock (builder : Builder) (function : FunctionId) (label : String) : BlockId × Builder :=
  let module := builder.module
  let id : BlockId := ⟨module.blocks.size⟩
  let functions := module.functions.modify function.index fun f =>
    { f with blocks := f.blocks ++ [id] }
  let blocks := module.blocks.push ⟨function, label, []⟩
  (id, { builder with module := { module with functions, blocks } })

/-- A new function with its entry block, which becomes the insertion point. -/
def createFunction (builder : Builder) (name : String) : FunctionId × BlockId × Builder :=
  let id : FunctionId := ⟨builder.module.functions.size⟩
  let functions := builder.module.functions.push ⟨name, []⟩
  let (entry, builder) :=
    { builder with module := { builder.module with functions } }.appendBlock id "entry"
  (id, entry, builder.position entry)

def pushValue (builder : Builder) (value : Value) : ValueId × Builder :=
  let module := builder.module
  let values := module.values.push value
  (⟨module.values.size⟩, { builder with module := { module with values } })

def constant (builder : Builder) (ty : Ty) (constant : Constant) : ValueId × Builder :=
  builder.pushValue ⟨.constant constant, ty, none⟩

/-- A new global and its address, unless the name is taken. -/
def addGlobal? (builder : Builder) (name : String) (ty : Ty) (linkage : Linkage)
    (isConstant : Bool) (init? : Option Constant) : Option (GlobalId × ValueId × Builder) :=
  if (builder.module.globalNamed? name).isSome then none
  else
    let id : GlobalId := ⟨builder.module.globals.size⟩
    let (address, builder) := builder.pushValue ⟨.globalAddress id, .pointerTo ty, none⟩
    let names := (name, id) :: builder.module.names
    let globals := builder.module.globals.push ⟨name, ty, linkage, isConstant, init?, address⟩
    some (id, address, { builder with module := { builder.module with names, globals } })

def fault (builder : Builder) : Builder := { builder with faults := builder.faults + 1 }

/-- An instruction at the end of the current block; without one it is a fault. -/
def pushInstruction (builder : Builder) (instruction : Instruction) (ty : Ty) : ValueId × Builder :=
  let (id, pushed) := builder.pushValue ⟨.instruction instruction, ty, builder.block?⟩
  match builder.block? with
  | none => (id, pushed.fault)
  | some block =>
    let blocks := pushed.module.blocks.modify block.index fun b =>
      { b with instructions := b.instructions ++ [id] }
    (id, { pushed with module := { pushed.module with blocks } })

/-- A stack slot; its value is the address. -/
def alloca (builder : Builder) (ty : Ty) (name : String) : ValueId × Builder :=
  builder.pushInstruction (.alloca ty name) (.pointerTo ty)

def pointeeOf? (builder : Builder) (pointer : ValueId) : Option Ty :=
  (builder.module.typeOf? pointer).bind Ty.pointee?

/-- Reads through a pointer; through anything else it is a fault and gives nothing. -/
def load (builder : Builder) (pointer : ValueId) : ValueId × Builder :=
  match builder.pointeeOf? pointer with
  | some ty => builder.pushInstruction (.load pointer) ty
  | none => builder.fault.pushInstruction (.load pointer) .void

/-- Writes through a pointer; through anything else it is a fault. -/
def store (builder : Builder) (value pointer : ValueId) : ValueId × Builder :=
  let builder := if (builder.pointeeOf? pointer).isSome then builder else builder.fault
  builder.pushInstruction (.store value pointer) .void

/-- An address computed from a pointer, with the type that the caller gives it. -/
def gep (builder : Builder) (pointer : ValueId) (indices : List Nat) (ty : Ty) :
    ValueId × Builder :=
  builder.pushInstruction (.gep pointer indices) ty

end Builder

end FormLowering
