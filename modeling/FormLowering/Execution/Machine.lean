import FormLowering.Execution.Datum

/-!
Execution of straight-line code. A global starts as its initializer, a stack slot and a global
without one as blank memory of their type. What a machine did before a trap stays done.
-/

namespace FormLowering

/-- A module with the definitions of the structs that it names. -/
structure Program where
  module : Module
  types : Registry
  deriving Repr, Inhabited

/-- The computed values and the objects in memory, the latest of a key first. -/
structure Machine where
  values : List (ValueId × Datum) := []
  memory : List (Root × Datum) := []
  deriving Repr, Inhabited

/-- A step of a machine: it may trap, and keeps its effects in either case. -/
abbrev RunM := ExceptT Trap (StateM Machine)

namespace Machine

def object? (machine : Machine) (root : Root) : Option Datum := machine.memory.lookup root

def setObject (machine : Machine) (root : Root) (object : Datum) : Machine :=
  { machine with memory := (root, object) :: machine.memory }

def setValue (machine : Machine) (id : ValueId) (datum : Datum) : Machine :=
  { machine with values := (id, datum) :: machine.values }

end Machine

namespace Program

/-- An object that nothing was written to yet. -/
def initial (program : Program) : Root → Except Trap Datum
  | .stack _ => .ok .undefined
  | .global id =>
    match program.module.global? id with
    | some ⟨_, _, _, _, some init, _⟩ => .ok (.ofConstant init)
    | some ⟨_, ty, _, _, none, _⟩ => ty.blank program.types
    | none => .ok .undefined

def object (program : Program) (machine : Machine) (root : Root) : Except Trap Datum :=
  match machine.object? root with
  | some object => .ok object
  | none => program.initial root

def read (program : Program) (machine : Machine) (address : Address) : Except Trap Datum := do
  (← program.object machine address.root).get address.path

/-- The value of a constant or an address is there at once, that of an instruction when it ran. -/
def value (program : Program) (machine : Machine) (id : ValueId) : Except Trap Datum :=
  match program.module.value? id with
  | some ⟨.constant constant, _, _⟩ => .ok (.ofConstant constant)
  | some ⟨.globalAddress global, _, _⟩ => .ok (.address ⟨.global global, []⟩)
  | _ =>
    match machine.values.lookup id with
    | some datum => .ok datum
    | none => .error (.undefined id)

def addressIn (program : Program) (machine : Machine) (id : ValueId) : Except Trap Address := do
  match (← program.value machine id).address? with
  | some address => .ok address
  | none => .error (.notAPointer id)

/-- Brings an object into memory, then replaces a component of it. -/
def write (program : Program) (address : Address) (datum : Datum) : RunM Unit := do
  let object ← program.object (← get) address.root
  modify (·.setObject address.root object)
  let changed ← Datum.set datum object address.path
  modify (·.setObject address.root changed)

/-- The address after stepping over `first` objects and then down a path. -/
def stepAddress (address : Address) (first : Nat) (path : List Nat) : Except Trap Address :=
  match first, address.path.getLast? with
  | 0, _ => .ok { address with path := address.path ++ path }
  | first, some last =>
    .ok { address with path := address.path.dropLast ++ (last + first) :: path }
  | _, none => .error .outOfObject

def execute (program : Program) (id : ValueId) : Instruction → RunM Datum
  | .alloca ty _ => do
    let slot ← ty.blank program.types
    modify (·.setObject (.stack id) slot)
    return .address ⟨.stack id, []⟩
  | .load pointer => do
    let machine ← get
    program.read machine (← program.addressIn machine pointer)
  | .store value pointer => do
    let machine ← get
    let address ← program.addressIn machine pointer
    program.write address (← program.value machine value)
    return .undefined
  | .gep pointer indices => do
    let address ← program.addressIn (← get) pointer
    match indices with
    | [] => throw .outOfObject
    | first :: path => return .address (← stepAddress address first path)

def step (program : Program) (id : ValueId) (instruction : Instruction) : RunM Unit := do
  let datum ← program.execute id instruction
  modify (·.setValue id datum)

/-- The instructions of a function, block after block. -/
def code (program : Program) (function : FunctionId) : List (ValueId × Instruction) :=
  match program.module.function? function with
  | some found => found.blocks.flatMap program.module.instructions
  | none => []

/-- Runs a function to its end or to its first trap. -/
def run (program : Program) (function : FunctionId) : RunM Unit :=
  (program.code function).forM fun (id, instruction) => program.step id instruction

end Program

end FormLowering
