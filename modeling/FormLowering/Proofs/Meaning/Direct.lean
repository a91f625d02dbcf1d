import FormLowering.Proofs.Form.Escapes
import FormLowering.Proofs.Form.Literal

/-!
Direct evaluation: nodes are carried out at once on objects in memory, and no code is made. A name
means an object, a place is a pointer to a part of one, and reading and writing happen where the
node says so. What a literal denotes, which bytes a string spells and at which index a struct
declares a field is taken from what they are, not from the way they are found.
-/

namespace FormLowering

structure Binding where
  name : String
  root : Root
  ty : Ty

/-- A global object; without an initializer it starts blank. -/
structure Definition where
  name : String
  ty : Ty
  init? : Option Constant

/-- All that direct evaluation depends on. The global objects are numbered in the order of their
definitions. -/
structure Store where
  types : Registry
  target : Target
  layout : LayoutMemo
  nextName : Nat
  scopes : List (List Binding)
  globals : List Binding
  definitions : List Definition
  memory : List (Root × Datum) := []

/-- A direct evaluation, which may go wrong. -/
abbrev Direct := StateT Store Option

/-- A value with its type and, where it is stored, the pointer to it with the pointer's type. -/
structure Evaluated where
  datum : Datum
  ty : Ty
  place? : Option (Datum × Ty) := none

namespace Store

def initial (store : Store) : Root → Option Datum
  | .stack _ => some .undefined
  | .global id =>
    match store.definitions[id.index]? with
    | some ⟨_, _, some init⟩ => some (.ofConstant init)
    | some ⟨_, ty, none⟩ => (ty.blank store.types).toOption
    | none => some .undefined

def object (store : Store) (root : Root) : Option Datum :=
  match store.memory.lookup root with
  | some object => some object
  | none => store.initial root

def read (store : Store) (address : Address) : Option Datum := do
  ((← store.object address.root).get address.path).toOption

def write (store : Store) (address : Address) (datum : Datum) : Option Store := do
  let object ← store.object address.root
  let changed ← (Datum.set datum object address.path).toOption
  return { store with memory := (address.root, changed) :: store.memory }

def lookup? (store : Store) (name : String) : Option Binding :=
  (store.scopes.findSome? (·.find? (·.name == name))).or (store.globals.find? (·.name == name))

def isUnused (store : Store) (name : String) : Bool :=
  (store.globals.find? (·.name == name)).isNone && (store.definitions.find? (·.name == name)).isNone

/-- The first number from `nextName` on whose name is unused. -/
def unusedNumber (store : Store) : Nat :=
  let inUse := store.globals.length + store.definitions.length
  let candidates := List.range' store.nextName (inUse + 1)
  (candidates.find? fun n => store.isUnused (CompilationUnit.generatedName n)).getD
    (store.nextName + inUse)

/-- A new global object under a name. -/
def define (store : Store) (name : String) (ty : Ty) (init? : Option Constant) : Store :=
  { store with
    definitions := store.definitions ++ [⟨name, ty, init?⟩]
    globals := store.globals ++ [⟨name, .global ⟨store.definitions.length⟩, ty⟩] }

/-- A new name in the innermost scope. -/
def bind (store : Store) (binding : Binding) : Store :=
  { store with scopes := store.scopes.modifyHead (· ++ [binding]) }

end Store

/-- The component of what a pointer leads to. -/
def Datum.component (pointer : Datum) (index : Nat) : Option Datum :=
  pointer.address?.map fun address => .address { address with path := address.path ++ [index] }

namespace Direct

def failure {α : Type} : Direct α := fun _ => none

def ofOption {α : Type} (answer : Option α) : Direct α := fun store => answer.map (·, store)

def load (pointer : Datum) : Direct Datum := fun store => do
  return (← store.read (← pointer.address?), store)

def store (pointer datum : Datum) : Direct Unit := fun store => do
  return ((), ← store.write (← pointer.address?) datum)

/-- A new local object, blank memory of its type. -/
def allocate (slot : ValueId) (ty : Ty) : Direct Datum := fun store => do
  let object ← (ty.blank store.types).toOption
  return (.address ⟨.stack slot, []⟩, { store with memory := (.stack slot, object) :: store.memory })

/-- What is stored at a pointer: in address mode the pointer, else a value read there; an array
is not read but decays to the place of its first element. -/
def access (pointer : Datum) (stored : Ty) (request : Request) : Direct Evaluated := do
  let place := (pointer, Ty.pointerTo stored)
  if request.address then return ⟨pointer, .pointerTo stored, none⟩
  else match stored.element? with
    | some element => return ⟨← ofOption (pointer.component 0), .pointerTo element, some place⟩
    | none => return ⟨← load pointer, stored, some place⟩

/-- The number that a layout query yields. -/
def measured (query : Registry → Target → LayoutM Nat) : Direct Evaluated := do
  let store ← get
  let (answer, layout) := (query store.types store.target).run.run store.layout
  set { store with layout }
  return ⟨.int (← ofOption answer.toOption), .size, none⟩

end Direct

noncomputable section

namespace Token

/-- The bytes that a string spells, with a zero behind them. -/
def spelled? (token : Token) : Option (List UInt8) :=
  the? fun bytes => ∃ folded pairs, Folds token.text.toUTF8.data.toList folded pairs ∧
    bytes = folded ++ [0]

/-- A string is a new global object, and its value is the place of the first byte. -/
def directString (token : Token) : Direct Evaluated := do
  let store ← get
  let number := store.unusedNumber
  let bytes ← Direct.ofOption token.spelled?
  let defined := store.define (CompilationUnit.generatedName number) (.array bytes.length .char)
    (some (.bytes bytes))
  set { defined with nextName := number + 1 }
  return ⟨.address ⟨.global ⟨store.definitions.length⟩, [0]⟩, .constPointerTo .char, none⟩

def direct (token : Token) (request : Request) : Direct Evaluated := do
  let store ← get
  match token.denoted? store.types request.wanted?, token.kind with
  | some (ty, datum), _ => return ⟨datum, ty, none⟩
  | none, .string => token.directString
  | none, .identifier =>
    let found ← Direct.ofOption (store.lookup? token.text)
    Direct.access (.address ⟨found.root, []⟩) found.ty request
  | none, _ => Direct.failure

end Token

/-- The index at which a struct declares a field, and the field. -/
def StructDef.declared? (struct : StructDef) (name : String) : Option (Nat × Field) :=
  the? fun found => struct.Declares name found.1 found.2

/-- An argument of a form with its direct evaluation. -/
structure Part where
  node : Node
  direct : Request → Direct Evaluated

namespace Direct

/-- The record that a place leads to: one read, if a pointer is stored there. -/
def follow (place : Evaluated) (outer : Ty) : Direct (Datum × Ty) :=
  match outer.pointee? with
  | some inner => do return (← load place.datum, inner)
  | none => return (place.datum, outer)

/-- A field of the record at a pointer. -/
def fieldAt (pointer : Datum) (record : Ty) (name : String) (request : Request) :
    Direct Evaluated := do
  let struct ← ofOption (record.structName?.bind (← get).types.struct?)
  let (index, found) ← ofOption (struct.declared? name)
  access (← ofOption (pointer.component index)) found.ty request

def field (base field : Part) (request : Request) : Direct Evaluated := do
  let name ← ofOption field.node.fieldName.toOption
  let place ← base.direct (request.nested true)
  let outer ← ofOption place.ty.pointee?
  let record ← follow place outer
  fieldAt record.1 record.2 name request

/-- The target is located, then the value is evaluated, then it is written. -/
def assign (target value : Part) (request : Request) : Direct Evaluated := do
  let place ← target.direct (request.nested true)
  let stored ← ofOption place.ty.pointee?
  let source ← value.direct (request.nested false (some stored))
  store place.datum source.datum
  if request.address then return ⟨place.datum, .pointerTo stored, none⟩
  else return ⟨source.datum, stored, some (place.datum, .pointerTo stored)⟩

def addressOf (operand : Part) (request : Request) : Direct Evaluated := do
  let inner ← operand.direct (request.nested false)
  let (pointer, ty) ← ofOption inner.place?
  return ⟨pointer, ty, none⟩

def dereference (operand : Part) (request : Request) : Direct Evaluated := do
  let inner ← operand.direct (request.nested false)
  let stored ← ofOption inner.ty.pointee?
  if request.address then return ⟨inner.datum, inner.ty, none⟩
  else access inner.datum stored request

def measuring (query : Registry → Target → Ty → LayoutM Nat) (operand : Part) : Direct Evaluated := do
  let ty ← ofOption (operand.node.typeName (← get).types).toOption
  measured fun types target => query types target ty

def offsetOf (struct field : Part) : Direct Evaluated := do
  let ty ← ofOption (struct.node.typeName (← get).types).toOption
  let name ← ofOption field.node.fieldName.toOption
  let found ← ofOption (ty.structName?.bind (← get).types.struct?)
  let (index, _) ← ofOption (found.declared? name)
  measured fun types target => Layout.fieldOffset types target ty index

/-- The meaning of a form by its name. -/
def form (name : String) (args : List Part) (request : Request) : Direct Evaluated :=
  match name, args with
  | ":", [base, name] => field base name request
  | "setf", [target, value] => assign target value request
  | "#", [operand] => addressOf operand request
  | "@", [operand] => dereference operand request
  | "alignmentof", [operand] => measuring Layout.alignment operand
  | "sizeof", [operand] => measuring Layout.size operand
  | "offsetof", [struct, field] => offsetOf struct field
  | _, _ => failure

/-- A list means the form that it starts with, or that stands after `core`. -/
def list (items : List Part) (request : Request) : Direct Evaluated :=
  match items with
  | [] => failure
  | head :: args =>
    match head.node.symbol?, args with
    | none, _ => failure
    | some "core", second :: args =>
      match second.node.symbol? with
      | some name => form name args request
      | none => failure
    | some name, args => form name args request

end Direct

mutual

def Node.direct : Node → Request → Direct Evaluated
  | .atom token, request => token.direct request
  | .list items _, request => Direct.list (Node.parts items) request

def Node.parts : List Node → List Part
  | [] => []
  | node :: rest => ⟨node, node.direct⟩ :: Node.parts rest

end

def Node.part (node : Node) : Part := ⟨node, node.direct⟩

end

end FormLowering
