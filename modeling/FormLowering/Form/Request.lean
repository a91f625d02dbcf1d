import FormLowering.Unit.Basic

/-!
How a form is asked for and what it answers: a typed value, with its place in memory if it has one.
Every form gets its arguments as nodes together with their evaluation.
-/

namespace FormLowering

structure Request where
  /-- Instructions go to the end of this block. -/
  block : BlockId
  /-- The address of the result is wanted instead of its value. -/
  address : Bool := false
  /-- The form was written with the prefix `core`. -/
  viaCore : Bool := false
  /-- The type that the context asks of a literal. -/
  wanted? : Option Ty := none
  deriving DecidableEq, Repr, Inhabited

/-- A request for a part of a form, in the same block. -/
def Request.nested (request : Request) (address : Bool) (wanted? : Option Ty := none) : Request :=
  { block := request.block, address, wanted? }

structure Place where
  value : ValueId
  ty : Ty
  deriving DecidableEq, Repr, Inhabited

/-- A value with its type; `place?` is where it is stored. -/
structure TypedValue where
  block : BlockId
  value : ValueId
  ty : Ty
  place? : Option Place := none
  deriving DecidableEq, Repr, Inhabited

def TypedValue.isLvalue (result : TypedValue) : Bool := result.place?.isSome

structure Operand where
  node : Node
  resolve : Request → FormM TypedValue

/-- The evaluation of a list: its span, its operands after the head, and the request. -/
abbrev Form := Span → List Operand → Request → FormM TypedValue

/-- The failure of a list with the wrong number of arguments. -/
def FormError.arity (expected found : Nat) (span : Span) : FormError :=
  let plural := if expected = 1 then "" else "s"
  ⟨.structural s!"{expected} argument{plural}" s!"{found}", span⟩

namespace FormM

def constant (request : Request) (ty : Ty) (value : Constant) : FormM TypedValue := do
  return { block := request.block, value := ← build (·.constant ty value), ty }

/-- The answer for storage at an address. In address mode it is the address itself. Otherwise an
array becomes the address of its first element and anything else is loaded; both keep their
place. -/
def access (address : ValueId) (stored : Ty) (request : Request) : FormM TypedValue := do
  let block := request.block
  let place : Place := ⟨address, .pointerTo stored⟩
  if request.address then return { block, value := address, ty := place.ty }
  else match stored.element? with
    | some element =>
      let ty := Ty.pointerTo element
      return { block, value := ← build (·.gep address [0, 0] ty), ty, place? := place }
    | none => return { block, value := ← build (·.load address), ty := stored, place? := place }

end FormM

end FormLowering
