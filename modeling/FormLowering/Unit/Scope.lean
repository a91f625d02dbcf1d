import FormLowering.Code.Module

/-!
Lexical scopes. A name means its binding in the innermost scope that has one.
-/

namespace FormLowering

structure Variable where
  name : String
  /-- The name of the global, or the label of the stack slot. -/
  internalName : String
  ty : Ty
  /-- The value of its address, a pointer to `ty`. -/
  storage : ValueId
  /-- Only globals have a linkage. -/
  linkage? : Option Linkage
  deriving DecidableEq, Repr, Inhabited

def Variable.named? (vars : List Variable) (name : String) : Option Variable :=
  vars.find? (·.name == name)

def Variable.sorted (vars : List Variable) : List Variable :=
  vars.mergeSort fun a b => a.name ≤ b.name

/-- The open scopes, innermost first, each with the variables it declared. -/
structure ScopeStack where
  scopes : List (List Variable) := []
  deriving DecidableEq, Repr, Inhabited

namespace ScopeStack

def push (stack : ScopeStack) : ScopeStack := ⟨[] :: stack.scopes⟩

/-- The scopes without the innermost one; without any, nothing changes. -/
def pop (stack : ScopeStack) : ScopeStack := ⟨stack.scopes.tail⟩

def innermost? (stack : ScopeStack) : Option (List Variable) := stack.scopes.head?

def depth (stack : ScopeStack) : Nat := stack.scopes.length

/-- There is an open scope, and the innermost one has no variable of this name. -/
def canBind (stack : ScopeStack) (name : String) : Bool :=
  stack.innermost?.any fun scope => (Variable.named? scope name).isNone

/-- Adds a variable to the innermost scope, if it can take it. -/
def bind? (stack : ScopeStack) (binding : Variable) : Option ScopeStack :=
  match stack.scopes with
  | [] => none
  | scope :: rest =>
    if stack.canBind binding.name then some ⟨(scope ++ [binding]) :: rest⟩ else none

def lookup? (stack : ScopeStack) (name : String) : Option Variable :=
  stack.scopes.findSome? (Variable.named? · name)

end ScopeStack

end FormLowering
