import FormLowering.Form.Table
import FormLowering.Form.Token

/-!
The evaluation of nodes. A token is evaluated by itself; a list is given to the form that it names,
with or without the prefix `core`, which only the request shows.
-/

namespace FormLowering

def FormTable.apply (forms : FormTable) (name : String) : Form := fun span args request => do
  match forms.find? name with
  | some form => form span args request
  | none => FormM.fail (.unknownForm name) span

def FormTable.dispatch (forms : FormTable) : Form := fun span items request => do
  match items with
  | [] => FormM.fail (.structural "form name" "empty list") span
  | head :: args =>
    match head.node.symbol?, args with
    | none, _ => FormM.fail (.structural "form name" head.node.describe) span
    | some "core", [] => FormM.fail (.structural "form name after `core`" "nothing usable") span
    | some "core", second :: args =>
      match second.node.symbol? with
      | some name => forms.apply name span args { request with viaCore := true }
      | none => FormM.fail (.structural "form name after `core`" "nothing usable") span
    | some name, args => forms.apply name span args { request with viaCore := false }

mutual

def Node.resolve (forms : FormTable) : Node → Request → FormM TypedValue
  | .atom token, request => token.resolve request
  | .list items span, request => do
    FormM.position request.block
    forms.dispatch span (Node.operands forms items) request

def Node.operands (forms : FormTable) : List Node → List Operand
  | [] => []
  | node :: rest => ⟨node, node.resolve forms⟩ :: Node.operands forms rest

end

namespace Node

def operand (forms : FormTable) (node : Node) : Operand := ⟨node, node.resolve forms⟩

theorem operands_eq_map (forms : FormTable) (nodes : List Node) :
    operands forms nodes = nodes.map (operand forms) := by
  induction nodes with
  | nil => rfl
  | cons node rest ih => simp [operands, operand, ih]

def resolveToken : Node → Request → FormM TypedValue
  | .atom token, request => token.resolve request
  | .list _ span, request => do
    FormM.position request.block
    FormM.fail (.structural "literal" "list") span

def resolveField (forms : FormTable) (base field : Node) (request : Request) : FormM TypedValue :=
  FormM.resolveField (base.operand forms) (field.operand forms) request

def assign (forms : FormTable) (target value : Node) (request : Request) : FormM TypedValue :=
  FormM.assign (target.operand forms) (value.operand forms) request

end Node

end FormLowering
