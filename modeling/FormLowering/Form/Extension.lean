import FormLowering.Form.Table

/-!
Forms that are not built in. They look at their request, or pass it on to their arguments.
-/

namespace FormLowering
namespace Form

/-- Fails with a description of its request. -/
def probe : Form := fun span args request => do
  let wanted := (request.wanted?.map Ty.text).getD "-"
  let block := request.block.index
  let expected :=
    s!"core={request.viaCore} address={request.address} wanted={wanted} block={block}"
  FormM.fail (.structural expected s!"{args.length}") span

/-- Evaluates its first argument as it is asked for itself. -/
def first : Form := fun span args request => do
  match args with
  | [] => FormM.fail (.unresolvedName "first") span
  | operand :: _ => operand.resolve request

/-- The first result among the operands; `fault` is that of the last failure so far. -/
def firstResult (span : Span) (request : Request) : FormFault → List Operand → FormM TypedValue
  | fault, [] => FormM.fail fault span
  | _, operand :: rest => do
    match ← FormM.attempt (operand.resolve request) with
    | .ok result => return result
    | .error error => firstResult span request error.fault rest

/-- Evaluates its arguments one after the other until one succeeds. -/
def alternatives : Form := fun span args request => firstResult span request .notAddressable args

end Form

def FormTable.available : FormTable :=
  ⟨core.entries ++ [("probe", .probe), ("first", .first), ("alternatives", .alternatives)]⟩

end FormLowering
