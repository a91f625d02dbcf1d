import FormLowering.Code.Module

/-!
The text of a module: its name, a line for each global, and each function with its blocks.
-/

namespace FormLowering
namespace Module

/-- A value as an operand: a constant is written out, a global by name, an instruction by number. -/
def operandText (module : Module) (id : ValueId) : String :=
  match module.value? id with
  | some ⟨.constant constant, _, _⟩ => constant.text
  | some ⟨.globalAddress global, _, _⟩ =>
    let name := ((module.global? global).map (·.name)).getD ""
    s!"@{name}"
  | _ => s!"%{id.index}"

def globalText (global : Global) : String :=
  let kind := if global.isConstant then "constant" else "global"
  let init := match global.init? with
    | some init => s!" {init.text}"
    | none => ""
  s!"@{global.name} = {global.linkage.text} {kind} {global.ty.text}{init}\n"

def instructionText (module : Module) (id : ValueId) (instruction : Instruction) : String :=
  let ty := ((module.typeOf? id).getD .void).text
  match instruction with
  | .alloca allocated name => s!"  %{id.index} = alloca {allocated.text} ; {name}\n"
  | .load pointer => s!"  %{id.index} = load {ty}, {module.operandText pointer}\n"
  | .store value pointer =>
    s!"  store {module.operandText value}, {module.operandText pointer}\n"
  | .gep pointer indices =>
    let steps := String.join (indices.map fun index => s!", {index}")
    s!"  %{id.index} = gep {ty}, {module.operandText pointer}{steps}\n"

def blockText (module : Module) (id : BlockId) : String :=
  let label := ((module.block? id).map (·.label)).getD ""
  let lines := (module.instructions id).map fun (id, instruction) =>
    module.instructionText id instruction
  s!"{label}:\n{String.join lines}"

def functionText (module : Module) (function : Function) : String :=
  let blocks := String.join (function.blocks.map module.blockText)
  s!"define {function.name} \x7b\n{blocks}\x7d\n"

def text (module : Module) : String :=
  let globals := String.join (module.globals.toList.map globalText)
  let functions := String.join (module.functions.toList.map module.functionText)
  s!"; module {module.name}\n{globals}{functions}"

end Module
end FormLowering
