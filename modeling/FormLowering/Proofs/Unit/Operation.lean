import FormLowering.Proofs.Form.Outcome

/-!
Everything a caller can do to a unit, and the units that can be reached with the built-in forms.
-/

namespace FormLowering

inductive Evaluation where
  | any (node : Node)
  | token (node : Node)
  | member (base field : Node)
  | assign (target value : Node)

def Evaluation.action (forms : FormTable) : Evaluation → Request → FormM TypedValue
  | .any node => node.resolve forms
  | .token node => node.resolveToken
  | .member base field => Node.resolveField forms base field
  | .assign target value => Node.assign forms target value

inductive Operation where
  | declareStruct (name : String)
  | defineStruct (name : String) (params : List String) (fields : List Field)
  | defineEnum (name : String) (underlying : Primitive) (members : List (String × Int))
  | enterFunction (name : String)
  | pushScope
  | popScope
  | declareLocal (name : String) (ty : Ty)
  | declareGlobal (name : String) (ty : Ty) (linkage : Linkage) (init? : Option Constant)
  | evaluate (evaluation : Evaluation) (request : Request)
  | parseType (node : Node)
  | alignment (ty : Ty)
  | size (ty : Ty)
  | fieldOffset (ty : Ty) (index : Nat)
  | fail (fault : FormFault) (span : Span)
  | rollback (mark : Checkpoint)

namespace CompilationUnit

/-- The registry after a definition; a refused one changes nothing. -/
def define (unit : CompilationUnit) (defined : Except RegistryError Registry) : CompilationUnit :=
  match defined with
  | .ok types => { unit with types }
  | .error _ => unit

/-- The unit that an operation leaves, whether it succeeds or fails. -/
def perform (unit : CompilationUnit) : Operation → CompilationUnit
  | .declareStruct name => { unit with types := unit.types.declareStruct name }
  | .defineStruct name params fields => unit.define (unit.types.defineStruct name params fields)
  | .defineEnum name underlying members =>
    unit.define (unit.types.defineEnum name underlying members)
  | .enterFunction name => (unit.enterFunction name).2
  | .pushScope => unit.pushScope
  | .popScope => unit.popScope
  | .declareLocal name ty => ((FormM.declareLocal name ty).outcome unit).2
  | .declareGlobal name ty linkage init? =>
    ((FormM.declareGlobal name ty linkage init?).outcome unit).2
  | .evaluate evaluation request => ((evaluation.action .core request).outcome unit).2
  | .parseType node => ((FormM.parseType node).outcome unit).2
  | .alignment ty =>
    ((FormM.measure fun types target => Layout.alignment types target ty).outcome unit).2
  | .size ty => ((FormM.measure fun types target => Layout.size types target ty).outcome unit).2
  | .fieldOffset ty index =>
    ((FormM.measure fun types target => Layout.fieldOffset types target ty index).outcome unit).2
  | .fail fault span => ((FormM.fail fault span : FormM Unit).outcome unit).2
  | .rollback mark => unit.rollback mark

def HasBlock (unit : CompilationUnit) (block : BlockId) : Prop :=
  (unit.module.block? block).isSome

end CompilationUnit

/-- Evaluation takes place in a block that exists. -/
def Operation.Admissible (unit : CompilationUnit) : Operation → Prop
  | .evaluate _ request => unit.HasBlock request.block
  | _ => True

/-- The units that operations with the built-in forms lead to. -/
inductive Reachable : CompilationUnit → Prop
  | new (name : String) (target : Target) (limit : Nat) : Reachable (.new name target limit)
  | perform {unit : CompilationUnit} (operation : Operation) : Reachable unit →
      operation.Admissible unit → Reachable (unit.perform operation)

end FormLowering
