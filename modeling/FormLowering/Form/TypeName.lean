import FormLowering.Form.Request

/-!
Type names as nodes: primitives and registered names, `(p T)`, `(p (const T))` and
`(array-of N T)`. Reading one changes nothing.
-/

namespace FormLowering

/-- The type that a single token names, a primitive before a registered type. -/
def Token.typeName (types : Registry) (token : Token) : Except FormError Ty :=
  if token.kind = .identifier then
    match Primitive.ofName? token.text with
    | some kind => .ok (.primitive kind)
    | none =>
      match types.named? token.text with
      | some ty => .ok ty
      | none => .error ⟨.unknownType token.text, token.span⟩
  else .error ⟨.tokenCategory .identifier token.kind, token.span⟩

/-- The length that an integer token gives an array, a 64-bit word. -/
def Node.arrayLength? : Node → Option Nat
  | .atom token =>
    if token.kind = .integer then
      (readInteger? token.text).bind fun n =>
        if 0 ≤ n ∧ n < UInt64.size then some n.toNat else none
    else none
  | .list .. => none

/-- The type that a node names. The mark `const` counts only directly below a pointer. -/
def Node.typeName (types : Registry) : Node → Except FormError Ty
  | .atom token => token.typeName types
  | .list [] span => .error ⟨.structural "type" "list", span⟩
  | .list (head :: args) span =>
    match head.symbol?, args with
    | none, _ => .error ⟨.structural "type" "list", span⟩
    | some "p", [.list [mark, pointee] inner] =>
      if mark.symbol? = some "const" then .constPointerTo <$> pointee.typeName types
      else .pointerTo <$> (Node.list [mark, pointee] inner).typeName types
    | some "p", [pointee] => .pointerTo <$> pointee.typeName types
    | some "p", _ => .error (.arity 1 args.length span)
    | some "array-of", [length, element] =>
      match length.arrayLength? with
      | some n => .array n <$> element.typeName types
      | none => .error ⟨.structural "array length" length.describe, length.span⟩
    | some "array-of", _ => .error (.arity 2 args.length span)
    | some name, _ => .error ⟨.unknownType name, span⟩

/-- Reads a type name against the types of a unit. -/
def FormM.parseType (node : Node) : FormM Ty := do
  check (node.typeName (← get).types)

end FormLowering
