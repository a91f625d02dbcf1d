import FormLowering.Source.Span

/-!
Syntax trees as a reader hands them over: tokens with their category, and lists of nodes. A list
built from its items covers exactly them.
-/

namespace FormLowering

inductive TokenKind where
  | integer
  | floating
  | identifier
  | string
  deriving DecidableEq, Repr, Inhabited

def TokenKind.describe : TokenKind → String
  | .integer => "integer"
  | .floating => "floating-point number"
  | .identifier => "symbol"
  | .string => "string literal"

/-- A leaf: its category, its text as read (a string without its quotes) and its place. -/
structure Token where
  kind : TokenKind
  text : String
  span : Span
  deriving DecidableEq, Repr, Inhabited

def Token.isSymbol (token : Token) (name : String) : Bool :=
  token.kind == .identifier && token.text == name

inductive Node where
  | atom (token : Token)
  | list (items : List Node) (span : Span)
  deriving Repr, Inhabited

namespace Node

def span : Node → Span
  | .atom token => token.span
  | .list _ span => span

/-- A list whose span is the hull of its items' spans. -/
def ofItems (items : List Node) : Node := .list items (Span.hull (items.map span))

def atom? : Node → Option Token
  | .atom token => some token
  | .list .. => none

def items? : Node → Option (List Node)
  | .atom _ => none
  | .list items _ => some items

def symbol? : Node → Option String
  | .atom token => if token.kind = .identifier then some token.text else none
  | .list .. => none

def head? : Node → Option String
  | .list (item :: _) _ => item.symbol?
  | _ => none

def describe : Node → String
  | .atom _ => "atom"
  | .list .. => "list"

@[simp] theorem span_ofItems (items : List Node) :
    (ofItems items).span = Span.hull (items.map span) := rfl

end Node

end FormLowering
