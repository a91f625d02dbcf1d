/-!
What single tokens spell besides numbers: character literals and the bytes of string literals.
-/

namespace FormLowering

inductive CharLiteral where
  | absent
  | byte (value : Int)
  | invalid
  deriving DecidableEq, Repr, Inhabited

/-- The characters that have a name; the end of input is the byte minus one. -/
def namedChars : List (String × Int) :=
  [("NULL", 0), ("TAB", 9), ("SPACE", 32), ("NEWLINE", 10), ("CARRIAGE", 13), ("EOF", -1)]

/-- The byte that stands after the mark of a character literal: a name or one ASCII character. -/
def charByte? (body : List Char) : Option Int :=
  match namedChars.lookup (String.ofList body), body with
  | some value, _ => some value
  | none, [c] => if c.toNat < 128 then some c.toNat else none
  | none, _ => none

/-- Reads a symbol as a character literal: a mark and something after it. -/
def CharLiteral.read (text : String) : CharLiteral :=
  match text.toList with
  | '#' :: '\\' :: c :: rest => ((charByte? (c :: rest)).map .byte).getD .invalid
  | _ => .absent

/-- Every backslash that an `n` follows becomes, with it, one newline. -/
def foldNewlines : List Char → List Char
  | '\\' :: 'n' :: rest => '\n' :: foldNewlines rest
  | c :: rest => c :: foldNewlines rest
  | [] => []

/-- The stored bytes of a string literal: its text in UTF-8 and a final zero. -/
def stringBytes (text : String) : List UInt8 :=
  (foldNewlines text.toList).flatMap String.utf8EncodeChar ++ [0]

end FormLowering
