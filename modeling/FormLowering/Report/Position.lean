/-!
Lines and columns of byte offsets. Lines end at newline bytes, columns count characters, and both
start at one. They are numbers of 32 bits.
-/

namespace FormLowering

/-- One more than a count. A count of more than 32 bits is taken for the greatest number but one; the
greatest itself is not, and the number after it overflows. -/
def ordinal? (count : Nat) : Option UInt32 :=
  let held := if count < UInt32.size then count else UInt32.size - 2
  if held + 1 < UInt32.size then some (.ofNat (held + 1)) else none

/-- The byte offsets at which the lines of a text start, in increasing order. -/
structure LineTable where
  starts : List Nat := []
  deriving DecidableEq, Repr, Inhabited

namespace LineTable

/-- The offsets just after the newlines of a text that begins at `offset`. -/
def startsFrom (offset : Nat) : List Char → List Nat
  | [] => []
  | c :: rest =>
    let next := offset + c.utf8Size
    if c = '\n' then next :: startsFrom next rest else startsFrom next rest

/-- An offset of more than 32 bits is taken for the greatest one. -/
def ofSource (source : List Char) : LineTable :=
  ⟨0 :: (startsFrom 0 source).map (min · (UInt32.size - 1))⟩

def lineCount (table : LineTable) : Nat := table.starts.length

/-- The line of an offset: how many lines start at or before it, but at least one. -/
def line (table : LineTable) (offset : Nat) : Option UInt32 :=
  ordinal? (table.starts.countP (· ≤ offset) - 1)

/-- Where a line starts; a line that is not in the table starts the text. -/
def start (table : LineTable) (line : UInt32) : Nat := table.starts[line.toNat - 1]?.getD 0

end LineTable

def byteLength (source : List Char) : Nat :=
  source.foldl (fun length c => length + c.utf8Size) 0

/-- The number of characters before a byte offset, if one of them ends there. -/
def charsBefore? : List Char → Nat → Option Nat
  | _, 0 => some 0
  | [], _ + 1 => none
  | c :: rest, offset + 1 =>
    if c.utf8Size ≤ offset + 1 then
      (charsBefore? rest (offset + 1 - c.utf8Size)).map (· + 1)
    else none

/-- The number of characters between two byte offsets, if both are boundaries in order. -/
def charsBetween? (source : List Char) (start stop : Nat) : Option Nat :=
  if start ≤ stop then
    match charsBefore? source start, charsBefore? source stop with
    | some before, some upTo => some (upTo - before)
    | _, _ => none
  else none

/-- The line and column of an offset; one past the end counts as the end, and one inside a
character has column one. None of them is answered where one overflows. -/
def LineTable.position (table : LineTable) (source : List Char) (offset : Nat) :
    Option (UInt32 × UInt32) := do
  let line ← table.line offset
  let stop := min offset (byteLength source)
  let column ← ordinal? ((charsBetween? source (table.start line) stop).getD 0)
  return (line, column)

def position (source : List Char) (offset : Nat) : Option (UInt32 × UInt32) :=
  (LineTable.ofSource source).position source offset

end FormLowering
