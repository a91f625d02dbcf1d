import FormLowering.Code.Constant
import FormLowering.Proofs.Number.Spelling

/-!
The text of constants determines them. An integer ends where no digit follows, a run of bytes at the
next quote and a struct at its brace, so a constant that is built of them is known from its text,
and a run of bytes can be read back from its escapes.
-/

namespace FormLowering

section Runs

variable {p : Char → Bool} {front front' rest rest' : List Char}

/-- The text does not start with a character of the class. -/
def Stops (p : Char → Bool) (rest : List Char) : Prop := ∀ c ∈ rest.head?, p c = false

theorem stops_cons {c : Char} (other : p c = false) : Stops p (c :: rest) := by
  intro first starts
  cases starts
  exact other

theorem stops_nil : Stops p [] := by
  intro first starts
  cases starts

theorem Stops.head {c : Char} (h : Stops p (c :: rest)) : p c = false := h c rfl

/-- Where a run of a class ends, it ends only there. -/
theorem append_inj_of_stops (run : ∀ c ∈ front, p c = true) (run' : ∀ c ∈ front', p c = true)
    (stops : Stops p rest) (stops' : Stops p rest') (same : front ++ rest = front' ++ rest') :
    front = front' ∧ rest = rest' := by
  induction front generalizing front' with
  | nil =>
    cases front' with
    | nil => exact ⟨rfl, same⟩
    | cons c front' =>
      obtain rfl : rest = c :: (front' ++ rest') := same
      exact absurd (run' c List.mem_cons_self) (ne_true_of_eq_false stops.head)
  | cons c front ih =>
    cases front' with
    | nil =>
      obtain rfl : rest' = c :: (front ++ rest) := same.symm
      exact absurd (run c List.mem_cons_self) (ne_true_of_eq_false stops'.head)
    | cons c' front' =>
      obtain ⟨rfl, others⟩ := List.cons.inj same
      obtain ⟨rfl, rfl⟩ := ih (fun c mem => run c (List.mem_cons_of_mem _ mem))
        (fun c mem => run' c (List.mem_cons_of_mem _ mem)) others
      exact ⟨rfl, rfl⟩

/-- A digit or the sign of a negative integer. -/
def isNumeric (c : Char) : Bool := c.isDigit || c == '-'

theorem isNumeric_of_mem_toDigits (n : Nat) : ∀ c ∈ Nat.toDigits 10 n, isNumeric c = true :=
  fun _ mem => Bool.or_eq_true_iff.mpr
    (.inl (Nat.isDigit_of_mem_toDigits (by decide) (by decide) mem))

theorem isNumeric_of_mem_toString (value : Int) :
    ∀ c ∈ (toString value).toList, isNumeric c = true := by
  rw [toString_eq_decimalText, decimalText, String.toList_ofList, List.replicate_zero,
    List.nil_append]
  intro c mem
  rcases List.mem_append.mp mem with sign | digit
  · unfold signChars at sign
    split at sign
    · cases List.mem_singleton.mp sign
      rfl
    · cases sign
  · exact isNumeric_of_mem_toDigits _ c digit

end Runs

namespace Constant

/-! ## Bytes -/

/-- Reads bytes back: a backslash takes the two hexadecimal digits after it, and any other printable
ASCII character but a quote is its own byte. -/
def unescape? : List Char → Option (List UInt8)
  | [] => some []
  | '\\' :: high :: low :: rest => do
    let byte := 16 * (← digit? 16 high) + (← digit? 16 low)
    return .ofNat byte :: (← unescape? rest)
  | c :: rest =>
    if 32 ≤ c.toNat ∧ c.toNat < 127 ∧ c ≠ '"' ∧ c ≠ '\\' then
      return .ofNat c.toNat :: (← unescape? rest)
    else none

section Bytes

variable {byte : UInt8} {content : List UInt8} {rest : List Char}

theorem digit?_hexDigit : ∀ n < 16, digit? 16 (hexDigit n) = some n := by decide

theorem isPlain_iff : isPlain byte = true ↔
    32 ≤ byte.toNat ∧ byte.toNat < 127 ∧ byte.toNat ≠ 34 ∧ byte.toNat ≠ 92 := by
  simp [isPlain, UInt8.le_iff_toNat_le, UInt8.lt_iff_toNat_lt, ← UInt8.toNat_inj, and_assoc]

theorem toNat_plainChar (plain : isPlain byte = true) :
    (Char.ofNat byte.toNat).toNat = byte.toNat := by
  have below := (isPlain_iff.mp plain).2.1
  rw [Char.toNat_ofNat, if_pos (.inl (by omega))]

theorem plainChar_ne {c : Char} (plain : isPlain byte = true) (differs : byte.toNat ≠ c.toNat) :
    Char.ofNat byte.toNat ≠ c :=
  fun same => differs (toNat_plainChar plain ▸ congrArg Char.toNat same)

theorem unescape?_byteChars_append (byte : UInt8) (rest : List Char) :
    unescape? (byteChars byte ++ rest) = (unescape? rest).map (byte :: ·) := by
  unfold byteChars
  split
  · rename_i plain
    have code := toNat_plainChar plain
    obtain ⟨above, below, quote, backslash⟩ := isPlain_iff.mp plain
    have unquoted : Char.ofNat byte.toNat ≠ '"' := plainChar_ne plain quote
    have unmarked : Char.ofNat byte.toNat ≠ '\\' := plainChar_ne plain backslash
    rw [List.singleton_append, unescape?, if_pos ⟨by omega, by omega, unquoted, unmarked⟩]
    · rw [code, UInt8.ofNat_toNat]
      cases unescape? rest <;> rfl
    · exact fun _ _ _ mark _ => unmarked mark
  · have small := byte.toNat_lt
    simp only [List.cons_append, List.nil_append, unescape?]
    rw [digit?_hexDigit _ (by omega), digit?_hexDigit _ (by omega)]
    have whole : UInt8.ofNat (16 * (byte.toNat / 16) + byte.toNat % 16) = byte := by
      rw [Nat.div_add_mod, UInt8.ofNat_toNat]
    simp only [Option.bind_eq_bind, Option.bind_some, whole]
    cases unescape? rest <;> rfl

/-- Escaped bytes are read back, whatever they are. -/
theorem unescape?_flatMap_byteChars (content : List UInt8) :
    unescape? (content.flatMap byteChars) = some content := by
  induction content with
  | nil => rfl
  | cons byte rest ih => rw [List.flatMap_cons, unescape?_byteChars_append, ih, Option.map_some]

theorem printable_hexDigit : ∀ n < 16, ' ' ≤ hexDigit n ∧ hexDigit n ≠ '"' := by decide

/-- An escaped byte is printed in one line and holds no quote. -/
theorem printable_byteChars : ∀ c ∈ byteChars byte, ' ' ≤ c ∧ c ≠ '"' := by
  intro c mem
  unfold byteChars at mem
  split at mem
  · rename_i plain
    obtain ⟨above, -, quote, -⟩ := isPlain_iff.mp plain
    cases List.mem_singleton.mp mem
    refine ⟨?_, plainChar_ne plain quote⟩
    change ' '.toNat ≤ (Char.ofNat byte.toNat).toNat
    rwa [toNat_plainChar plain]
  · have small := byte.toNat_lt
    simp only [List.mem_cons, List.not_mem_nil, or_false] at mem
    rcases mem with rfl | rfl | rfl
    · decide
    · exact printable_hexDigit _ (by omega)
    · exact printable_hexDigit _ (by omega)

theorem printable_escaped : ∀ c ∈ content.flatMap byteChars, ' ' ≤ c ∧ c ≠ '"' := by
  intro c mem
  obtain ⟨byte, -, inside⟩ := List.mem_flatMap.mp mem
  exact printable_byteChars c inside

end Bytes

/-! ## Nested constants -/

/-- The constant is built from integers, runs of bytes and structs. -/
inductive Discrete : Constant → Prop
  | int (bits : Nat) (value : Int) : Discrete (.int bits value)
  | bytes (content : List UInt8) : Discrete (.bytes content)
  | struct {fields : List Constant} : (∀ field ∈ fields, Discrete field) →
      Discrete (.struct fields)

/-- The text of further fields. -/
def moreChars (fields : List Constant) : List Char :=
  fields.flatMap fun field => ',' :: ' ' :: field.chars

theorem fieldChars_cons (field : Constant) (rest : List Constant) :
    fieldChars (field :: rest) = field.chars ++ moreChars rest := by
  induction rest generalizing field with
  | nil => rw [fieldChars, moreChars, List.flatMap_nil, List.append_nil]
  | cons next rest ih =>
    rw [fieldChars, ih next, moreChars, moreChars, List.flatMap_cons]
    · simp only [List.cons_append]
    · nofun

/-- Whatever follows a constant without going on with its digits, the text of the constant says
where it ends, and which one it is. -/
def Delimited (constant : Constant) : Prop :=
  ∀ {other : Constant} {rest rest' : List Char}, other.Discrete → Stops isNumeric rest →
    Stops isNumeric rest' → constant.chars ++ rest = other.chars ++ rest' →
    constant = other ∧ rest = rest'

section Delimiters

variable {rest rest' : List Char} {fields fields' : List Constant}

/-- Fields are followed by a comma or by the blank before the brace. -/
theorem stops_moreChars (fields : List Constant) (rest : List Char) :
    Stops isNumeric (moreChars fields ++ ' ' :: rest) := by
  cases fields with
  | nil => exact stops_cons rfl
  | cons field fields => exact stops_cons rfl

theorem moreChars_append_inj (delimited : ∀ field ∈ fields, field.Delimited)
    (discrete : ∀ field ∈ fields', field.Discrete)
    (same : moreChars fields ++ ' ' :: rest = moreChars fields' ++ ' ' :: rest') :
    fields = fields' ∧ rest = rest' := by
  induction fields generalizing fields' with
  | nil =>
    cases fields' with
    | nil => exact ⟨rfl, (List.cons.inj same).2⟩
    | cons field fields' => cases (List.cons.inj same).1
  | cons field fields ih =>
    cases fields' with
    | nil => cases (List.cons.inj same).1
    | cons field' fields' =>
      obtain ⟨first, others⟩ := List.forall_mem_cons.mp delimited
      obtain ⟨first', others'⟩ := List.forall_mem_cons.mp discrete
      simp only [moreChars, List.flatMap_cons, List.cons_append, List.append_assoc,
        List.cons.injEq, true_and] at same
      obtain ⟨rfl, following⟩ := first first' (stops_moreChars fields rest)
        (stops_moreChars fields' rest') same
      obtain ⟨rfl, rfl⟩ := ih others others' following
      exact ⟨rfl, rfl⟩

theorem delimited_int (bits : Nat) (value : Int) : (Constant.int bits value).Delimited := by
  intro other rest rest' discrete stops stops' same
  cases discrete with
  | bytes | struct => simp [chars] at same
  | int bits' value' =>
    simp only [chars, List.cons_append, List.append_assoc, List.cons.injEq, true_and] at same
    have blank : isNumeric ' ' = false := rfl
    obtain ⟨width, afterWidth⟩ := append_inj_of_stops
      (by rw [Nat.toString_eq_repr, Nat.toList_repr]; exact isNumeric_of_mem_toDigits bits)
      (by rw [Nat.toString_eq_repr, Nat.toList_repr]; exact isNumeric_of_mem_toDigits bits')
      (stops_cons blank) (stops_cons blank) same
    obtain ⟨number, rfl⟩ := append_inj_of_stops (isNumeric_of_mem_toString value)
      (isNumeric_of_mem_toString value') stops stops' (List.cons.inj afterWidth).2
    obtain rfl : bits = bits' := Nat.repr_inj.mp (String.toList_inj.mp width)
    obtain rfl : value = value' := Int.repr_inj.mp (String.toList_inj.mp number)
    exact ⟨rfl, rfl⟩

/-- A run of bytes ends at the first quote, since none is among its escapes. -/
theorem delimited_bytes (content : List UInt8) : (Constant.bytes content).Delimited := by
  intro other rest rest' discrete _ _ same
  cases discrete with
  | int | struct => simp [chars] at same
  | bytes content' =>
    simp only [chars, List.cons_append, List.append_assoc, List.cons.injEq, true_and,
      List.nil_append] at same
    have unquoted (content : List UInt8) :
        ∀ c ∈ content.flatMap byteChars, (c != '"') = true := fun c mem =>
      bne_iff_ne.mpr (printable_escaped c mem).2
    have quote : ('"' != '"') = false := rfl
    obtain ⟨escaped, following⟩ := append_inj_of_stops (unquoted content) (unquoted content')
      (stops_cons quote) (stops_cons quote) same
    have decoded := congrArg unescape? escaped
    rw [unescape?_flatMap_byteChars, unescape?_flatMap_byteChars] at decoded
    cases decoded
    exact ⟨rfl, (List.cons.inj following).2⟩

/-- A constant never starts with the blank that ends a struct. -/
theorem Discrete.ne_blank {constant : Constant} (h : constant.Discrete) :
    constant.chars ++ rest ≠ ' ' :: rest' := by
  intro same
  cases h <;> simp [chars] at same

theorem fieldChars_append_inj (discrete : ∀ field ∈ fields, field.Discrete)
    (delimited : ∀ field ∈ fields, field.Delimited)
    (discrete' : ∀ field ∈ fields', field.Discrete)
    (same : fieldChars fields ++ ' ' :: rest = fieldChars fields' ++ ' ' :: rest') :
    fields = fields' ∧ rest = rest' := by
  cases fields with
  | nil =>
    cases fields' with
    | nil => exact ⟨rfl, (List.cons.inj same).2⟩
    | cons field' fields' =>
      rw [fieldChars_cons, List.append_assoc] at same
      exact absurd same.symm (discrete' field' List.mem_cons_self).ne_blank
  | cons field fields =>
    cases fields' with
    | nil =>
      rw [fieldChars_cons, List.append_assoc] at same
      exact absurd same (discrete field List.mem_cons_self).ne_blank
    | cons field' fields' =>
      obtain ⟨first, others⟩ := List.forall_mem_cons.mp delimited
      obtain ⟨first', others'⟩ := List.forall_mem_cons.mp discrete'
      rw [fieldChars_cons, fieldChars_cons, List.append_assoc, List.append_assoc] at same
      obtain ⟨rfl, following⟩ := first first' (stops_moreChars fields rest)
        (stops_moreChars fields' rest') same
      obtain ⟨rfl, rfl⟩ := moreChars_append_inj others others' following
      exact ⟨rfl, rfl⟩

theorem Discrete.delimited {constant : Constant} (h : constant.Discrete) :
    constant.Delimited := by
  induction h with
  | int bits value => exact delimited_int bits value
  | bytes content => exact delimited_bytes content
  | struct discrete ih =>
    intro other rest rest' discrete' _ _ same
    cases discrete' with
    | int | bytes => simp [chars] at same
    | struct discrete' =>
      simp only [chars, List.cons_append, List.append_assoc, List.cons.injEq, true_and,
        List.nil_append] at same
      obtain ⟨rfl, following⟩ := fieldChars_append_inj discrete ih discrete' same
      exact ⟨rfl, (List.cons.inj following).2⟩

end Delimiters

/-- No two constants that are built from integers, runs of bytes and structs have the same text. The
escapes of any bytes are read back as these bytes, and between the two quotes of a run there is no
other quote and no line break. -/
theorem text_unambiguous :
    (∀ constant other : Constant, constant.Discrete → other.Discrete →
      (constant.text = other.text ↔ constant = other)) ∧
    ∀ content : List UInt8, ∃ escaped : List Char,
      (Constant.bytes content).text.toList = 'c' :: '"' :: escaped ++ ['"'] ∧
      unescape? escaped = some content ∧ '"' ∉ escaped ∧ '\n' ∉ escaped := by
  refine ⟨fun constant other discrete discrete' => ⟨fun same => ?_, congrArg text⟩, ?_⟩
  · have chars : constant.chars ++ [] = other.chars ++ [] := by
      rw [List.append_nil, List.append_nil]
      exact String.ofList_inj.mp same
    exact (discrete.delimited discrete' stops_nil stops_nil chars).1
  · intro content
    refine ⟨content.flatMap byteChars, ?_, unescape?_flatMap_byteChars content, ?_, ?_⟩
    · rw [text, chars, String.toList_ofList]
    · exact fun quote => (printable_escaped _ quote).2 rfl
    · exact fun line => absurd (printable_escaped _ line).1 (by decide)

/-- One run that holds quotes and a separator is written otherwise than the two runs that it would
be without its escapes. -/
theorem quoted_separator_told :
    let one : Constant := .struct [.bytes [97, 34, 44, 32, 99, 34, 98]]
    let two : Constant := .struct [.bytes [97], .bytes [98]]
    one.Discrete ∧ two.Discrete ∧ one.text ≠ two.text := by
  intro one two
  have discrete : one.Discrete := .struct (List.forall_mem_singleton.mpr (.bytes _))
  have discrete' : two.Discrete :=
    .struct (List.forall_mem_cons.mpr ⟨.bytes _, List.forall_mem_singleton.mpr (.bytes _)⟩)
  refine ⟨discrete, discrete', (text_unambiguous.1 one two discrete discrete').not.mpr ?_⟩
  simp [one, two]

end Constant
end FormLowering
