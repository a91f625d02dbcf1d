import Mathlib.Data.List.DropRight
import Mathlib.Data.Prod.Basic
import FormLowering.Report.Position
import FormLowering.Proofs.Form.Escapes

/-!
Positions in a text. The position of a boundary between characters is read off the text before it:
its newlines make the line, and what stands behind the last of them makes the column. So positions
are ordered as the offsets are. In a text of less than 4 GiB only the end can be without a position.
-/

namespace FormLowering

/-! ## Ordinals -/

theorem ordinal?_eq_none_iff {count : Nat} : ordinal? count = none ↔ count + 1 = UInt32.size := by
  have size : UInt32.size = 4294967296 := rfl
  simp only [ordinal?]
  split <;> split <;> simp <;> omega

/-- What overflows neither nor fits is the greatest number. -/
theorem toNat_of_ordinal? {count : Nat} {n : UInt32} (h : ordinal? count = some n) :
    n.toNat = min (count + 1) (UInt32.size - 1) := by
  have size : UInt32.size = 4294967296 := rfl
  have next {held : Nat} (fits : held + 1 < UInt32.size) :
      (UInt32.ofNat (held + 1)).toNat = held + 1 := UInt32.toNat_ofNat_of_lt' fits
  simp only [ordinal?] at h
  split at h <;> split at h
  · rename_i fits
    cases h
    rw [next fits]
    omega
  · cases h
  · rename_i fits
    cases h
    rw [next fits]
    omega
  · cases h

theorem toNat_of_ordinal?_lt {count : Nat} {n : UInt32} (short : count < UInt32.size)
    (h : ordinal? count = some n) : n.toNat = 1 + count := by
  have fits : count + 1 ≠ UInt32.size := by
    rw [Ne, ← ordinal?_eq_none_iff, h]
    nofun
  rw [toNat_of_ordinal? h]
  omega

/-! ## Lines of a text -/

def utf8Bytes (text : List Char) : List UInt8 := text.flatMap String.utf8EncodeChar

/-- What stands behind the last newline. -/
def lastLine (text : List Char) : List Char := text.rtakeWhile (· != '\n')

/-- The text up to its last newline. -/
def closedLines (text : List Char) : List Char := text.rdropWhile (· != '\n')

/-- A character starts at the offset, or the text ends there. -/
def IsBoundary (source : List Char) (offset : Nat) : Prop :=
  ∃ before, before <+: source ∧ byteLength before = offset

theorem closedLines_append_lastLine (text : List Char) :
    closedLines text ++ lastLine text = text :=
  List.rdropWhile_append_rtakeWhile

theorem newline_notMem_lastLine (text : List Char) : '\n' ∉ lastLine text := by
  intro mem
  have other := List.mem_rtakeWhile_imp mem
  simp at other

/-- The closed lines, if there are any, end with a newline. -/
theorem closedLines_eq (text : List Char) :
    closedLines text = [] ∨ ∃ lines, closedLines text = lines ++ ['\n'] := by
  rcases List.eq_nil_or_concat' (closedLines text) with empty | ⟨lines, last, same⟩
  · exact .inl empty
  · have nonempty : closedLines text ≠ [] := by simp [same]
    have ends := List.rdropWhile_last_not (· != '\n') text nonempty
    have newline : (closedLines text).getLast nonempty = '\n' := by simpa [closedLines] using ends
    simp only [same, List.getLast_append_singleton] at newline
    exact .inr ⟨lines, newline ▸ same⟩

theorem count_closedLines (text : List Char) :
    (closedLines text).count '\n' = text.count '\n' := by
  have split := congrArg (List.count '\n') (closedLines_append_lastLine text)
  rw [List.count_append, List.count_eq_zero.mpr (newline_notMem_lastLine text)] at split
  exact split

/-- Characters other than newlines go on with the last line. -/
theorem lastLine_append {before more : List Char} (h : '\n' ∉ more) :
    lastLine (before ++ more) = lastLine before ++ more := by
  unfold lastLine List.rtakeWhile
  rw [List.reverse_append, List.takeWhile_append_of_pos, List.reverse_append, List.reverse_reverse]
  intro c mem
  rw [bne_iff_ne]
  rintro rfl
  exact h (List.mem_reverse.mp mem)

/-! ## Bytes -/

theorem foldl_byteLength (text : List Char) (length : Nat) :
    text.foldl (fun length c => length + c.utf8Size) length = length + byteLength text := by
  induction text generalizing length with
  | nil => rfl
  | cons c rest ih =>
    simp only [byteLength, List.foldl_cons]
    rw [ih, ih]
    omega

@[simp] theorem byteLength_nil : byteLength [] = 0 := rfl

@[simp] theorem byteLength_cons (c : Char) (rest : List Char) :
    byteLength (c :: rest) = c.utf8Size + byteLength rest := by
  rw [byteLength, List.foldl_cons, foldl_byteLength, Nat.zero_add]

@[simp] theorem byteLength_append (before after : List Char) :
    byteLength (before ++ after) = byteLength before + byteLength after := by
  induction before with
  | nil => simp
  | cons c rest ih => simp [ih, Nat.add_assoc]

theorem length_utf8Bytes (text : List Char) : (utf8Bytes text).length = byteLength text := by
  induction text with
  | nil => rfl
  | cons c rest ih =>
    rw [byteLength_cons, ← ih, utf8Bytes, List.flatMap_cons, List.length_append,
      String.length_utf8EncodeChar]
    rfl

theorem utf8Bytes_append (before after : List Char) :
    utf8Bytes (before ++ after) = utf8Bytes before ++ utf8Bytes after :=
  List.flatMap_append

/-- The bytes of newlines are those of the newline characters. -/
theorem count_utf8Bytes (text : List Char) : (utf8Bytes text).count 10 = text.count '\n' := by
  induction text with
  | nil => rfl
  | cons c rest ih =>
    rw [utf8Bytes, List.flatMap_cons, List.count_append, List.count_cons]
    change _ + (utf8Bytes rest).count 10 = _
    rw [ih, Nat.add_comm]
    congr 1
    by_cases newline : c = '\n'
    · subst newline
      rfl
    · rw [if_neg (by simpa using newline), List.count_eq_zero]
      intro mem
      exact newline (eq_of_mem_utf8EncodeChar (by decide) mem)

/-! ## Lines -/

namespace LineTable

theorem startsFrom_append (offset : Nat) (before after : List Char) :
    startsFrom offset (before ++ after) =
      startsFrom offset before ++ startsFrom (offset + byteLength before) after := by
  induction before generalizing offset with
  | nil => simp [startsFrom]
  | cons c rest ih =>
    simp only [List.cons_append, startsFrom, byteLength_cons]
    rw [ih, ← Nat.add_assoc]
    split <;> rfl

theorem length_startsFrom (offset : Nat) (text : List Char) :
    (startsFrom offset text).length = text.count '\n' := by
  induction text generalizing offset with
  | nil => rfl
  | cons c rest ih =>
    simp only [startsFrom, List.count_cons]
    split
    · rename_i newline
      simp [ih, newline]
    · rename_i other
      simp [ih, other]

/-- Lines start behind the newlines, so within the text. -/
theorem mem_startsFrom {offset start : Nat} {text : List Char}
    (h : start ∈ startsFrom offset text) :
    offset < start ∧ start ≤ offset + byteLength text := by
  induction text generalizing offset with
  | nil => cases h
  | cons c rest ih =>
    have size := c.utf8Size_pos
    rw [byteLength_cons]
    simp only [startsFrom] at h
    split at h
    · rcases List.mem_cons.mp h with rfl | later
      · omega
      · have := ih later
        omega
    · have := ih h
      omega

theorem starts_ofSource {source : List Char} (short : byteLength source < UInt32.size) :
    (ofSource source).starts = 0 :: startsFrom 0 source := by
  simp only [ofSource, List.cons.injEq, true_and]
  rw [List.map_congr_left (g := id), List.map_id]
  intro start mem
  have := mem_startsFrom mem
  simp only [id_eq]
  omega

section Boundary

variable {before after : List Char} (short : byteLength (before ++ after) < UInt32.size)

include short

/-- The lines that start by a boundary are the first one and one for each newline before it. -/
theorem line_ofSource :
    (ofSource (before ++ after)).line (byteLength before) = ordinal? (before.count '\n') := by
  have counted : (startsFrom 0 before).countP (· ≤ byteLength before) = before.count '\n' := by
    rw [List.countP_eq_length.mpr, length_startsFrom]
    intro start mem
    have := mem_startsFrom mem
    simp only [decide_eq_true_eq]
    omega
  have later : (startsFrom (byteLength before) after).countP (· ≤ byteLength before) = 0 := by
    rw [List.countP_eq_zero]
    intro start mem
    have := mem_startsFrom mem
    simp only [decide_eq_true_eq]
    omega
  rw [line, starts_ofSource short, startsFrom_append, List.countP_cons, List.countP_append, counted,
    Nat.zero_add, later]
  simp

/-- The line of a boundary starts behind the last newline before it. -/
theorem start_ofSource {line : UInt32} (number : line.toNat = 1 + before.count '\n') :
    (ofSource (before ++ after)).start line = byteLength (closedLines before) := by
  simp only [start, starts_ofSource short, number, Nat.add_sub_cancel_left]
  have split : before ++ after = closedLines before ++ (lastLine before ++ after) := by
    rw [← List.append_assoc, closedLines_append_lastLine]
  rw [split, ← count_closedLines]
  rcases closedLines_eq before with empty | ⟨lines, same⟩
  · simp [empty]
  · have here : startsFrom 0 (lines ++ ['\n']) =
        startsFrom 0 lines ++ [byteLength (lines ++ ['\n'])] := by
      rw [startsFrom_append]
      simp [startsFrom]
    rw [same, startsFrom_append, here, List.count_append, ← length_startsFrom 0 lines]
    simp

end Boundary

/-- No line starts behind the end. -/
theorem line_beyond {source : List Char} {offset : Nat} (h : byteLength source ≤ offset) :
    (ofSource source).line offset = (ofSource source).line (byteLength source) := by
  unfold line ofSource
  congr 2
  apply List.countP_congr
  intro start mem
  rw [decide_eq_true_eq, decide_eq_true_eq]
  have within : start ≤ byteLength source := by
    rcases List.mem_cons.mp mem with rfl | later
    · exact Nat.zero_le _
    · obtain ⟨start, listed, rfl⟩ := List.mem_map.mp later
      have within := (mem_startsFrom listed).2
      omega
  omega

end LineTable

/-! ## Columns -/

theorem charsBefore?_append (before after : List Char) :
    charsBefore? (before ++ after) (byteLength before) = some before.length := by
  induction before with
  | nil => cases after <;> rfl
  | cons c rest ih =>
    obtain ⟨size, hsize⟩ := Nat.exists_eq_add_of_lt c.utf8Size_pos
    have bytes : byteLength (c :: rest) = size + byteLength rest + 1 := by
      rw [byteLength_cons]
      omega
    have fits : c.utf8Size ≤ size + byteLength rest + 1 := by omega
    have left : size + byteLength rest + 1 - c.utf8Size = byteLength rest := by omega
    rw [bytes, List.cons_append, charsBefore?, if_pos fits, left, ih]
    rfl

theorem charsBetween?_lastLine (before after : List Char) :
    charsBetween? (before ++ after) (byteLength (closedLines before)) (byteLength before) =
      some (lastLine before).length := by
  have split := closedLines_append_lastLine before
  have bytes := congrArg byteLength split
  have chars := congrArg List.length split
  rw [byteLength_append] at bytes
  rw [List.length_append] at chars
  have start : charsBefore? (before ++ after) (byteLength (closedLines before)) =
      some (closedLines before).length := by
    rw [← split, List.append_assoc]
    rw [split]
    exact charsBefore?_append _ _
  unfold charsBetween?
  rw [if_pos (by omega), start, charsBefore?_append]
  simp only [Option.some.injEq]
  omega

/-! ## Positions -/

/-- The text has as many characters as 32 bits can count, and they are newlines, or none is. -/
def Overflows (text : List Char) : Prop :=
  text.length + 1 = UInt32.size ∧ ((∀ c ∈ text, c = '\n') ∨ '\n' ∉ text)

theorem length_le_byteLength (text : List Char) : text.length ≤ byteLength text := by
  induction text with
  | nil => rfl
  | cons c rest ih =>
    have size := c.utf8Size_pos
    rw [byteLength_cons, List.length_cons]
    omega

theorem length_lastLine_le (text : List Char) : (lastLine text).length ≤ text.length := by
  have split := congrArg List.length (closedLines_append_lastLine text)
  rw [List.length_append] at split
  omega

section Boundary

variable {before after : List Char} (short : byteLength (before ++ after) < UInt32.size)

include short

theorem length_before_lt : before.length < UInt32.size := by
  have chars := length_le_byteLength before
  rw [byteLength_append] at short
  omega

theorem count_before_lt : before.count '\n' < UInt32.size :=
  Nat.lt_of_le_of_lt List.count_le_length (length_before_lt short)

theorem length_lastLine_lt : (lastLine before).length < UInt32.size :=
  Nat.lt_of_le_of_lt (length_lastLine_le before) (length_before_lt short)

theorem position_append :
    position (before ++ after) (byteLength before) = do
      return (← ordinal? (before.count '\n'), ← ordinal? (lastLine before).length) := by
  have stop : min (byteLength before) (byteLength (before ++ after)) = byteLength before := by
    rw [byteLength_append]
    omega
  simp only [position, LineTable.position]
  rw [LineTable.line_ofSource short, stop]
  cases number : ordinal? (before.count '\n') with
  | none => rfl
  | some line =>
    have number := toNat_of_ordinal?_lt (count_before_lt short) number
    simp only [Option.bind_eq_bind, Option.bind_some]
    rw [LineTable.start_ofSource short number, charsBetween?_lastLine]
    rfl

theorem position_eq_some {line column : UInt32}
    (h : position (before ++ after) (byteLength before) = some (line, column)) :
    line.toNat = 1 + before.count '\n' ∧ column.toNat = 1 + (lastLine before).length := by
  rw [position_append short] at h
  simp only [Option.bind_eq_bind, Option.bind_eq_some_iff, Option.pure_def, Option.some.injEq,
    Prod.mk.injEq] at h
  obtain ⟨_, first, _, second, rfl, rfl⟩ := h
  exact ⟨toNat_of_ordinal?_lt (count_before_lt short) first,
    toNat_of_ordinal?_lt (length_lastLine_lt short) second⟩

theorem position_eq_none_iff :
    position (before ++ after) (byteLength before) = none ↔ Overflows before := by
  have chars := length_before_lt short
  have size : UInt32.size = 4294967296 := rfl
  rw [position_append short]
  constructor
  · intro h
    cases first : ordinal? (before.count '\n') with
    | none =>
      have full := ordinal?_eq_none_iff.mp first
      have all : before.count '\n' = before.length := by
        have := List.count_le_length (a := '\n') (l := before)
        omega
      exact ⟨all ▸ full, .inl fun c mem => (List.count_eq_length.mp all c mem).symm⟩
    | some line =>
      cases second : ordinal? (lastLine before).length with
      | some column =>
        rw [first, second] at h
        cases h
      | none =>
        have full := ordinal?_eq_none_iff.mp second
        have split := congrArg List.length (closedLines_append_lastLine before)
        rw [List.length_append] at split
        have closed : closedLines before = [] := List.eq_nil_of_length_eq_zero (by omega)
        have alone : lastLine before = before := by
          simpa [closed] using closedLines_append_lastLine before
        rw [alone] at full
        exact ⟨full, .inr (alone ▸ newline_notMem_lastLine before)⟩
  · rintro ⟨full, newlines | line⟩
    · have all : before.count '\n' = before.length :=
        List.count_eq_length.mpr fun c mem => (newlines c mem).symm
      rw [all, ordinal?_eq_none_iff.mpr full]
      rfl
    · have alone : lastLine ([] ++ before) = [] ++ before := lastLine_append line
      rw [List.nil_append] at alone
      rw [alone, ordinal?_eq_none_iff.mpr full]
      cases ordinal? (before.count '\n') <;> rfl

end Boundary

theorem position_beyond {source : List Char} {offset : Nat} (h : byteLength source ≤ offset) :
    position source offset = position source (byteLength source) := by
  simp only [position, LineTable.position]
  rw [LineTable.line_beyond h, Nat.min_eq_right h, Nat.min_self]

/-- A later boundary is on a later line, or further on the same one. -/
theorem position_lt {source : List Char} (short : byteLength source < UInt32.size)
    {offset other : Nat} (h : IsBoundary source offset) (h' : IsBoundary source other)
    (lt : offset < other) {p q : UInt32 × UInt32} (found : position source offset = some p)
    (found' : position source other = some q) : Prod.Lex (· < ·) (· < ·) p q := by
  obtain ⟨before, within, rfl⟩ := h
  obtain ⟨further, within', rfl⟩ := h'
  obtain ⟨more, rfl⟩ : before <+: further := by
    rcases List.prefix_or_prefix_of_prefix within within' with le | ⟨more, rfl⟩
    · exact le
    · rw [byteLength_append] at lt
      omega
  obtain ⟨after, rfl⟩ := within'
  obtain ⟨line', column'⟩ := position_eq_some short found'
  rw [List.append_assoc] at short found
  obtain ⟨line, column⟩ := position_eq_some short found
  by_cases newline : '\n' ∈ more
  · refine .left _ _ ?_
    have := List.count_pos_iff.mpr newline
    rw [List.count_append] at line'
    rw [UInt32.lt_iff_toNat_lt]
    omega
  · rw [List.count_append, List.count_eq_zero.mpr newline, Nat.add_zero, ← line] at line'
    rw [lastLine_append newline, List.length_append] at column'
    obtain ⟨first, second⟩ := p
    obtain ⟨first', second'⟩ := q
    cases UInt32.toNat_inj.mp line'
    refine .right _ ?_
    rw [UInt32.lt_iff_toNat_lt]
    cases more with
    | nil => simp at lt
    | cons c rest =>
      rw [List.length_cons] at column'
      dsimp only at column column'
      omega

/-- In a text of less than 4 GiB, the position of each boundary between characters is read off the
text before it: the line is one more than the newline bytes there, and the column one more than the
characters behind the last of them. It overflows exactly behind as many characters as 32 bits can
count that are newlines, or none of them, which is at the end of the longest of these texts. Past
the end it is the position of the end. So no two boundaries have one position, and a later one has a
greater position, by line and then by column. -/
theorem position_exact {source : List Char} (short : byteLength source < UInt32.size) :
    (∀ before after, source = before ++ after →
      (position source (byteLength before) = none ↔ Overflows before) ∧
      ∀ line column, position source (byteLength before) = some (line, column) →
        line.toNat = 1 + ((utf8Bytes source).take (byteLength before)).count 10 ∧
          column.toNat = 1 + (lastLine before).length) ∧
    (∀ before, before <+: source → Overflows before →
      before = source ∧ byteLength source + 1 = UInt32.size) ∧
    (∀ offset, byteLength source ≤ offset →
      position source offset = position source (byteLength source)) ∧
    ∀ offset other p q, IsBoundary source offset → IsBoundary source other →
      position source offset = some p → position source other = some q →
      (p = q → offset = other) ∧ (offset < other → Prod.Lex (· < ·) (· < ·) p q) := by
  refine ⟨?_, ?_, fun offset => position_beyond, ?_⟩
  · rintro before after rfl
    refine ⟨position_eq_none_iff short, fun line column found => ?_⟩
    rw [utf8Bytes_append, ← length_utf8Bytes, List.take_left, count_utf8Bytes]
    exact position_eq_some short found
  · rintro before ⟨after, rfl⟩ ⟨full, -⟩
    have chars := length_le_byteLength before
    have rest := length_le_byteLength after
    rw [byteLength_append] at short ⊢
    have nothing : after = [] := List.eq_nil_of_length_eq_zero (by omega)
    subst nothing
    exact ⟨(List.append_nil before).symm, by rw [byteLength_nil]; omega⟩
  · intro offset other p q h h' found found'
    refine ⟨?_, fun lt => position_lt short h h' lt found found'⟩
    rintro rfl
    rcases Nat.lt_trichotomy offset other with lt | same | lt
    · have less := position_lt short h h' lt found found'
      rw [Prod.lex_def] at less
      simp at less
    · exact same
    · have less := position_lt short h' h lt found' found
      rw [Prod.lex_def] at less
      simp at less

/-- An empty line, two characters of two bytes and a newline at the end: the offsets 1, 2, 4 and 7
start the second line, the third one, its second character and the last line. -/
theorem position_multibyte :
    let source := ['\n', '\n', 'é', 'ß', '\n']
    byteLength source < UInt32.size ∧ position source 1 = some (2, 1) ∧
      position source 4 = some (3, 2) ∧ position source 9 = some (4, 1) ∧
      Prod.Lex (· < ·) (· < ·) ((3, 1) : UInt32 × UInt32) (3, 2) := by
  intro source
  have short : byteLength source < UInt32.size := by decide
  obtain ⟨-, -, beyond, ordered⟩ := position_exact short
  refine ⟨short, by decide, by decide, (beyond 9 (by decide)).trans (by decide), ?_⟩
  exact (ordered 2 4 (3, 1) (3, 2) ⟨['\n', '\n'], by decide, by decide⟩
    ⟨['\n', '\n', 'é'], by decide, by decide⟩ (by decide) (by decide)).2 (by decide)

/-! ## The end of the longest texts -/

theorem byteLength_replicate (n : Nat) : byteLength (List.replicate n 'a') = n := by
  induction n with
  | zero => rfl
  | succ n ih =>
    rw [List.replicate_succ, byteLength_cons, ih, Nat.add_comm]
    rfl

theorem position_replicate {n : Nat} (full : n + 1 = UInt32.size) :
    position (List.replicate n 'a') n = none := by
  have short : byteLength (List.replicate n 'a' ++ []) < UInt32.size := by
    rw [List.append_nil, byteLength_replicate]
    omega
  have overflows : Overflows (List.replicate n 'a') := by
    refine ⟨by rw [List.length_replicate, full], .inr fun mem => ?_⟩
    cases (List.mem_replicate.mp mem).2
  have ended := (position_eq_none_iff short).mpr overflows
  rwa [List.append_nil, byteLength_replicate] at ended

/-- The end of one line of 4 GiB less one byte has a line, but its column overflows. -/
theorem position_overflows :
    byteLength (List.replicate 4294967295 'a') < UInt32.size ∧
      IsBoundary (List.replicate 4294967295 'a') 4294967295 ∧
      position (List.replicate 4294967295 'a') 4294967295 = none := by
  have full : 4294967295 + 1 = UInt32.size := rfl
  refine ⟨?_, ⟨_, List.prefix_refl _, byteLength_replicate _⟩, position_replicate full⟩
  rw [byteLength_replicate]
  exact full ▸ Nat.lt_succ_self _

end FormLowering
