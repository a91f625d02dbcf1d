import FormLowering.Proofs.Form.Outcome
import FormLowering.Proofs.Number.Numeral
import FormLowering.Proofs.Ty.Same

/-!
The notation of types as nodes. A type without parameters whose names are registered has one node,
up to places and to the numerals of array lengths, and no other node is read as a type.
-/

namespace FormLowering

/-- A name written as a node. -/
def Node.symbol (name : String) : Node := .atom ⟨.identifier, name, .dummy⟩

/-- The node that a type is written as. -/
def Ty.node : Ty → Node
  | .primitive kind => .symbol kind.name
  | .pointer pointee false => .ofItems [.symbol "p", pointee.node]
  | .pointer pointee true => .ofItems [.symbol "p", .ofItems [.symbol "const", pointee.node]]
  | .array length element =>
    .ofItems [.symbol "array-of", .atom ⟨.integer, toString length, .dummy⟩, element.node]
  | .struct name | .enum name | .param name => .symbol name

/-- The text of a node without strings: lists stand in parentheses, their items a space apart. -/
def Node.text : Node → String
  | .atom token => token.text
  | .list items _ => "(" ++ " ".intercalate (items.map Node.text) ++ ")"

/-- The nodes are the same but for the places of their parts and for the spelling of integers. -/
inductive Node.Respells : Node → Node → Prop
  | token {kind : TokenKind} {text : String} {span other : Span} :
      Respells (.atom ⟨kind, text, span⟩) (.atom ⟨kind, text, other⟩)
  | integer {text text' : String} {span other : Span} {value : Int} :
      IsNumeral text.toList value → IsNumeral text'.toList value →
      Respells (.atom ⟨.integer, text, span⟩) (.atom ⟨.integer, text', other⟩)
  | list {items items' : List Node} {span other : Span} :
      List.Forall₂ Respells items items' → Respells (.list items span) (.list items' other)

/-- The type has no parameter, its names are registered, and its arrays have lengths of 64 bits. -/
inductive Ty.Named (types : Registry) : Ty → Prop
  | primitive {kind : Primitive} : Named types (.primitive kind)
  | pointer {pointee : Ty} {isConst : Bool} :
      Named types pointee → Named types (.pointer pointee isConst)
  | array {length : Nat} {element : Ty} :
      length < UInt64.size → Named types element → Named types (.array length element)
  | struct {name : String} : (types.struct? name).isSome → Named types (.struct name)
  | enum {name : String} : (types.enum? name).isSome → Named types (.enum name)

/-- No name of a struct or an enum means anything else. -/
structure Registry.NamesApart (types : Registry) : Prop where
  struct_ne : ∀ kind : Primitive, types.struct? kind.name = none
  enum_ne : ∀ kind : Primitive, types.enum? kind.name = none
  apart : ∀ name, types.struct? name = none ∨ types.enum? name = none

theorem Ty.text_node (ty : Ty) : ty.node.text = ty.text := by
  induction ty with
  | primitive | struct | enum | param => simp only [Ty.node, Node.symbol, Node.text, Ty.text]
  | pointer pointee isConst ih =>
    apply String.toList_inj.mp
    cases isConst <;> simp [Ty.node, Node.ofItems, Node.text, Node.symbol, Ty.text, ih, toString]
  | array length element ih =>
    apply String.toList_inj.mp
    simp [Ty.node, Node.ofItems, Node.text, Node.symbol, Ty.text, ih, toString]

/-! ## Reading a respelled type -/

namespace Node.Respells

variable {node other : Node}

/-- By recursion into the items: a node spells itself, and so does each node of a list. -/
theorem refl : ∀ node : Node, node.Respells node
  | .atom _ => .token
  | .list items _ => .list (each items)
where
  each : ∀ items : List Node, List.Forall₂ Node.Respells items items
    | [] => .nil
    | node :: rest => .cons (refl node) (each rest)

theorem symbol? (h : node.Respells other) : node.symbol? = other.symbol? := by
  cases h <;> rfl

theorem of_symbol? {name : String} (h : node.symbol? = some name) :
    node.Respells (.symbol name) := by
  cases node with
  | list => cases h
  | atom token =>
    obtain ⟨kind, text, span⟩ := token
    obtain ⟨identifier, same⟩ := Option.ite_none_right_eq_some.mp h
    cases identifier
    cases same
    exact .token

theorem head? (h : node.Respells other) : node.head? = other.head? := by
  cases h with
  | token | integer => rfl
  | list items =>
    cases items with
    | nil => rfl
    | cons first _ => exact first.symbol?

/-- A name is spelled in one way. -/
theorem eq_symbol {name : String} (h : node.Respells (.symbol name)) :
    ∃ span, node = .atom ⟨.identifier, name, span⟩ := by
  generalize written : Node.symbol name = other at h
  cases h <;> cases written
  exact ⟨_, rfl⟩

/-- A list that a name starts is spelled as a list that the name starts, with as many items. -/
theorem eq_call {name : String} {items : List Node}
    (h : node.Respells (.ofItems (.symbol name :: items))) : ∃ mark others span,
      node = .list (.atom ⟨.identifier, name, mark⟩ :: others) span ∧
        List.Forall₂ Node.Respells others items := by
  generalize written : Node.ofItems (.symbol name :: items) = other at h
  cases h <;> cases written
  rename_i others span spelled
  cases spelled with
  | cons head rest =>
    obtain ⟨mark, rfl⟩ := head.eq_symbol
    exact ⟨mark, _, span, rfl, rest⟩

/-- The length of an array may be any numeral of it. -/
theorem arrayLength? {length : Nat} (small : length < UInt64.size)
    (h : node.Respells (.atom ⟨.integer, toString length, .dummy⟩)) :
    node.arrayLength? = some length := by
  have numeral : IsNumeral (toString length).toList length :=
    .plain (.decimal (isNatural_toString length))
  have word : IsWord length := by
    constructor
    · exact le_trans (by decide) (Int.natCast_nonneg length)
    · exact lt_trans (Int.ofNat_lt.mpr small) (by decide)
  have read : ∀ {text : String}, IsNumeral text.toList length →
      (readInteger? text).bind
        (fun n => if 0 ≤ n ∧ n < UInt64.size then some n.toNat else none) = some length := by
    intro text spelled
    rw [readInteger?_eq_some_iff.mpr ⟨spelled, word⟩, Option.bind_some, if_pos]
    · rfl
    · exact ⟨Int.natCast_nonneg length, Int.ofNat_lt.mpr small⟩
  cases h with
  | token => exact read numeral
  | integer spelled written =>
    rw [written.unique numeral] at spelled
    exact read spelled

end Node.Respells

section Reading

variable {types : Registry} {node : Node} {ty : Ty}

/-- What is written below a pointer is no mark of a constant pointee. -/
theorem Ty.head?_node (ty : Ty) : ty.node.head? ≠ some "const" := by
  cases ty with
  | pointer pointee isConst =>
    cases isConst <;> simp [Ty.node, Node.ofItems, Node.symbol, Node.head?, Node.symbol?]
  | array length element => simp [Ty.node, Node.ofItems, Node.symbol, Node.head?, Node.symbol?]
  | primitive | struct | enum | param => simp [Ty.node, Node.symbol, Node.head?]

theorem Node.typeName_pointer {span above : Span} (unmarked : node.head? ≠ some "const") :
    (Node.list [.atom ⟨.identifier, "p", span⟩, node] above).typeName types =
      .pointerTo <$> node.typeName types := by
  cases node with
  | atom token => rfl
  | list items below =>
    rcases items with _ | ⟨mark, _ | ⟨pointee, _ | ⟨_, _⟩⟩⟩
    · rfl
    · rfl
    · exact if_neg unmarked
    · rfl

theorem Node.typeName_constPointer {span mark below above : Span} :
    (Node.list [.atom ⟨.identifier, "p", span⟩,
      .list [.atom ⟨.identifier, "const", mark⟩, node] below] above).typeName types =
      .constPointerTo <$> node.typeName types :=
  if_pos rfl

theorem Node.typeName_array {span above : Span} {size : Node} {length : Nat}
    (known : size.arrayLength? = some length) :
    (Node.list [.atom ⟨.identifier, "array-of", span⟩, size, node] above).typeName types =
      .array length <$> node.typeName types := by
  simp only [Node.typeName, Node.symbol?, if_pos, known]

theorem Token.typeName_symbol {name : String} {span : Span}
    (free : ∀ kind : Primitive, kind.name ≠ name) (known : types.named? name = some ty) :
    (Node.atom ⟨.identifier, name, span⟩).typeName types = .ok ty := by
  have unused : Primitive.ofName? name = none := by
    rw [Option.eq_none_iff_forall_ne_some]
    intro kind found
    exact free kind (Primitive.eq_of_ofName? found)
  simp only [Node.typeName, Token.typeName, if_pos, unused, known]

/-- Every spelling of a type is read as the type. -/
theorem Ty.Named.typeName_of_respells (apart : types.NamesApart) (named : ty.Named types)
    (spelled : node.Respells ty.node) : node.typeName types = .ok ty := by
  induction named generalizing node with
  | primitive =>
    obtain ⟨span, rfl⟩ := spelled.eq_symbol
    simp only [Node.typeName, Token.typeName, if_pos, Primitive.ofName?_name]
  | @pointer pointee isConst _ ih =>
    cases isConst with
    | false =>
      obtain ⟨_, _, _, rfl, items⟩ := spelled.eq_call
      cases items with | cons inner rest =>
      cases rest
      rw [Node.typeName_pointer (inner.head?.trans_ne pointee.head?_node), ih inner]
      rfl
    | true =>
      obtain ⟨_, _, _, rfl, items⟩ := spelled.eq_call
      cases items with | cons qualified rest =>
      cases rest
      obtain ⟨_, _, _, rfl, items⟩ := qualified.eq_call
      cases items with | cons inner rest =>
      cases rest
      rw [Node.typeName_constPointer, ih inner]
      rfl
  | array small _ ih =>
    obtain ⟨_, _, _, rfl, items⟩ := spelled.eq_call
    cases items with | cons size rest =>
    cases rest with | cons inner rest =>
    cases rest
    rw [Node.typeName_array (size.arrayLength? small), ih inner]
    rfl
  | @struct name known =>
    obtain ⟨span, rfl⟩ := spelled.eq_symbol
    apply Token.typeName_symbol
    · rintro kind rfl
      rw [apart.struct_ne] at known
      cases known
    · have other := (apart.apart name).resolve_left (Option.isSome_iff_ne_none.mp known)
      rw [Registry.named?, other, Option.isSome_none, if_neg Bool.false_ne_true, if_pos known]
  | @enum name known =>
    obtain ⟨span, rfl⟩ := spelled.eq_symbol
    apply Token.typeName_symbol
    · rintro kind rfl
      rw [apart.enum_ne] at known
      cases known
    · exact if_pos known

theorem Token.respells_of_typeName {token : Token} (h : token.typeName types = .ok ty) :
    ty.Named types ∧ (Node.atom token).Respells ty.node := by
  obtain ⟨kind, text, span⟩ := token
  unfold Token.typeName at h
  split at h
  · rename_i identifier
    cases identifier
    split at h
    · rename_i primitive found
      cases h
      cases Primitive.eq_of_ofName? found
      exact ⟨.primitive, .token⟩
    · split at h
      · rename_i found
        cases h
        unfold Registry.named? at found
        split at found
        · cases found
          exact ⟨.enum ‹_›, .token⟩
        · split at found
          · cases found
            exact ⟨.struct ‹_›, .token⟩
          · cases found
      · cases h
  · cases h

theorem Node.respells_of_arrayLength? {length : Nat} (h : node.arrayLength? = some length) :
    length < UInt64.size ∧ node.Respells (.atom ⟨.integer, toString length, .dummy⟩) := by
  cases node with
  | list => cases h
  | atom token =>
    obtain ⟨kind, text, span⟩ := token
    obtain ⟨integer, found⟩ := Option.ite_none_right_eq_some.mp h
    cases integer
    obtain ⟨value, read, checked⟩ := Option.bind_eq_some_iff.mp found
    obtain ⟨⟨nonneg, below⟩, same⟩ := Option.ite_none_right_eq_some.mp checked
    cases same
    have numeral := (readInteger?_eq_some_iff.mp read).1
    constructor
    · omega
    · apply Node.Respells.integer numeral
      have written : IsNumeral (toString value.toNat).toList value.toNat :=
        .plain (.decimal (isNatural_toString _))
      rwa [Int.toNat_of_nonneg nonneg] at written

theorem exists_of_map_ok {α β : Type} {f : α → β} {result : Except FormError α} {b : β}
    (h : f <$> result = .ok b) : ∃ a, result = .ok a ∧ f a = b := by
  cases result with
  | error => cases h
  | ok a =>
    cases h
    exact ⟨a, rfl, rfl⟩

/-- What is read as a type is a spelling of it. -/
theorem Node.respells_of_typeName (h : node.typeName types = .ok ty) :
    ty.Named types ∧ node.Respells ty.node := by
  fun_induction Node.typeName types node generalizing ty
  case case1 token => exact Token.respells_of_typeName h
  case case4 mark const ih =>
    obtain ⟨pointee, read, rfl⟩ := exists_of_map_ok h
    obtain ⟨named, spelled⟩ := ih read
    exact ⟨.pointer named, .list (.cons (.of_symbol? mark) (.cons
      (.list (.cons (.of_symbol? const) (.cons spelled .nil))) .nil))⟩
  case case5 mark _ ih =>
    obtain ⟨pointee, read, rfl⟩ := exists_of_map_ok h
    obtain ⟨named, spelled⟩ := ih read
    exact ⟨.pointer named, .list (.cons (.of_symbol? mark) (.cons spelled .nil))⟩
  case case6 mark ih =>
    obtain ⟨pointee, read, rfl⟩ := exists_of_map_ok h
    obtain ⟨named, spelled⟩ := ih read
    exact ⟨.pointer named, .list (.cons (.of_symbol? mark) (.cons spelled .nil))⟩
  case case8 mark length known ih =>
    obtain ⟨element, read, rfl⟩ := exists_of_map_ok h
    obtain ⟨named, spelled⟩ := ih read
    obtain ⟨small, numeral⟩ := Node.respells_of_arrayLength? known
    exact ⟨.array small named,
      .list (.cons (.of_symbol? mark) (.cons numeral (.cons spelled .nil)))⟩
  all_goals cases h

end Reading

theorem FormM.outcome_parseType (node : Node) (unit : CompilationUnit) :
    (FormM.parseType node).outcome unit = (FormM.check (node.typeName unit.types)).outcome unit :=
  rfl

/-- A type is read from its spellings and from nothing else. Reading one changes nothing, and the
failure to read one is a report. -/
theorem Ty.notation_exact {unit : CompilationUnit} (apart : unit.types.NamesApart) :
    (∀ ty : Ty, ty.Named unit.types → ty.node.text = ty.text ∧
      (FormM.parseType ty.node).outcome unit = (.ok ty, unit)) ∧
    (∀ (node : Node) (ty : Ty) (later : CompilationUnit),
      (FormM.parseType node).outcome unit = (.ok ty, later) ↔
        later = unit ∧ ty.Named unit.types ∧ node.Respells ty.node) ∧
    ∀ node : Node, (¬∃ ty : Ty, ty.Named unit.types ∧ node.Respells ty.node) → ∃ error,
      (FormM.parseType node).outcome unit =
        (.error error, { unit with log := unit.log.push error.diagnostic }) := by
  have accepted : ∀ {node : Node} {ty : Ty}, ty.Named unit.types → node.Respells ty.node →
      (FormM.parseType node).outcome unit = (.ok ty, unit) := by
    intro node ty named spelled
    rw [FormM.outcome_parseType, named.typeName_of_respells apart spelled]
    rfl
  refine ⟨?_, ?_, ?_⟩
  · intro ty named
    exact ⟨ty.text_node, accepted named (.refl _)⟩
  · intro node ty later
    constructor
    · intro read
      rw [FormM.outcome_parseType] at read
      cases found : node.typeName unit.types with
      | error error =>
        rw [found] at read
        cases read
      | ok other =>
        rw [found] at read
        cases read
        exact ⟨rfl, Node.respells_of_typeName found⟩
    · rintro ⟨rfl, named, spelled⟩
      exact accepted named spelled
  · intro node other
    cases found : node.typeName unit.types with
    | ok ty => exact absurd ⟨ty, Node.respells_of_typeName found⟩ other
    | error error =>
      rw [FormM.outcome_parseType, found]
      exact ⟨error, rfl⟩

/-- The name of a struct that is only declared stands for a type, and a length is read whatever its
digits are. -/
theorem Ty.notation_of_declared : ∃ unit : CompilationUnit, unit.types.NamesApart ∧
    (FormM.parseType (.list [.symbol "p", .list [.symbol "const", .list [.symbol "array-of",
      .atom ⟨.integer, "+0x04", .dummy⟩, .symbol "point"] ⟨3, 19⟩] .dummy] ⟨0, 20⟩)).outcome unit =
        (.ok (.constPointerTo (.array 4 (.struct "point"))), unit) := by
  let unit : CompilationUnit :=
    { CompilationUnit.new "m" .x86_64 0 with types := ({} : Registry).declareStruct "point" }
  have apart : unit.types.NamesApart := by
    constructor
    · intro kind
      cases kind <;> decide
    · intro kind
      rfl
    · intro name
      exact .inr rfl
  have named : Ty.Named unit.types (.constPointerTo (.array 4 (.struct "point"))) :=
    .pointer (.array (by decide) (.struct rfl))
  have plus : IsNumeral "+0x04".toList 4 := .plus (readMagnitude?_eq_some_iff.mp (by decide))
  have plain : IsNumeral (toString 4).toList 4 := .plain (readMagnitude?_eq_some_iff.mp (by decide))
  exact ⟨unit, apart, ((notation_exact apart).2.1 _ _ _).mpr ⟨rfl, named,
    .list (.cons .token (.cons (.list (.cons .token (.cons (.list (.cons .token
      (.cons (.integer plus plain) (.cons .token .nil)))) .nil))) .nil))⟩⟩

/-- Away from a pointer a mark of constness is the name of no type. -/
example (types : Registry) : (Node.list [.symbol "array-of", .atom ⟨.integer, "2", .dummy⟩,
    .list [.symbol "const", .symbol "int"] .dummy] .dummy).typeName types =
      .error ⟨.unknownType "const", .dummy⟩ := rfl

end FormLowering
