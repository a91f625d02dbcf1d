import FormLowering.Proofs.Number.Range
import FormLowering.Proofs.Ty.Bound
import FormLowering.Proofs.Unit.Independence

/-!
The integer constants that forms emit. Each is as wide as the kind of its type, and what is read,
named or measured is checked against that width; the members of enums are not.
-/

namespace FormLowering

/-- A measurement that pointers can express is in the range of sizes. -/
theorem Target.inRange_of_canExpress {target : Target} {n : Nat} (word : n < 2 ^ 64)
    (h : target.canExpress n = true) : InRange n target.pointerBits false := by
  unfold canExpress at h
  rcases Bool.or_eq_true_iff.mp h with wide | narrow
  · exact InRange.mono ⟨Int.natCast_nonneg n, by exact_mod_cast word⟩ (by simpa using wide)
  · refine ⟨Int.natCast_nonneg n, ?_⟩
    have : n < 2 ^ target.pointerBits := by
      simpa [Nat.shiftRight_eq_div_pow, Nat.div_eq_zero_iff] using narrow
    exact_mod_cast this

/-! ## Integers of constants -/

/-- The constant is the integer, or has it in a field. -/
inductive Constant.Holds (bits : Nat) (value : Int) : Constant → Prop
  | int : Holds bits value (.int bits value)
  | field {fields : List Constant} {field : Constant} : field ∈ fields → Holds bits value field →
      Holds bits value (.struct fields)

/-- The kind of the integers that constants of a type are made of. -/
def Ty.integerKind? (types : Registry) : Ty → Option Primitive
  | .primitive kind => if kind.isInteger || kind == .bool then some kind else none
  | .enum name => (types.enum? name).map (·.underlying)
  | _ => none

/-- The value is of a member of the enum, and no value of the underlying kind. -/
structure EnumDef.Overflows (enum : EnumDef) (target : Target) (value : Int) : Prop where
  member : ∃ name, enum.member? name = some value
  outside : ¬InRange value (target.integerBits enum.underlying) enum.underlying.isSigned

/-- The integers of the constant are as wide as the kind of its type and in the kind's range, but
for members of an enum that are not. -/
def Constant.Suits (constant : Constant) (types : Registry) (target : Target) (ty : Ty) : Prop :=
  ∀ bits value, constant.Holds bits value → ∃ kind, ty.integerKind? types = some kind ∧
    bits = target.integerBits kind ∧ (InRange value bits kind.isSigned ∨
      ∃ enum, ty = .enum enum.name ∧ types.enum? enum.name = some enum ∧
        enum.Overflows target value)

section Constants

variable {types : Registry} {target : Target}

theorem Constant.suits_int (kind : Primitive) {value : Int}
    (integer : Ty.integerKind? types (.primitive kind) = some kind)
    (range : InRange value (target.integerBits kind) kind.isSigned) :
    Constant.Suits (.int (target.integerBits kind) value) types target (.primitive kind) := by
  rintro _ _ ⟨⟩
  exact ⟨kind, integer, rfl, .inl range⟩

theorem Constant.suits_float (kind : FloatKind) (value : Binary64) (ty : Ty) :
    Constant.Suits (.float kind value) types target ty := nofun

theorem Constant.not_holds_bytes {content : List UInt8} {bits : Nat} {value : Int} :
    ¬Constant.Holds bits value (.bytes content) := nofun

/-- The member of an enum is as wide as the underlying kind, and may be out of its range. -/
theorem Constant.suits_member {enum : EnumDef} (registered : types.enum? enum.name = some enum)
    {name : String} {value : Int} (member : enum.member? name = some value) :
    Constant.Suits (.struct [.int (target.integerBits enum.underlying) value]) types target
      (.enum enum.name) := by
  rintro _ _ (_ | ⟨mem, held⟩)
  obtain rfl := List.mem_singleton.mp mem
  cases held
  refine ⟨enum.underlying, by simp [Ty.integerKind?, registered], rfl, ?_⟩
  by_cases range : InRange value (target.integerBits enum.underlying) enum.underlying.isSigned
  · exact .inl range
  · exact .inr ⟨enum, rfl, registered, ⟨name, member⟩, range⟩

end Constants

/-! ## Evaluations -/

namespace CompilationUnit

/-- The memo is sound and the target is a known platform. -/
structure Suited (unit : CompilationUnit) : Prop where
  settled : unit.Settled
  preset : unit.target ∈ Target.presets

/-- Of what is new, constants suit their types, and globals are initialized without integers. -/
structure Fitting (unit later : CompilationUnit) : Prop where
  changes : Changes True unit later
  values : ∀ {id v constant}, unit.module.value? id = none → later.module.value? id = some v →
    v.kind = .constant constant → constant.Suits unit.types unit.target v.ty
  globals : ∀ {id g init bits value}, unit.module.global? id = none →
    later.module.global? id = some g → g.init? = some init → ¬init.Holds bits value

/-- From a suited unit on, whatever is new fits. -/
def Fits (unit later : CompilationUnit) : Prop := unit.Suited → unit.Fitting later

variable {unit mid later : CompilationUnit}

theorem Suited.changes (h : unit.Suited) (changes : Changes True unit later) : later.Suited :=
  ⟨changes.settled h.settled, changes.target ▸ h.preset⟩

theorem Fitting.same (changes : Changes True unit later) (module : later.module = unit.module) :
    unit.Fitting later := by
  refine ⟨changes, fun new hv _ => ?_, fun new hg _ => ?_⟩
  · rw [module, new] at hv
    cases hv
  · rw [module, new] at hg
    cases hg

theorem Fitting.trans (first : unit.Fitting mid) (rest : mid.Fitting later) :
    unit.Fitting later := by
  refine ⟨first.changes.trans rest.changes, fun {id v constant} new hv kind => ?_,
    fun {id g _ _ _} new hg init => ?_⟩
  · cases halfway : mid.module.value? id with
    | none =>
      rw [← first.changes.types, ← first.changes.target]
      exact rest.values halfway hv kind
    | some w =>
      cases (rest.changes.grows.value halfway).symm.trans hv
      exact first.values new halfway kind
  · cases halfway : mid.module.global? id with
    | none => exact rest.globals halfway hg init
    | some w =>
      cases (rest.changes.grows.global halfway).symm.trans hg
      exact first.globals new halfway init

/-- An instruction is no constant. -/
theorem Fitting.emitted (changes : Changes True unit later) {instruction : Instruction} {ty : Ty}
    (module : later.module = (unit.builder.pushInstruction instruction ty).2.module) :
    unit.Fitting later := by
  refine ⟨changes, fun {id v _} new hv kind => ?_, fun new hg _ => ?_⟩
  · rw [module] at hv
    cases eq_of_added (unit.builder.value?_pushInstruction instruction ty id) new hv
    cases kind
  · rw [module, Builder.global?_pushInstruction] at hg
    cases new.symm.trans hg

/-- What suits its type may be made, and everything else that forms do adds no integer. -/
theorem fits_frame : Frame True Fits fun unit ty constant =>
    unit.Suited → constant.Suits unit.types unit.target ty where
  refl unit _ := .same .refl rfl
  trans first rest suited := (first suited).trans (rest (suited.changes (first suited).changes))
  report log _ := .same (.single (.report log)) rfl
  measure query _ := .same (.single (.measure query)) rfl
  position block _ := .same (.single (.edit (.position block))) rfl
  load {unit} pointer _ := by
    obtain ⟨_, module⟩ := unit.builder.module_load pointer
    exact .emitted (.single (.edit (.load pointer))) module
  store _ {unit} value pointer _ :=
    .emitted (.single (.edit (.store trivial value pointer)))
      (unit.builder.module_store value pointer)
  gep pointer indices ty _ := .emitted (.single (.edit (.gep pointer indices ty))) rfl
  constant {unit ty constant} suits suited := by
    refine ⟨.single (.edit (.constant ty constant)), fun {id v _} new hv kind => ?_,
      fun new hg _ => ?_⟩
    · cases eq_of_added (unit.builder.value?_pushValue _ id) new hv
      cases kind
      exact suits suited
    · cases new.symm.trans hg

theorem fitting_storeString (unit : CompilationUnit) (text : String) (span : Span) :
    unit.Fitting ((FormM.storeString text span).outcome unit).2 := by
  obtain ⟨added, accepted, ended⟩ := FormM.outcome_storeString text span unit
  rw [ended]
  refine ⟨.single (.string accepted), fun {id v _} new hv kind => ?_,
    fun {id g _ _ _} new hg init => ?_⟩
  · cases eq_of_added (unit.builder.value?_addGlobal? accepted id) new hv
    cases kind
  · cases eq_of_added (unit.builder.global?_addGlobal? accepted id) new hg
    cases init
    exact Constant.not_holds_bytes

/-- A query is answered as by a walk without a memo. -/
theorem Suited.answer (h : unit.Suited) {query : LayoutQuery} {answer : Except LayoutError Nat}
    (ended : (FormM.measure fun types target => query.run types target).outcome unit =
      (.ok answer, later)) : query.direct unit.types unit.target = answer := by
  obtain ⟨memo, run, -, -⟩ := query.answers unit.types unit.layout h.settled.idle h.settled.sound
  rw [FormM.outcome_measure, run] at ended
  cases ended
  rfl

/-- A size is a constant only if the pointers of the target can express it. -/
theorem leads_measured (request : Request) (ty : Ty) (span : Span) (query : LayoutQuery)
    (unit : CompilationUnit) :
    FormM.Leads Fits unit
      (FormM.measured request ty span fun types target => query.run types target) := by
  intro suited
  refine fits_frame.leads_measured request ty span query (fun n later ended expressed _ => ?_)
    suited
  refine Constant.suits_int .size rfl ?_
  exact Target.inRange_of_canExpress (query.direct_lt suited.preset (suited.answer ended)) expressed

end CompilationUnit

/-! ## Tokens -/

theorem Token.integerKind_isInteger (wanted? : Option Ty) :
    (integerKind wanted?).isInteger = true := by
  unfold integerKind
  cases found : (wanted?.bind Ty.primitive?).filter Primitive.isInteger with
  | none => rfl
  | some kind => exact (Option.filter_eq_some_iff.mp found).2

theorem Token.suits_integer {types : Registry} {target : Target} {wanted? : Option Ty}
    {text : String} {value : Int}
    (h : integerValue? target (integerKind wanted?) text = some value) :
    Constant.Suits (.int (target.integerBits (integerKind wanted?)) value) types target
      (.primitive (integerKind wanted?)) := by
  obtain ⟨parsed, checked⟩ := Option.filter_eq_some_iff.mp h
  refine Constant.suits_int _ ?_ (inRange_of_fits (isWord_of_readInteger? parsed) checked)
  simp [Ty.integerKind?, integerKind_isInteger]

/-- A character is of seven bits, or the end of input, which is minus one. -/
theorem inRange_charByte {body : List Char} {value : Int} (h : charByte? body = some value) :
    InRange value 8 true := by
  have named : ∀ entry ∈ namedChars, InRange entry.2 8 true := by decide
  unfold charByte? at h
  split at h
  · rename_i found
    cases h
    obtain ⟨before, after, split, -⟩ := List.lookup_eq_some_iff.mp found
    rw [split] at named
    exact named (_, value) (List.mem_append_right before List.mem_cons_self)
  · split at h
    · rename_i ascii
      cases h
      constructor <;> omega
    · cases h
  · cases h

theorem inRange_character {text : String} {value : Int}
    (h : CharLiteral.read text = .byte value) : InRange value 8 true := by
  unfold CharLiteral.read at h
  split at h
  · rename_i c rest _
    cases spelled : charByte? (c :: rest) with
    | none =>
      rw [spelled] at h
      cases h
    | some byte =>
      rw [spelled] at h
      cases h
      exact inRange_charByte spelled
  · cases h

/-- The constants that identifiers name are in range for `bool` and for `char`. -/
theorem Token.suits_namedConstant {token : Token} {types : Registry} {target : Target} {ty : Ty}
    {constant : Constant} (h : token.namedConstant? = .ok (some (ty, constant))) :
    constant.Suits types target ty := by
  unfold namedConstant? at h
  split at h
  · cases h
    exact Constant.suits_int .bool rfl (show InRange 1 1 false by decide)
  · split at h
    · cases h
      exact Constant.suits_int .bool rfl (show InRange 0 1 false by decide)
    · split at h
      · rename_i value read
        cases h
        refine Constant.suits_int .char rfl ?_
        exact inRange_character read
      · cases h
      · cases h

open CompilationUnit (Fits fits_frame leads_measured)

/-- Whatever a token adds fits. -/
theorem Token.leads_resolve (token : Token) (request : Request) (unit : CompilationUnit) :
    FormM.Leads Fits unit (token.resolve request) := by
  refine fits_frame.leads_token token request ?_ ?_ ?_ ?_ ?_
  · exact fun _ => fits_frame.leads_integer token request fun _ known _ =>
      Token.suits_integer known
  · exact fun _ => fits_frame.leads_floating token request fun _ _ _ _ =>
      Constant.suits_float _ _ _
  · exact fun _ => fits_frame.leads_speculate token request fun _ _ registered member _ =>
      Constant.suits_member registered member
  · exact fun _ => fits_frame.leads_identifier token request fun _ _ named _ =>
      Token.suits_namedConstant named
  · exact fun _ unit => fits_frame.leads_string token request fun _ =>
      unit.fitting_storeString token.text token.span

/-! ## Integers that evaluations emit -/

/-- Every integer constant that an evaluation adds is as wide as the kind of its type and in the
range of that kind, be it a literal, a character, a measurement or the member of an enum. Only
a member that its enum was defined with out of range is emitted as it is. Globals hold no
integers. -/
theorem CompilationUnit.integers_fit {unit : CompilationUnit} (reachable : Reachable unit)
    (preset : unit.target ∈ Target.presets) (evaluation : Evaluation) (request : Request) :
    let later := ((evaluation.action .core request).outcome unit).2
    (∀ id v constant, unit.module.value? id = none → later.module.value? id = some v →
      v.kind = .constant constant → constant.Suits unit.types unit.target v.ty) ∧
    ∀ id g init bits value, unit.module.global? id = none → later.module.global? id = some g →
      g.init? = some init → ¬init.Holds bits value := by
  have fitting := fits_frame.leads_action Token.leads_resolve leads_measured trivial evaluation
    request unit ⟨reachable.settled, preset⟩
  exact ⟨fun _ _ _ => fitting.values, fun _ _ _ _ _ => fitting.globals⟩

namespace CompilationUnit

/-- A unit with an enum of bytes, one member of which is no byte. -/
def withBytes : CompilationUnit :=
  ((new "m" .x86_64 0).perform (.defineEnum "e" .uint8 [("small", 7), ("large", 300)])).perform
    (.enterFunction "f")

theorem reachable_withBytes : Reachable withBytes :=
  .perform (.enterFunction "f") (.perform (.defineEnum "e" .uint8 [("small", 7), ("large", 300)])
    (.new "m" .x86_64 0) trivial) trivial

/-- The unit after the evaluation of a name where the enum is wanted. -/
def withMember (name : String) : CompilationUnit :=
  (((Evaluation.any (.atom ⟨.identifier, name, .dummy⟩)).action .core
    { block := ⟨0⟩, wanted? := some (.enum "e") }).outcome withBytes).2

/-- A member that is a byte is emitted as one. -/
theorem small_member_fits :
    (withMember "small").module.value? ⟨0⟩ =
        some ⟨.constant (.struct [.int 8 7]), .enum "e", none⟩ ∧
      Constant.Suits (.struct [.int 8 7]) withBytes.types withBytes.target (.enum "e") := by
  have emitted : (withMember "small").module.value? ⟨0⟩ =
      some ⟨.constant (.struct [.int 8 7]), .enum "e", none⟩ := by rfl
  exact ⟨emitted, (integers_fit reachable_withBytes (by decide)
    (.any (.atom ⟨.identifier, "small", .dummy⟩))
    { block := ⟨0⟩, wanted? := some (.enum "e") }).1 _ _ _ rfl emitted rfl⟩

/-- A member is emitted in the width of its enum even if it has no place there. -/
theorem large_member_emitted : ¬∀ (unit : CompilationUnit) (evaluation : Evaluation)
    (request : Request), Reachable unit → unit.target ∈ Target.presets →
    ∀ id v constant bits value kind, unit.module.value? id = none →
      ((evaluation.action .core request).outcome unit).2.module.value? id = some v →
      v.kind = .constant constant → constant.Holds bits value →
      v.ty.integerKind? unit.types = some kind → InRange value bits kind.isSigned := by
  intro claim
  have emitted : (withMember "large").module.value? ⟨0⟩ =
      some ⟨.constant (.struct [.int 8 300]), .enum "e", none⟩ := by rfl
  have range := claim withBytes (.any (.atom ⟨.identifier, "large", .dummy⟩))
    { block := ⟨0⟩, wanted? := some (.enum "e") } reachable_withBytes (by decide) _ _ _ 8 300
    .uint8 rfl emitted rfl (.field (List.mem_singleton.mpr rfl) .int) (by rfl)
  exact absurd range (by decide)

end CompilationUnit
end FormLowering
