import FormLowering.Proofs.Execution.Integers
import FormLowering.Proofs.Form.Integers
import FormLowering.Proofs.Unit.Constness

/-!
The integers that the functions of a unit compute. All that forms emit are in the range of their
kinds, so if globals start in range, then every integer of a run is in the range of its type. The
exception are runs of bytes, such as strings: they are read as naturals, though characters have a
sign.
-/

namespace FormLowering

theorem Constant.Suits.inRange {bits : Nat} {value : Int} {types : Registry} {target : Target}
    {kind : Primitive} (h : Constant.Suits (.int bits value) types target (.primitive kind)) :
    InRange value (target.integerBits kind) kind.isSigned := by
  obtain ⟨found, integer, rfl, range⟩ := h bits value .int
  obtain ⟨-, same⟩ := Option.ite_none_right_eq_some.mp integer
  cases same
  rcases range with range | ⟨enum, isEnum, -⟩
  · exact range
  · cases isEnum

/-! ## Integer constants -/

namespace CompilationUnit

/-- Integer constants are in the range of their kinds. -/
def ConstantsInRange (unit : CompilationUnit) : Prop :=
  ∀ id bits value kind block?, unit.module.value? id =
    some ⟨.constant (.int bits value), .primitive kind, block?⟩ →
    InRange value (unit.target.integerBits kind) kind.isSigned

variable {unit later : CompilationUnit}

theorem constantsInRange_new (name : String) (target : Target) (limit : Nat) :
    (CompilationUnit.new name target limit).ConstantsInRange := by
  intro id bits value kind block? hv
  change (#[] : Array Value)[id.index]? = _ at hv
  simp at hv

theorem ConstantsInRange.grow (h : unit.ConstantsInRange) (target : later.target = unit.target)
    (grows : unit.module.Extends later.module)
    (new : ∀ id bits value kind block?, unit.module.value? id = none → later.module.value? id =
      some ⟨.constant (.int bits value), .primitive kind, block?⟩ →
      InRange value (unit.target.integerBits kind) kind.isSigned) : later.ConstantsInRange := by
  intro id bits value kind block? hv
  rw [target]
  cases old : unit.module.value? id with
  | none => exact new id bits value kind block? old hv
  | some v =>
    cases hv.symm.trans (grows.value old)
    exact h id bits value kind block? old

theorem ConstantsInRange.same (h : unit.ConstantsInRange) (target : later.target = unit.target)
    (builder : later.builder = unit.builder) : later.ConstantsInRange := by
  have same : later.module = unit.module := congrArg Builder.module builder
  refine h.grow target (same ▸ .refl _) fun id bits value kind block? new hv => ?_
  rw [same, new] at hv
  cases hv

theorem ConstantsInRange.enterFunction (h : unit.ConstantsInRange) (name : String) :
    (unit.enterFunction name).2.ConstantsInRange := by
  refine h.grow rfl (unit.builder.extends_createFunction name) fun id _ _ _ _ new hv => ?_
  rw [unit.value?_enterFunction, new] at hv
  cases hv

theorem ConstantsInRange.declareLocal (h : unit.ConstantsInRange) (name : String) (ty : Ty) :
    ((FormM.declareLocal name ty).outcome unit).2.ConstantsInRange := by
  rw [FormM.outcome_declareLocal]
  split
  · refine h.grow rfl (unit.builder.extends_pushInstruction _ _) fun id _ _ _ _ new hv => ?_
    cases eq_of_added (unit.builder.value?_pushInstruction _ _ id) new hv
  · exact h.same rfl rfl

theorem ConstantsInRange.declareGlobal (h : unit.ConstantsInRange) (name : String) (ty : Ty)
    (linkage : Linkage) (init? : Option Constant) :
    ((FormM.declareGlobal name ty linkage init?).outcome unit).2.ConstantsInRange := by
  simp only [FormM.declareGlobal]
  rw [FormM.outcome_registerGlobal]
  split
  · exact h.same rfl rfl
  · split
    · exact h.same rfl rfl
    · rename_i hadded
      refine h.grow rfl (unit.builder.extends_addGlobal? hadded) fun id _ _ _ _ new hv => ?_
      cases eq_of_added (unit.builder.value?_addGlobal? hadded id) new hv

theorem ConstantsInRange.evaluate (h : unit.ConstantsInRange) (suited : unit.Suited)
    (evaluation : Evaluation) (request : Request) :
    ((evaluation.action .core request).outcome unit).2.ConstantsInRange := by
  have fitting : unit.Fitting ((evaluation.action .core request).outcome unit).2 :=
    fits_frame.leads_action Token.leads_resolve leads_measured trivial evaluation request unit
      suited
  refine h.grow fitting.changes.target fitting.changes.grows fun id _ _ _ _ new hv => ?_
  exact Constant.Suits.inRange (fitting.values new hv rfl)

theorem target_define (unit : CompilationUnit) (defined : Except RegistryError Registry) :
    (unit.define defined).target = unit.target := by
  cases defined <;> rfl

theorem target_perform (unit : CompilationUnit) (operation : Operation) :
    (unit.perform operation).target = unit.target := by
  cases operation with
  | declareStruct | enterFunction | pushScope | popScope | alignment | size | fieldOffset | fail
  | rollback => rfl
  | defineStruct name params fields => exact unit.target_define _
  | defineEnum name underlying members => exact unit.target_define _
  | declareLocal name ty =>
    simp only [CompilationUnit.perform]
    rw [FormM.outcome_declareLocal]
    split <;> rfl
  | declareGlobal name ty linkage init? =>
    simp only [CompilationUnit.perform, FormM.declareGlobal]
    rw [FormM.outcome_registerGlobal]
    split
    · rfl
    · split <;> rfl
  | evaluate evaluation request => exact (evaluation.makes_action request unit).target
  | parseType node =>
    have changes : Changes True unit (unit.perform (.parseType node)) :=
      FormM.Makes.parseType node unit
    exact changes.target

theorem ConstantsInRange.perform (h : unit.ConstantsInRange) (suited : unit.Suited)
    (operation : Operation) : (unit.perform operation).ConstantsInRange := by
  cases operation with
  | declareStruct | pushScope | popScope | alignment | size | fieldOffset | fail | rollback =>
    exact h.same rfl rfl
  | defineStruct name params fields => exact h.same (unit.target_define _) (builder_define unit _)
  | defineEnum name underlying members =>
    exact h.same (unit.target_define _) (builder_define unit _)
  | parseType node => exact h.same (unit.target_perform _) (builder_parseType unit node)
  | enterFunction name => exact h.enterFunction name
  | declareLocal name ty => exact h.declareLocal name ty
  | declareGlobal name ty linkage init? => exact h.declareGlobal name ty linkage init?
  | evaluate evaluation request => exact h.evaluate suited evaluation request

end CompilationUnit

theorem Reachable.constantsInRange {unit : CompilationUnit} (h : Reachable unit)
    (preset : unit.target ∈ Target.presets) : unit.ConstantsInRange := by
  induction h with
  | new name target limit => exact CompilationUnit.constantsInRange_new name target limit
  | @perform unit operation reachable _ ih =>
    rw [unit.target_perform] at preset
    exact (ih preset).perform ⟨reachable.settled, preset⟩ operation

/-! ## Initializers -/

/-- The part of a constant at a path; a byte is no constant of its own. -/
def Constant.part? : Constant → List Nat → Option Constant
  | constant, [] => some constant
  | .struct fields, index :: path => fields[index]?.bind (·.part? path)
  | _, _ :: _ => none

theorem Datum.ofConstants_eq_map (fields : List Constant) :
    ofConstants fields = fields.map ofConstant := by
  induction fields with
  | nil => rfl
  | cons field rest ih => exact congrArg (ofConstant field :: ·) ih

/-- An integer of a constant is one of its parts, or a byte of one. -/
theorem Constant.part_of_get {constant : Constant} {path : List Nat} {value : Int}
    (h : (Datum.ofConstant constant).get path = .ok (.int value)) :
    (∃ bits, constant.part? path = some (.int bits value)) ∨
      ∃ outer content byte, constant.part? outer = some (.bytes content) ∧ byte ∈ content ∧
        value = (byte : UInt8).toNat := by
  induction path generalizing constant with
  | nil =>
    unfold Datum.get at h
    cases constant with
    | int bits found =>
      cases h
      exact .inl ⟨bits, rfl⟩
    | float | bytes | struct => cases h
  | cons index path ih =>
    cases constant with
    | int | float => cases h
    | bytes content =>
      unfold Datum.ofConstant at h
      cases hitem : (content.map fun byte => Datum.int byte.toNat)[index]? with
      | none =>
        simp only [Datum.get, hitem] at h
        cases h
      | some item =>
        rw [Datum.get_aggregate hitem] at h
        obtain ⟨byte, mem, rfl⟩ := List.mem_map.mp (List.mem_of_getElem? hitem)
        cases path with
        | nil =>
          cases h
          exact .inr ⟨[], content, byte, rfl, mem, rfl⟩
        | cons => cases h
    | struct fields =>
      unfold Datum.ofConstant at h
      rw [Datum.ofConstants_eq_map] at h
      cases hfield : fields[index]? with
      | none =>
        simp only [Datum.get, List.getElem?_map, hfield, Option.map_none] at h
        cases h
      | some field =>
        have hitem : (fields.map Datum.ofConstant)[index]? = some (.ofConstant field) := by
          rw [List.getElem?_map, hfield]
          rfl
        rw [Datum.get_aggregate hitem] at h
        rcases ih h with ⟨bits, found⟩ | ⟨outer, content, byte, found, mem⟩
        · exact .inl ⟨bits, (congrArg (Option.bind · _) hfield).trans found⟩
        · exact .inr ⟨index :: outer, content, byte,
            (congrArg (Option.bind · _) hfield).trans found, mem⟩

/-- A byte is in the range of every integer kind, but that the kinds of one byte with a sign end at
127. -/
theorem Target.inRange_byte {target : Target} (preset : target ∈ Target.presets) {kind : Primitive}
    (integer : kind.isInteger) (byte : UInt8) :
    InRange byte.toNat (target.integerBits kind) kind.isSigned ∨
      (kind = .char ∨ kind = .int8) ∧ 128 ≤ byte.toNat := by
  have widths : ∀ target ∈ Target.presets, ∀ kind ∈ Primitive.all, kind.isInteger →
      if kind.isSigned then 9 ≤ target.integerBits kind ∨
        target.integerBits kind = 8 ∧ (kind = .char ∨ kind = .int8)
      else 8 ≤ target.integerBits kind := by decide
  have width := widths target preset kind kind.mem_all integer
  have word : byte.toNat < 256 := byte.toNat_lt
  cases signed : kind.isSigned with
  | false =>
    rw [signed] at width
    refine .inl (InRange.mono (inRange_unsigned.mpr ?_) width)
    omega
  | true =>
    rw [signed] at width
    rcases width with wide | ⟨narrow, signedByte⟩
    · refine .inl (InRange.mono (inRange_signed.mpr ?_) wide)
      omega
    · by_cases small : byte.toNat < 128
      · refine .inl ?_
        rw [narrow]
        refine inRange_signed.mpr ?_
        omega
      · exact .inr ⟨signedByte, Nat.not_lt.mp small⟩

/-! ## Integers in range -/

namespace CompilationUnit

/-- Wherever a global starts with an integer at a place of an integer kind, it is in the range of
the kind. -/
def InitializersInRange (unit : CompilationUnit) : Prop :=
  ∀ id found init path bits kind value, unit.module.global? id = some found →
    found.init? = some init → init.part? path = some (.int bits value) →
    found.ty.Descends unit.types path (.primitive kind) → kind.isInteger →
    InRange value (unit.target.integerBits kind) kind.isSigned

/-- The integer is a byte that a global starts with, and no ASCII character. -/
def IsWideByte (unit : CompilationUnit) (value : Int) : Prop :=
  ∃ id found init path content byte, unit.module.global? id = some found ∧
    found.init? = some init ∧ init.part? path = some (.bytes content) ∧ byte ∈ content ∧
    128 ≤ byte.toNat ∧ value = byte.toNat

theorem supplies_of_inRange {unit : CompilationUnit} (typed : unit.Typed)
    (preset : unit.target ∈ Target.presets) (constants : unit.ConstantsInRange)
    (initializers : unit.InitializersInRange) :
    unit.program.Supplies fun kind value => kind.isInteger →
      InRange value (unit.target.integerBits kind) kind.isSigned ∨
        (kind = .char ∨ kind = .int8) ∧ unit.IsWideByte value where
  typed := typed.module
  constants hv _ := .inl (constants _ _ _ _ _ hv)
  globals {id found init path kind value} hfound hinit descends hget integer := by
    rcases Constant.part_of_get hget with ⟨bits, part⟩ | ⟨outer, content, byte, part, mem, rfl⟩
    · exact .inl
        (initializers id found init path bits kind value hfound hinit part descends integer)
    · rcases Target.inRange_byte preset integer byte with range | ⟨signedByte, wide⟩
      · exact .inl range
      · exact .inr ⟨signedByte, id, found, init, outer, content, byte, hfound, hinit, part, mem,
          wide, rfl⟩

end CompilationUnit

/-- After any functions, and at any point of one more, every integer of an integer type is in the
range of that type if globals start in range; only a byte that a global starts with, and that is no
ASCII character, is out of range where it is read as a byte with a sign. -/
theorem Reachable.integers_represented {unit : CompilationUnit} (reachable : Reachable unit)
    (preset : unit.target ∈ Target.presets) (initializers : unit.InitializersInRange)
    (earlier : List FunctionId) (function : FunctionId) (count : Nat) :
    let code := (unit.program.code function).take count
    let machine := ((unit.program.execution code).outcome (unit.program.machineAfter earlier)).2
    ∀ id kind value, unit.module.typeOf? id = some (.primitive kind) → kind.isInteger →
      unit.program.value machine id = .ok (.int value) →
      InRange value (unit.target.integerBits kind) kind.isSigned ∨
        (kind = .char ∨ kind = .int8) ∧ unit.IsWideByte value := by
  intro code machine id kind value hty integer hvalue
  have constants := reachable.constantsInRange preset
  have supplies := CompilationUnit.supplies_of_inRange reachable.typed preset constants initializers
  have filled := supplies.filled earlier function count
  exact (filled.value supplies hty hvalue).allows.int rfl rfl integer

namespace CompilationUnit

/-- A global that starts with the least of its integers, and a routine that copies it. -/
def copiedGlobal : CompilationUnit :=
  let name (text : String) : Node := .atom ⟨.identifier, text, .dummy⟩
  (((new "m" .x86_64 0).perform (.declareGlobal "least" (.primitive .int16) .internal
    (some (.int 16 (-32768))))).perform (.enterFunction "f")).perform
    (.declareLocal "cell" (.primitive .int16)) |>.perform
    (.evaluate (.assign (name "cell") (name "least")) { block := ⟨0⟩ })

/-- What the global starts with is what the load of it yields. -/
theorem copied_global_represented :
    let code := (copiedGlobal.program.code ⟨0⟩).take 3
    let machine := ((copiedGlobal.program.execution code).outcome
      (copiedGlobal.program.machineAfter [⟨0⟩])).2
    Reachable copiedGlobal ∧ copiedGlobal.InitializersInRange ∧
      copiedGlobal.program.value machine ⟨2⟩ = .ok (.int (-32768)) ∧
      InRange (-32768) 16 true := by
  intro code machine
  have declared := Reachable.perform
    (.declareGlobal "least" (.primitive .int16) .internal (some (.int 16 (-32768))))
    (.new "m" .x86_64 0) trivial
  have entered := Reachable.perform (.enterFunction "f") declared trivial
  have placed := Reachable.perform (.declareLocal "cell" (.primitive .int16)) entered trivial
  have reachable : Reachable copiedGlobal := by
    refine .perform (.evaluate _ { block := ⟨0⟩ }) placed ?_
    change (Module.block? _ ⟨0⟩).isSome
    decide +kernel
  have initializers : copiedGlobal.InitializersInRange := by
    intro id found init path bits kind value hfound hinit part descends _
    have least : copiedGlobal.module.globals.all fun g => g.ty == .primitive .int16 &&
        g.init?.all fun init => (Datum.ofConstant init).int? == some (-32768) := by decide +kernel
    have least := Array.all_eq_true'.mp least found (Array.mem_of_getElem? hfound)
    obtain ⟨hty, least⟩ := Bool.and_eq_true_iff.mp least
    rw [hinit] at least
    rw [eq_of_beq hty] at descends
    cases descends
    unfold Constant.part? at part
    cases part
    cases eq_of_beq least
    decide
  have loaded : copiedGlobal.program.value machine ⟨2⟩ = .ok (.int (-32768)) :=
    Datum.eq_int_of_toOption (by decide +kernel)
  have represented := reachable.integers_represented (by decide +kernel) initializers [⟨0⟩] ⟨0⟩ 3
    ⟨2⟩ .int16 (-32768) (by decide +kernel) rfl loaded
  exact ⟨reachable, initializers, loaded, represented.resolve_right fun byte => nomatch byte.1⟩

/-- A routine that reads the first byte of a string that is not ASCII. -/
def wideCharacter : CompilationUnit :=
  let first : Node :=
    .list [.atom ⟨.identifier, "@", .dummy⟩, .atom ⟨.string, "é", .dummy⟩] .dummy
  ((new "m" .x86_64 0).perform (.enterFunction "f")).perform
    (.evaluate (.any first) { block := ⟨0⟩ })

/-- The exception is needed: a character is loaded that is no byte with a sign, although nothing was
declared and no enum has a member out of range. -/
theorem string_byte_out_of_range : ¬∀ (unit : CompilationUnit) (functions : List FunctionId),
    Reachable unit → unit.target ∈ Target.presets → unit.InitializersInRange →
    (∀ enum value, unit.types.enum? enum.name = some enum → ¬enum.Overflows unit.target value) →
    ∀ id kind value, unit.module.typeOf? id = some (.primitive kind) → kind.isInteger →
      unit.program.value (unit.program.machineAfter functions) id = .ok (.int value) →
      InRange value (unit.target.integerBits kind) kind.isSigned := by
  intro claim
  have reachable : Reachable wideCharacter :=
    .perform (.evaluate _ { block := ⟨0⟩ }) (.perform (.enterFunction "f")
      (.new "m" .x86_64 0) trivial) rfl
  have initializers : wideCharacter.InitializersInRange := by
    intro id found init path bits kind value hfound hinit part
    have runs : wideCharacter.module.globals.all fun g =>
        g.init?.all fun init => init matches .bytes _ := by decide +kernel
    have runs := Array.all_eq_true'.mp runs found (Array.mem_of_getElem? hfound)
    rw [hinit] at runs
    cases init with
    | bytes content => cases path <;> cases part
    | int | float | struct => cases runs
  have noEnums : wideCharacter.types.enums.isEmpty := by decide +kernel
  have members : ∀ enum value, wideCharacter.types.enum? enum.name = some enum →
      ¬enum.Overflows wideCharacter.target value := by
    intro enum value registered
    unfold Registry.enum? at registered
    rw [List.isEmpty_iff.mp noEnums] at registered
    cases registered
  have loaded : wideCharacter.program.value (wideCharacter.program.machineAfter [⟨0⟩]) ⟨2⟩ =
      .ok (.int 195) := Datum.eq_int_of_toOption (by decide +kernel)
  have range := claim wideCharacter [⟨0⟩] reachable (by decide +kernel) initializers members ⟨2⟩
    .char 195 (by decide +kernel) rfl loaded
  rw [wideCharacter, target_perform, target_perform] at range
  exact absurd range (by decide)

end CompilationUnit
end FormLowering
