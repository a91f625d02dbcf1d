import FormLowering.Proofs.Execution.Constness
import FormLowering.Proofs.Execution.Routines
import FormLowering.Proofs.Form.Guarding
import FormLowering.Proofs.Unit.Emission

/-!
Const-correct units. If no evaluation goes around the const flag, then a stored string reads as its
text whatever was compiled, in whatever order the functions run, and wherever one of them stands.
-/

namespace FormLowering

/-- The operation is no evaluation that goes around the const flag. -/
def Operation.Careful (unit : CompilationUnit) : Operation → Prop
  | .evaluate evaluation request => evaluation.Careful request (unit.positioned request.block)
  | _ => True

/-- The units that operations with the built-in forms lead to, none of them around the const
flag. -/
inductive Careful : CompilationUnit → Prop
  | new (name : String) (target : Target) (limit : Nat) : Careful (.new name target limit)
  | perform {unit : CompilationUnit} (operation : Operation) : Careful unit →
      operation.Admissible unit → operation.Careful unit → Careful (unit.perform operation)

namespace CompilationUnit

variable {unit later : CompilationUnit}

theorem constCorrect_new (name : String) (target : Target) (limit : Nat) :
    (CompilationUnit.new name target limit).module.ConstCorrect where
  instruction {id instruction ty block?} hv := by
    change (#[] : Array Value)[id.index]? = _ at hv
    simp at hv
  literal {id found} hfound := by
    change (#[] : Array Global)[id.index]? = _ at hfound
    simp at hfound

theorem constCorrect_same (correct : unit.module.ConstCorrect)
    (builder : later.builder = unit.builder) : later.module.ConstCorrect := by
  have same : later.module = unit.module := congrArg Builder.module builder
  exact same ▸ correct

theorem constCorrect_enterFunction (correct : unit.module.ConstCorrect) (typed : unit.Typed)
    (name : String) : (unit.enterFunction name).2.module.ConstCorrect := by
  refine correct.grow typed.module (unit.builder.extends_createFunction name) ?_ ?_
  · intro id instruction ty block? hv hold
    exact absurd (hold.symm.trans ((unit.value?_enterFunction name id).symm.trans hv)) nofun
  · intro id found hfound hold
    have same :
        (unit.builder.createFunction name).2.2.module.global? id = unit.module.global? id := by
      rw [Builder.createFunction_eq]
      rfl
    exact absurd (hold.symm.trans (same.symm.trans hfound)) nofun

theorem constCorrect_declareLocal (correct : unit.module.ConstCorrect) (typed : unit.Typed)
    (name : String) (ty : Ty) :
    ((FormM.declareLocal name ty).outcome unit).2.module.ConstCorrect := by
  rw [FormM.outcome_declareLocal]
  split
  · exact Builder.constCorrect_pushInstruction correct typed.module (.alloca ty name _)
  · exact correct

/-- A declared global is not constant. -/
theorem constCorrect_declareGlobal (correct : unit.module.ConstCorrect) (typed : unit.Typed)
    (name : String) (ty : Ty) (linkage : Linkage) (init? : Option Constant) :
    ((FormM.declareGlobal name ty linkage init?).outcome unit).2.module.ConstCorrect := by
  simp only [FormM.declareGlobal]
  rw [FormM.outcome_registerGlobal]
  split
  · exact correct
  · split
    · exact correct
    · rename_i hadded
      refine Builder.constCorrect_addGlobal? correct typed.module hadded ?_
      rintro ⟨⟩

theorem constCorrect_evaluate (correct : unit.module.ConstCorrect) (typed : unit.Typed)
    {evaluation : Evaluation} {request : Request} (hasBlock : unit.HasBlock request.block)
    (careful : evaluation.Careful request (unit.positioned request.block)) :
    ((evaluation.action .core request).outcome unit).2.module.ConstCorrect := by
  rcases evaluation.outcome_action .core request unit with same | ⟨error, failed⟩
  · rw [same]
    exact (careful.guards ⟨typed.ready hasBlock, correct⟩).correct
  · rw [failed]
    exact correct

/-- Every operation keeps a unit const-correct, whether it succeeds or fails. -/
theorem constCorrect_perform (correct : unit.module.ConstCorrect) (typed : unit.Typed)
    {operation : Operation} (admissible : operation.Admissible unit)
    (careful : operation.Careful unit) : (unit.perform operation).module.ConstCorrect := by
  cases operation with
  | declareStruct | pushScope | popScope | alignment | size | fieldOffset | fail | rollback =>
    exact constCorrect_same correct rfl
  | defineStruct name params fields => exact constCorrect_same correct (builder_define unit _)
  | defineEnum name underlying members => exact constCorrect_same correct (builder_define unit _)
  | parseType node => exact constCorrect_same correct (builder_parseType unit node)
  | enterFunction name => exact constCorrect_enterFunction correct typed name
  | declareLocal name ty => exact constCorrect_declareLocal correct typed name ty
  | declareGlobal name ty linkage init? =>
    exact constCorrect_declareGlobal correct typed name ty linkage init?
  | evaluate evaluation request => exact constCorrect_evaluate correct typed admissible careful

end CompilationUnit

theorem Careful.constCorrect {unit : CompilationUnit} (careful : Careful unit) :
    unit.Typed ∧ unit.module.ConstCorrect := by
  induction careful with
  | new name target limit =>
    exact ⟨CompilationUnit.typed_new name target limit,
      CompilationUnit.constCorrect_new name target limit⟩
  | perform operation _ admissible careful ih =>
    exact ⟨ih.1.perform admissible,
      CompilationUnit.constCorrect_perform ih.2 ih.1 admissible careful⟩

/-- After any functions, and at any point of one more, every constant global of a careful unit is a
stored string and reads as it. -/
theorem Careful.reads_literals {unit : CompilationUnit} (careful : Careful unit)
    (earlier : List FunctionId) (function : FunctionId) (count : Nat) :
    let code := (unit.program.code function).take count
    let machine := ((unit.program.execution code).outcome (unit.program.machineAfter earlier)).2
    ∀ id found, unit.module.global? id = some found → found.isConstant →
      ∃ text, found.init? = some (.bytes (stringBytes text)) ∧ ∀ path,
        unit.program.read machine ⟨.global id, path⟩ =
          (Datum.ofConstant (.bytes (stringBytes text))).get path := by
  intro code machine id found hfound isConstant
  obtain ⟨typed, correct⟩ := careful.constCorrect
  have before : unit.program.Respected (unit.program.machineAfter earlier) :=
    Program.respected_machineAfter typed.module correct earlier
  have known : ∀ entry ∈ code, unit.program.module.instruction? entry.1 = some entry.2 :=
    fun _ mem => Program.instruction?_of_mem_code (List.mem_of_mem_take mem)
  have respected : unit.program.Respected machine :=
    Program.respected_execution before typed.module correct known
  obtain ⟨text, hinit⟩ := correct.literal hfound isConstant
  exact ⟨text, hinit, respected.read_constant hfound isConstant hinit⟩

/-! ## A string that a pointer leads to -/

/-- A routine with a pointer to constant characters and a character. -/
def CompilationUnit.readerAndCell : CompilationUnit :=
  (((new "m" .x86_64 0).perform (.enterFunction "f")).perform
    (.declareLocal "reader" (.constPointerTo .char))).perform (.declareLocal "cell" .char)

theorem Datum.eq_int_of_toOption {answer : Except Trap Datum} {n : Int}
    (h : answer.toOption.bind int? = some n) : answer = .ok (.int n) := by
  cases answer with
  | error trap => cases h
  | ok datum =>
    cases datum with
    | int value =>
      cases h
      rfl
    | float | address | aggregate | undefined => cases h

/-- The address of what the pointer leads to is a pointer that writes. So without care the stored
string changes: its first byte is 97, and after a run it reads as 120. -/
theorem literal_overwritten :
    let name (text : String) : Node := .atom ⟨.identifier, text, .dummy⟩
    let call (head : String) (operand : Node) : Node := .list [name head, operand] .dummy
    let set : Operation := .evaluate
      (.assign (name "reader") (.atom ⟨.string, "abc", .dummy⟩)) { block := ⟨0⟩ }
    let overwrite : Operation := .evaluate
      (.assign (call "@" (call "#" (call "@" (name "reader")))) (name "#\\x")) { block := ⟨0⟩ }
    let unit := (CompilationUnit.readerAndCell.perform set).perform overwrite
    Reachable unit ∧ ∃ found init, unit.module.global? ⟨0⟩ = some found ∧ found.isConstant ∧
      found.init? = some init ∧ (Datum.ofConstant init).get [0] = .ok (.int 97) ∧
      unit.program.read (unit.program.machineAfter [⟨0⟩]) ⟨.global ⟨0⟩, [0]⟩ = .ok (.int 120) := by
  intro name call set overwrite unit
  have entered : Reachable .readerAndCell :=
    .perform (.declareLocal "cell" _) (.perform (.declareLocal "reader" _)
      (.perform (.enterFunction "f") (.new "m" .x86_64 0) trivial) trivial) trivial
  have hasBlock : set.Admissible .readerAndCell := by
    change (CompilationUnit.readerAndCell.module.block? ⟨0⟩).isSome
    decide +kernel
  have hasBlock' : overwrite.Admissible (CompilationUnit.readerAndCell.perform set) := by
    change ((CompilationUnit.readerAndCell.perform set).module.block? ⟨0⟩).isSome
    decide +kernel
  have literal : (unit.module.global? ⟨0⟩).any fun found => found.isConstant &&
      found.init?.any fun init =>
        ((Datum.ofConstant init).get [0]).toOption.bind Datum.int? == some 97 := by decide +kernel
  have overwritten : (unit.program.read (unit.program.machineAfter [⟨0⟩])
      ⟨.global ⟨0⟩, [0]⟩).toOption.bind Datum.int? = some 120 := by decide +kernel
  obtain ⟨found, hfound, literal⟩ := (Option.any_eq_true _ _).mp literal
  obtain ⟨isConstant, literal⟩ := Bool.and_eq_true_iff.mp literal
  obtain ⟨init, hinit, first⟩ := (Option.any_eq_true _ _).mp literal
  have reachable := (entered.perform set hasBlock).perform overwrite hasBlock'
  exact ⟨reachable, found, init, hfound, isConstant, hinit,
    Datum.eq_int_of_toOption (eq_of_beq first), Datum.eq_int_of_toOption overwritten⟩

/-- The other way is to name the string, which leads to its first byte as any name of an array. -/
example :
    let name (text : String) : Node := .atom ⟨.identifier, text, .dummy⟩
    let set : Operation := .evaluate
      (.assign (name "reader") (.atom ⟨.string, "abc", .dummy⟩)) { block := ⟨0⟩ }
    let overwrite : Operation := .evaluate
      (.assign (.list [name "@", name "_kv0"] .dummy) (name "#\\x")) { block := ⟨0⟩ }
    let unit := (CompilationUnit.readerAndCell.perform set).perform overwrite
    let answer := unit.program.read (unit.program.machineAfter [⟨0⟩]) ⟨.global ⟨0⟩, [0]⟩
    answer.toOption.bind Datum.int? = some 120 := by
  decide +kernel

/-- To read a character through the pointer is careful, and the string still reads as its text. -/
theorem copied_literal_reads :
    let name (text : String) : Node := .atom ⟨.identifier, text, .dummy⟩
    let set : Operation := .evaluate
      (.assign (name "reader") (.atom ⟨.string, "abc", .dummy⟩)) { block := ⟨0⟩ }
    let copy : Operation := .evaluate
      (.assign (name "cell") (.list [name "@", name "reader"] .dummy)) { block := ⟨0⟩ }
    let unit := (CompilationUnit.readerAndCell.perform set).perform copy
    let code := (unit.program.code ⟨0⟩).take 5
    let machine := ((unit.program.execution code).outcome (unit.program.machineAfter [⟨0⟩])).2
    Careful unit ∧ ∃ found text, unit.module.global? ⟨0⟩ = some found ∧
      found.init? = some (.bytes (stringBytes text)) ∧ ∀ path,
        unit.program.read machine ⟨.global ⟨0⟩, path⟩ =
          (Datum.ofConstant (.bytes (stringBytes text))).get path := by
  intro name set copy unit code machine
  have entered : Careful .readerAndCell :=
    .perform (.declareLocal "cell" _) (.perform (.declareLocal "reader" _)
      (.perform (.enterFunction "f") (.new "m" .x86_64 0) trivial trivial) trivial trivial)
      trivial trivial
  have hasBlock : set.Admissible .readerAndCell := by
    change (CompilationUnit.readerAndCell.module.block? ⟨0⟩).isSome
    decide +kernel
  have setCareful : set.Careful .readerAndCell := by
    intro task starts
    cases starts with
    | assign asked =>
      obtain ⟨ready, scopes⟩ := asked.ready (entered.constCorrect.1.ready hasBlock)
      cases asked with
      | target =>
        refine Task.careful_atom ready.typed fun _ => ?_
        decide +kernel
      | value => exact Task.careful_atom ready.typed nofun
  have assigned := entered.perform set hasBlock setCareful
  have hasBlock : copy.Admissible (CompilationUnit.readerAndCell.perform set) := by
    change ((CompilationUnit.readerAndCell.perform set).module.block? ⟨0⟩).isSome
    decide +kernel
  have copyCareful : copy.Careful (CompilationUnit.readerAndCell.perform set) := by
    intro task starts
    cases starts with
    | assign asked =>
      obtain ⟨ready, scopes⟩ := asked.ready (assigned.constCorrect.1.ready hasBlock)
      cases asked with
      | target =>
        refine Task.careful_atom ready.typed fun _ => ?_
        decide +kernel
      | value =>
        refine Task.careful_dereference (.plain rfl (by decide)) ?_
        refine Task.careful_atom ready.typed fun _ => ?_
        rw [scopes]
        decide +kernel
  have careful := assigned.perform copy hasBlock copyCareful
  have literal : (unit.module.global? ⟨0⟩).any (·.isConstant) := by decide +kernel
  obtain ⟨found, hfound, isConstant⟩ := (Option.any_eq_true _ _).mp literal
  obtain ⟨text, hinit, reads⟩ := careful.reads_literals [⟨0⟩] ⟨0⟩ 5 ⟨0⟩ found hfound isConstant
  exact ⟨careful, found, text, hfound, hinit, reads⟩

end FormLowering
