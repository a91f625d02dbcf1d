import FormLowering.Proofs.Form.Careful

/-!
Emission that keeps to the const flag. An operation guards a module if it leaves it const-correct,
whether it succeeds or fails; what may be emitted is checked here once for each kind of change.
-/

namespace FormLowering

/-- An answer keeps to the const flag: neither its value nor its place is the address of a literal,
and a pointer to constant characters is typed as one, except perhaps the place. -/
structure TypedValue.ConstCorrect (result : TypedValue) (module : Module) (excused : Prop) :
    Prop where
  value : ∃ found, module.Ordinary result.value found ∧
    (found = .constPointerTo .char → result.ty = found)
  place : ∀ {place}, result.place? = some place →
    ∃ found, module.Ordinary place.value found ∧ (found = .constPointerTo .char → excused)

theorem TypedValue.ConstCorrect.mono {result : TypedValue} {module : Module} {excused weaker : Prop}
    (h : result.ConstCorrect module excused) (imp : excused → weaker) :
    result.ConstCorrect module weaker where
  value := h.value
  place hplace := by
    obtain ⟨found, ordinary, const⟩ := h.place hplace
    exact ⟨found, ordinary, imp ∘ const⟩

/-- Evaluation can go on in the block, and what was emitted so far is const-correct. -/
structure CompilationUnit.Guarded (unit : CompilationUnit) (block : BlockId) : Prop where
  ready : unit.Ready block
  correct : unit.module.ConstCorrect

namespace FormM

variable {α β : Type}

/-- The operation lowers, and leaves a const-correct module whether it succeeds or fails. -/
structure Guards (block : BlockId) (unit : CompilationUnit) (action : FormM α)
    (post : α → CompilationUnit → Prop) : Prop where
  lowers : Lowers block unit action post
  correct : (action.outcome unit).2.module.ConstCorrect

namespace Guards

variable {block : BlockId} {unit : CompilationUnit} {post : α → CompilationUnit → Prop}

theorem and {action : FormM α} {also : α → CompilationUnit → Prop}
    (h : Guards block unit action post) (lowers : Lowers block unit action also) :
    Guards block unit action fun a later => also a later ∧ post a later :=
  ⟨⟨h.lowers.1, fun a ha => ⟨lowers.2 a ha, h.lowers.2 a ha⟩⟩, h.correct⟩

theorem mono {action : FormM α} {wider : α → CompilationUnit → Prop}
    (h : Guards block unit action post) (imp : ∀ a later, post a later → wider a later) :
    Guards block unit action wider :=
  ⟨h.lowers.mono imp, h.correct⟩

/-- What leaves the module as it is guards it. -/
theorem same {action : FormM α} (guarded : unit.Guarded block)
    (lowers : Lowers block unit action post)
    (same : (action.outcome unit).2.module = unit.module) : Guards block unit action post :=
  ⟨lowers, same ▸ guarded.correct⟩

variable (guarded : unit.Guarded block)

include guarded

theorem pure {a : α} (h : post a unit) : Guards block unit (pure a) post :=
  .same guarded (.pure h) rfl

theorem fail (fault : FormFault) (span : Span) : Guards block unit (fail fault span) post :=
  .same guarded (.fail fault span) rfl

theorem bind {action : FormM α} {next : α → FormM β} {Q : α → CompilationUnit → Prop}
    {post : β → CompilationUnit → Prop} (first : Guards block unit action Q)
    (rest : ∀ a later, action.outcome unit = (.ok a, later) → Effects block unit later →
      later.Guarded block → Q a later → Guards block later (next a) post) :
    Guards block unit (action >>= next) post := by
  obtain ⟨⟨effects, answer⟩, correct⟩ := first
  have ready := effects.ready guarded.ready
  rcases hended : action.outcome unit with ⟨e | a, later⟩
  · rw [hended] at effects answer correct
    refine ⟨⟨?_, ?_⟩, ?_⟩
    all_goals rw [outcome_bind, hended]
    · exact effects
    · exact nofun
    · exact correct
  · rw [hended] at effects answer correct ready
    have rested := rest a later hended effects ⟨ready, correct⟩ (answer a rfl)
    refine ⟨⟨?_, ?_⟩, ?_⟩
    all_goals rw [outcome_bind, hended]
    · exact effects.trans rested.lowers.1
    · exact rested.lowers.2
    · exact rested.correct

omit guarded in
theorem bind_get {next : CompilationUnit → FormM α} (rest : Guards block unit (next unit) post) :
    Guards block unit (get >>= next) post :=
  ⟨.bind_get rest.lowers, by rw [outcome_bind, outcome_get]; exact rest.correct⟩

theorem bind_check {answer : Except FormError β} {next : β → FormM α}
    (rest : ∀ b, answer = .ok b → Guards block unit (next b) post) :
    Guards block unit (FormM.check answer >>= next) post := by
  refine ⟨.bind_check fun b hb => (rest b hb).lowers, ?_⟩
  rw [outcome_bind]
  cases answer with
  | error error => exact guarded.correct
  | ok b => exact (rest b rfl).correct

theorem bind_parseType {node : Node} {next : Ty → FormM α}
    (rest : ∀ ty, Guards block unit (next ty) post) :
    Guards block unit (FormM.parseType node >>= next) post := by
  simp only [FormM.parseType]
  rw [bind_assoc]
  exact .bind_get (bind_check guarded fun ty _ => rest ty)

theorem bind_position {next : Unit → FormM α} (rest : Guards block unit (next ()) post) :
    Guards block unit (FormM.position block >>= next) post := by
  refine ⟨.bind_position guarded.ready rest.lowers, ?_⟩
  rw [outcome_bind, outcome_position, guarded.ready.here.positioned]
  exact rest.correct

omit guarded in
theorem attempt {action : FormM α} (h : Guards block unit action post) :
    Guards block unit (attempt action) fun answer later => ∀ a, answer = .ok a → post a later := by
  obtain ⟨lowers, correct⟩ := h
  refine ⟨lowers.attempt, ?_⟩
  rw [outcome_attempt]
  revert correct
  rcases action.outcome unit with ⟨e | a, later⟩ <;> exact fun correct => correct

end Guards

/-! ## Emission -/

section Emission

variable {block : BlockId} {unit : CompilationUnit} (guarded : unit.Guarded block)

include guarded

/-- A const-correct instruction is an ordinary value of its type. -/
theorem guards_instruction {operation : Builder → ValueId × Builder} {instruction : Instruction}
    {ty : Ty} {post : ValueId → CompilationUnit → Prop}
    (lowers : Lowers block unit (build operation) post)
    (h : operation unit.builder = unit.builder.pushInstruction instruction ty)
    (correct : instruction.ConstCorrect unit.module ty) :
    Guards block unit (build operation)
      fun id later => post id later ∧ later.module.Ordinary id ty := by
  have hvalue := unit.builder.value?_pushInstruction instruction ty
  refine ⟨⟨lowers.1, fun id hid => ⟨lowers.2 id hid, ?_⟩⟩, ?_⟩
  · cases hid
    rw [outcome_build, h, Builder.pushInstruction_fst]
    exact .of_value ((hvalue _).trans (if_pos rfl)) nofun
  · rw [outcome_build, h]
    exact Builder.constCorrect_pushInstruction guarded.correct guarded.ready.typed.module correct

theorem guards_load {pointer : ValueId} {pointee found : Ty} {isConst : Bool}
    (h : unit.Holds block pointer (.pointer pointee isConst))
    (ordinary : unit.module.Ordinary pointer found) :
    Guards block unit (build (·.load pointer))
      fun id later => later.Holds block id pointee ∧ later.module.Ordinary id pointee := by
  obtain ⟨flag, hty⟩ := h.pointer
  exact guards_instruction guarded (lowers_load guarded.ready h) (unit.builder.load_of_typeOf? hty)
    (.load _ ordinary)

theorem guards_element {pointer : ValueId} {length : Nat} {element found : Ty} {isConst : Bool}
    (h : unit.Holds block pointer (.pointer (.array length element) isConst))
    (ordinary : unit.module.Ordinary pointer found) :
    Guards block unit (build (·.gep pointer [0, 0] (.pointerTo element)))
      fun id later => later.Holds block id (.pointerTo element) ∧
        later.module.Ordinary id (.pointerTo element) :=
  guards_instruction guarded (lowers_element guarded.ready h false) rfl (.gep _ _ ordinary)

theorem guards_constant (request : Request) {ty : Ty} {value : Constant} (h : value.Literal ty)
    (excused : Prop) :
    Guards block unit (constant request ty value)
      fun result later => result.ConstCorrect later.module excused := by
  have hvalue := unit.builder.value?_pushValue ⟨.constant value, ty, none⟩
  have lowers : Lowers block unit (constant request ty value) _ := lowers_constant request h
  refine ⟨⟨lowers.1, fun result hresult => ?_⟩, ?_⟩
  · cases hresult
    exact ⟨⟨ty, .of_value ((hvalue _).trans (if_pos rfl)) nofun, fun _ => rfl⟩, nofun⟩
  · exact Builder.constCorrect_constant guarded.correct guarded.ready.typed.module ty value

/-- A stored string is a literal. -/
theorem guards_string (name text : String) (span : Span) :
    Guards block unit
      (registerGlobal name (.ofString text) .internal true (some (.bytes (stringBytes text))) span)
      fun x later => later.Holds block x.storage (.pointerTo (.ofString text)) := by
  refine ⟨lowers_string name text span, ?_⟩
  rw [outcome_registerGlobal]
  split
  · exact guarded.correct
  · split
    · exact guarded.correct
    · rename_i added
      exact Builder.constCorrect_addGlobal? guarded.correct guarded.ready.typed.module added
        fun _ => ⟨text, rfl⟩

/-- Storage at an ordinary address, which in address mode is no pointer to constant characters. -/
theorem guards_access {address : ValueId} {stored found : Ty} (request : Request) {excused : Prop}
    (h : unit.Holds block address (.pointerTo stored))
    (ordinary : unit.module.Ordinary address found)
    (const : found = .constPointerTo .char → request.address = false ∧ excused) :
    Guards block unit (access address stored request)
      fun result later => result.ConstCorrect later.module excused := by
  have typed := guarded.ready.typed.module
  unfold access
  dsimp only
  split
  · rename_i mode
    refine .pure guarded ⟨⟨found, ordinary, fun same => ?_⟩, nofun⟩
    exact absurd (mode.symm.trans (const same).1) nofun
  · split
    · rename_i element helement
      obtain ⟨length, rfl⟩ := Ty.eq_array_of_element? helement
      refine .bind guarded (guards_element guarded h ordinary) ?_
      intro id later _ effects after new
      refine .pure after ⟨⟨_, new.2, fun _ => rfl⟩, fun {place} hplace => ?_⟩
      cases hplace
      exact ⟨found, ordinary.mono effects.grows typed, fun same => (const same).2⟩
    · refine .bind guarded (guards_load guarded h ordinary) fun id later _ effects after new => ?_
      refine .pure after ⟨⟨_, new.2, fun _ => rfl⟩, fun {place} hplace => ?_⟩
      cases hplace
      exact ⟨found, ordinary.mono effects.grows typed, fun same => (const same).2⟩

end Emission
end FormM

/-- The storage of a visible variable is a pointer that writes. -/
theorem CompilationUnit.Typed.typeOf?_storage {unit : CompilationUnit} (typed : unit.Typed)
    {name : String} {x : Variable} (h : unit.lookup? name = some x) :
    unit.module.typeOf? x.storage = some (.pointerTo x.ty) := by
  rcases mem_of_lookup? h with hlocal | hglobal
  · obtain ⟨label, block?, hv⟩ := typed.locals hlocal
    exact Module.typeOf?_of_value? hv
  · obtain ⟨id, hv⟩ := typed.globals hglobal
    exact Module.typeOf?_of_value? hv

/-- What a pointer to constant characters may be assigned to is one too. -/
theorem Ty.eq_of_isAssignable_const {pointee target : Ty}
    (h : (Ty.pointer pointee true).isAssignable target) : target = .pointer pointee true := by
  unfold isAssignable at h
  rcases Bool.or_eq_true_iff.mp h with same | weaker
  · exact (eq_of_beq same).symm
  · cases weaker

end FormLowering
