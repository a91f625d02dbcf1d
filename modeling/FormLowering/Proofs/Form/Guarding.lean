import FormLowering.Proofs.Form.Constness
import FormLowering.Proofs.Meaning.Tokens

/-!
Const-correctness of evaluations. What is evaluated with care emits const-correct code, and its
answer never types the address of a literal as a pointer that writes.
-/

namespace FormLowering

open FormM (Guards)

/-! ## Tokens -/

section Tokens

variable (token : Token) {request : Request} {unit : CompilationUnit}
  (guarded : unit.Guarded request.block) (excused : Prop)

include guarded

theorem Token.guards_integer : Guards request.block unit (token.integer request)
    fun result later => result.ConstCorrect later.module excused := by
  refine .bind_get ?_
  dsimp only
  split
  · exact FormM.guards_constant guarded request (.int _ _ _) _
  · exact .fail guarded _ _

theorem Token.guards_floating : Guards request.block unit (token.floating request)
    fun result later => result.ConstCorrect later.module excused := by
  obtain ⟨kind, hkind⟩ := floatingKind_primitive request.wanted?
  unfold floating
  dsimp only
  split
  · rw [hkind]
    exact FormM.guards_constant guarded request (.float _ _ _) _
  · exact .fail guarded _ _

theorem Token.guards_speculate : Guards request.block unit (token.speculate request)
    fun found later => ∀ result, found = some result →
      result.ConstCorrect later.module excused := by
  refine .bind_get ?_
  split
  · exact .pure guarded nofun
  · rename_i enum _
    have literal : Guards request.block unit (token.enumLiteral enum request)
        fun result later => result.ConstCorrect later.module excused := by
      refine .bind_check guarded fun value _ => .bind_get ?_
      exact FormM.guards_constant guarded request (.enum _ _ _) _
    refine .bind guarded literal.attempt fun answer later _ _ after correct => .pure after ?_
    intro result hresult
    cases answer with
    | error e => cases hresult
    | ok found =>
      cases hresult
      exact correct result rfl

/-- A name is const-correct unless it is the generated name of a literal. -/
theorem Token.guards_identifier
    (named : ∀ x, unit.lookup? token.text = some x → ¬ unit.module.IsLiteral x.storage) :
    Guards request.block unit (token.identifier request)
      fun result later => result.ConstCorrect later.module excused := by
  refine .bind_check guarded ?_
  intro constant hconstant
  split
  · exact FormM.guards_constant guarded request (token.literal_of_namedConstant? hconstant) _
  · refine .bind_get ?_
    split
    · rename_i x hx
      have typed := guarded.ready.typed
      refine FormM.guards_access guarded request (typed.holds_storage hx _)
        ⟨typed.typeOf?_storage hx, named x hx⟩ ?_
      exact fun same => absurd same (Ty.pointerTo_ne_constPointerTo _ _)
    · exact .fail guarded _ _

theorem Token.guards_string : Guards request.block unit (token.string request)
    fun result later => result.ConstCorrect later.module excused := by
  unfold string
  split
  · exact .fail guarded _ _
  · dsimp only
    have named : Guards request.block unit FormM.unusedName fun _ _ => True :=
      .same guarded ⟨.single (.record _ _ _), fun _ _ => trivial⟩ rfl
    refine .bind guarded named ?_
    intro name later _ _ guarded _
    refine .bind guarded (FormM.guards_string guarded name token.text token.span) ?_
    intro x later _ _ guarded holds
    have element := FormM.guards_instruction guarded
      (FormM.lowers_element guarded.ready holds true) rfl (.literal x.storage [0, 0])
    refine .bind guarded element ?_
    intro id last _ _ guarded new
    exact .pure guarded ⟨⟨_, new.2, fun _ => rfl⟩, nofun⟩

theorem Token.guards_resolve (careful : (Task.mk (.atom token) request unit).Careful) :
    Guards request.block unit (token.resolve request)
      fun result later => result.ConstCorrect later.module excused := by
  refine .bind_position guarded ?_
  cases hkind : token.kind with
  | integer => exact token.guards_integer guarded excused
  | floating => exact token.guards_floating guarded excused
  | identifier =>
    refine .bind guarded (token.guards_speculate guarded excused) ?_
    intro found later hspeculated _ after correct
    rcases token.of_speculate hspeculated hkind with ⟨_, _, result, rfl, -, -⟩ | ⟨rfl, rfl, -⟩
    · exact .pure after (correct result rfl)
    · exact token.guards_identifier guarded excused fun x hx literal =>
        careful.here (.name hkind hx literal)
  | string =>
    refine .bind guarded (token.guards_speculate guarded excused) ?_
    intro found later _ _ after correct
    cases found with
    | some result => exact .pure after (correct result rfl)
    | none => exact token.guards_string after excused

end Tokens

/-! ## Forms -/

/-- Doing the task emits const-correct code, and its answer keeps to the const flag. -/
def Task.ConstCorrect (task : Task) : Prop :=
  Guards task.request.block task.unit (task.node.resolve .core task.request) fun result later =>
    result.Sound later task.request.block task.request.address ∧
      result.ConstCorrect later.module task.FollowsConst

section Forms

variable {request : Request} {unit : CompilationUnit} (guarded : unit.Guarded request.block)
  {excused : Prop}

include guarded

theorem FormM.guards_follow {place : TypedValue} {outer found : Ty} {isConst : Bool}
    (h : unit.Holds request.block place.value (.pointer outer isConst))
    (ordinary : unit.module.Ordinary place.value found) :
    Guards request.block unit (FormM.follow place outer) fun record later =>
      ∃ flag found, later.Holds request.block record.1 (.pointer record.2 flag) ∧
        later.module.Ordinary record.1 found := by
  simp only [follow]
  split
  · rename_i inner hinner
    obtain ⟨flag, rfl⟩ := Ty.eq_pointer_of_pointee? hinner
    exact .bind guarded (guards_load guarded h ordinary) fun id later _ _ after new =>
      .pure after ⟨flag, _, new⟩
  · exact .pure guarded ⟨isConst, found, h, ordinary⟩

theorem FormM.guards_fieldAt {address : ValueId} {record found : Ty} {name : String}
    {base field : Span} {isConst : Bool}
    (h : unit.Holds request.block address (.pointer record isConst))
    (ordinary : unit.module.Ordinary address found) :
    Guards request.block unit (FormM.fieldAt address record name base field request)
      fun result later => result.ConstCorrect later.module excused := by
  refine .bind_get (.bind_check guarded fun entry hentry => ?_)
  obtain ⟨struct, known, fields, declared, rfl, hknown, hfields, -, hget, hty⟩ :=
    Registry.fieldIn_eq_ok hentry
  obtain ⟨flag, hpointer⟩ := h.pointer
  rw [hty]
  have lowers : Lowers request.block unit
      (build (·.gep address [0, entry.1] (.pointerTo declared.ty)))
      fun id later => later.Holds request.block id (.pointerTo declared.ty) :=
    lowers_instruction guarded.ready rfl (.field hpointer hknown hfields hget) nofun
      fun id hid => List.mem_singleton.mp hid ▸ h.available
  refine .bind guarded (guards_instruction guarded lowers rfl (.gep _ _ ordinary)) ?_
  intro id later _ _ after new
  exact guards_access after request new.1 new.2 fun same =>
    absurd same (Ty.pointerTo_ne_constPointerTo _ _)

theorem Operand.guards_field {base field : Node}
    (asked : ∀ name, field.fieldName = .ok name →
      (Task.mk base (request.nested true) unit).ConstCorrect) :
    Guards request.block unit
      (FormM.resolveField (base.operand .core) (field.operand .core) request)
      fun result later => result.ConstCorrect later.module excused := by
  rw [FormM.resolveField_eq]
  refine .bind_check guarded ?_
  intro name hname
  refine .bind guarded (asked name hname) ?_
  rintro place later - - after ⟨sound, correct⟩
  refine .bind_position after ?_
  split
  · exact .fail after _ _
  · rename_i outer houter
    obtain ⟨flag, hty⟩ := Ty.eq_pointer_of_pointee? houter
    have holds := sound.value
    rw [hty] at holds
    obtain ⟨found, ordinary, -⟩ := correct.value
    refine .bind after (FormM.guards_follow after holds ordinary) ?_
    rintro record last - - after ⟨flag, found, holds, ordinary⟩
    exact FormM.guards_fieldAt after holds ordinary

/-- The target is a pointer that writes, so it is none to constant characters; and such a pointer
is only stored where one is expected. -/
theorem Operand.guards_assign {target value : Node}
    (asked : ∀ part, Task.OfAssignment target value request unit part →
      part.unit.Guarded part.request.block → part.ConstCorrect) :
    Guards request.block unit
      (FormM.assign (target.operand .core) (value.operand .core) request)
      fun result later => result.ConstCorrect later.module excused := by
  refine .bind guarded (asked _ .target guarded) ?_
  rintro place later hplace - after ⟨targetSound, targetCorrect⟩
  split
  · rename_i stored hty
    refine .bind after (asked _ (.value hplace hty) after) ?_
    rintro source last - effects after' ⟨sourceSound, sourceCorrect⟩
    have holds := targetSound.value.later effects
    rw [hty] at holds
    obtain ⟨pointer, target, writes⟩ := targetCorrect.value
    obtain ⟨found, value, const⟩ := sourceCorrect.value
    have target := target.mono effects.grows after.ready.typed.module
    have writable : pointer ≠ .constPointerTo .char := fun same => by
      have impossible := (writes same).symm.trans hty
      rw [same] at impossible
      cases impossible
    split
    · rename_i assignable
      have holdsValue := sourceSound.value.similar (.of_isAssignable assignable)
      have kept (same : found = .constPointerTo .char) : stored = found := by
        rw [same]
        rw [(const same).trans same] at assignable
        exact Ty.eq_of_isAssignable_const assignable
      obtain ⟨flag, hpointer⟩ := holds.pointer
      cases hpointer.symm.trans target.typed
      refine .bind_position after' ?_
      have lowers := FormM.lowers_store after'.ready holds holdsValue
      have emitted := FormM.guards_instruction after' lowers
        (last.builder.store_of_typeOf? hpointer _)
        (.store _ target value writable fun same => congrArg some (kept same))
      refine .bind after' emitted ?_
      intro _ done _ effects after _
      have target := target.mono effects.grows after'.ready.typed.module
      have value := value.mono effects.grows after'.ready.typed.module
      dsimp only
      split
      · exact .pure after ⟨⟨_, target, fun same => absurd same writable⟩, nofun⟩
      · refine .pure after ⟨⟨_, value, kept⟩, fun {found} hfound => ?_⟩
        cases hfound
        exact ⟨_, target, fun same => absurd same writable⟩
    · exact .fail after' _ _
  · exact .fail after _ _

/-- An address is taken of what the operand is stored at; only the task itself can have been a
pointer to constant characters. -/
theorem Operand.guards_addressOf {span : Span} {operand : Node}
    (asked : request.address = false → (Task.mk operand (request.nested false) unit).ConstCorrect ∧
      ¬ (Task.mk operand (request.nested false) unit).FollowsConst) :
    Guards request.block unit (Form.addressOf span [operand.operand .core] request)
      fun result later => result.ConstCorrect later.module excused := by
  unfold Form.addressOf
  dsimp only
  split
  · exact .fail guarded _ _
  · rename_i mode
    obtain ⟨constCorrect, keeps⟩ := asked (by simpa using mode)
    refine .bind guarded constCorrect ?_
    rintro inner later - - after ⟨-, correct⟩
    split
    · rename_i place hplace
      obtain ⟨found, ordinary, const⟩ := correct.place hplace
      exact .pure after ⟨⟨found, ordinary, fun same => absurd (const same) keeps⟩, nofun⟩
    · exact .fail after _ _

/-- The place of an answer in value mode is the pointer that was followed. -/
theorem Operand.guards_dereference {items : List Node} {span : Span} {operand : Node}
    (calls : Node.Calls items "@" [operand])
    (asked : (Task.mk operand (request.nested false) unit).ConstCorrect) :
    Guards request.block unit (Form.dereference span [operand.operand .core] request)
      fun result later => result.ConstCorrect later.module
        (Task.mk (.list items span) request unit).FollowsConst := by
  refine .bind guarded asked ?_
  rintro inner later hinner - after ⟨sound, correct⟩
  obtain ⟨found, ordinary, const⟩ := correct.value
  split
  · exact .fail after _ _
  · rename_i stored hstored
    split
    · exact .pure after ⟨⟨found, ordinary, const⟩, nofun⟩
    · rename_i mode
      obtain ⟨flag, hty⟩ := Ty.eq_pointer_of_pointee? hstored
      have holds := sound.value
      rw [hty] at holds
      have holds := holds.similar (Ty.similar_pointer stored flag false)
      refine .bind_position after ?_
      refine FormM.guards_access after request holds ordinary ?_
      exact fun same => ⟨by simpa using mode, .dereference calls hinner ((const same).trans same)⟩

theorem FormM.guards_measured (ty : Ty) (span : Span) (query : Registry → Target → LayoutM Nat) :
    Guards request.block unit (FormM.measured request ty span query)
      fun result later => result.ConstCorrect later.module excused := by
  have measured : Guards request.block unit (FormM.measure query) fun _ _ => True :=
    .same guarded (.measure fun _ _ => trivial) rfl
  refine .bind guarded measured ?_
  intro answer later _ _ after _
  cases answer with
  | error error => exact .fail after _ _
  | ok n =>
    refine .bind_get ?_
    dsimp only
    split
    · exact FormM.guards_constant after request (.int _ _ _) _
    · exact .fail after _ _

theorem Operand.guards_measuring {first : Operand} (span : Span)
    (query : Registry → Target → Ty → LayoutM Nat) :
    Guards request.block unit (Form.measuring query span [first] request)
      fun result later => result.ConstCorrect later.module excused :=
  .bind_parseType guarded fun _ => FormM.guards_measured guarded _ _ _

theorem Operand.guards_offsetOf {first second : Operand} (span : Span) :
    Guards request.block unit (Form.offsetOf span [first, second] request)
      fun result later => result.ConstCorrect later.module excused := by
  refine .bind_parseType guarded ?_
  intro ty
  split
  · exact .fail guarded _ _
  · refine .bind_check guarded fun field _ => .bind_get ?_
    split
    · exact .fail guarded _ _
    · exact FormM.guards_measured guarded _ _ _

end Forms

/-- A task of which nothing goes around the const flag is const-correct. -/
theorem Task.Careful.constCorrect {task : Task} (careful : task.Careful)
    (guarded : task.unit.Guarded task.request.block) : task.ConstCorrect := by
  obtain ⟨node, request, unit⟩ := task
  refine Guards.and ?_ (node.evaluates_resolve request guarded.ready)
  refine Node.core_induction (P := fun node request action => ∀ unit : CompilationUnit,
      unit.Guarded request.block → (Task.mk node request unit).Careful →
      Guards request.block unit action fun result later =>
        result.ConstCorrect later.module (Task.mk node request unit).FollowsConst)
    (fun token request unit guarded careful => token.guards_resolve guarded _ careful)
    (fun _ _ _ _ _ guarded _ => .bind_position guarded (.fail guarded _ _)) ?_ node request unit
    guarded careful
  intro items span request name args viaCore action calls application ih unit guarded careful
  have done (part : Task) (asks : Task.Asks ⟨.list items span, request, unit⟩ part)
      (mem : part.node ∈ args) (guarded : part.unit.Guarded part.request.block) :
      part.ConstCorrect :=
    (ih part.node mem part.request part.unit guarded (careful.part asks)).and
      (part.node.evaluates_resolve part.request guarded.ready)
  refine .bind_position guarded ?_
  -- the prefix `core` is in the request of the list, and no part is asked with it
  cases application with
  | refused fault => exact .fail guarded _ _
  | field base field =>
    exact Operand.guards_field guarded fun name hname =>
      done _ (.field calls hname) (by simp) guarded
  | assign target value =>
    refine Operand.guards_assign guarded fun part asked guarded => ?_
    refine done part (.assign calls asked) ?_ guarded
    cases asked <;> simp
  | addressOf operand =>
    refine Operand.guards_addressOf guarded fun mode => ⟨?_, fun follows => ?_⟩
    · exact done _ (.addressOf calls mode) (by simp) guarded
    · exact careful.here (.addressOf calls mode follows)
  | dereference operand =>
    exact Operand.guards_dereference guarded calls (done _ (.dereference calls) (by simp) guarded)
  | alignmentOf => exact Operand.guards_measuring guarded span _
  | sizeOf => exact Operand.guards_measuring guarded span _
  | offsetOf => exact Operand.guards_offsetOf guarded span

/-- So is an evaluation. -/
theorem Evaluation.Careful.guards {evaluation : Evaluation} {request : Request}
    {unit : CompilationUnit} (careful : evaluation.Careful request unit)
    (guarded : unit.Guarded request.block) :
    Guards request.block unit (evaluation.action .core request) fun result later =>
      result.ConstCorrect later.module True := by
  cases evaluation with
  | any node =>
    exact ((careful _ (.any node)).constCorrect guarded).mono fun _ _ h => h.2.mono fun _ => trivial
  | token node =>
    cases node with
    | atom token => exact token.guards_resolve guarded True (careful _ (.token token))
    | list items span => exact .bind_position guarded (.fail guarded _ _)
  | member base field =>
    exact Operand.guards_field guarded fun name hname =>
      (careful _ (.member hname)).constCorrect guarded
  | assign target value =>
    exact Operand.guards_assign guarded fun part asked guarded =>
      (careful part (.assign asked)).constCorrect guarded

end FormLowering
