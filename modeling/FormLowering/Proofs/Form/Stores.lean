import FormLowering.Proofs.Code.Gained
import FormLowering.Proofs.Form.Careful
import FormLowering.Proofs.Unit.Namespace

/-!
Stores on failure paths. Code is emitted at once and never taken back, so what a form stored before
a later part of its context fails stays in the block. But that is all: whatever fails, at any depth,
the stores in the code are those of the assignments that succeeded.
-/

namespace FormLowering

namespace Value

def isStore (v : Value) : Bool :=
  match v.kind with
  | .instruction instruction => instruction.isStore
  | _ => false

end Value

namespace CompilationUnit

/-- The value is the newest of the unit, and a store in the block. -/
structure EndsWithStore (unit : CompilationUnit) (block : BlockId) (id : ValueId) : Prop where
  newest : unit.module.values.size = id.index + 1
  store : ∃ value pointer,
    unit.module.value? id = some ⟨.instruction (.store value pointer), .void, some block⟩

end CompilationUnit

namespace Task

/-- The task is an assignment that succeeds, and the value is the store that it ends with. -/
inductive Stored : Task → ValueId → Prop
  | assign {items : List Node} {span : Span} {request : Request} {unit later : CompilationUnit}
      {target value : Node} {result : TypedValue} {id : ValueId} :
      Node.Calls items "setf" [target, value] →
      ((Node.list items span).resolve .core request).outcome unit = (.ok result, later) →
      later.EndsWithStore request.block id → Stored ⟨.list items span, request, unit⟩ id

/-- The value is the store of an assignment that the task comes to. -/
def Leaves (task : Task) (id : ValueId) : Prop :=
  ∃ part, Relation.ReflTransGen Asks task part ∧ part.Stored id

theorem Leaves.head {task part : Task} (asks : task.Asks part) {id : ValueId} (h : part.Leaves id) :
    task.Leaves id := by
  obtain ⟨last, path, stored⟩ := h
  exact ⟨last, .head asks path, stored⟩

end Task

/-! ## Code without stores -/

theorem Builder.not_isStore_pushInstruction (builder : Builder) {instruction : Instruction} {ty : Ty}
    (other : instruction.isStore = false) {id : ValueId} {v : Value}
    (hv : (builder.pushInstruction instruction ty).2.module.value? id = some v) :
    builder.module.value? id = some v ∨ v.isStore = false := by
  rw [Builder.value?_pushInstruction] at hv
  split at hv
  · cases hv
    exact .inr other
  · exact .inl hv

/-- A change without stores brings in no store. -/
theorem Change.not_isStore {unit later : CompilationUnit} (h : Change False unit later)
    {id : ValueId} {v : Value} (hv : later.module.value? id = some v) :
    unit.module.value? id = some v ∨ v.isStore = false := by
  cases h with
  | report | measure => exact .inl hv
  | edit form =>
    cases form with
    | position => exact .inl hv
    | constant ty constant =>
      change (unit.builder.pushValue _).2.module.value? id = _ at hv
      rw [Builder.value?_pushValue] at hv
      split at hv
      · cases hv
        exact .inr rfl
      · exact .inl hv
    | load pointer =>
      obtain ⟨ty, same⟩ := unit.builder.module_load pointer
      change (unit.builder.load pointer).2.module.value? id = _ at hv
      rw [same] at hv
      exact unit.builder.not_isStore_pushInstruction rfl hv
    | store allowed => exact allowed.elim
    | gep pointer indices ty => exact unit.builder.not_isStore_pushInstruction rfl hv
  | string added =>
    change _ = _ at hv
    rw [CompilationUnit.module, unit.builder.value?_addGlobal? added] at hv
    split at hv
    · cases hv
      exact .inr rfl
    · exact .inl hv

theorem Changes.not_isStore {unit later : CompilationUnit} (h : Changes False unit later)
    {id : ValueId} {v : Value} (hv : later.module.value? id = some v) :
    unit.module.value? id = some v ∨ v.isStore = false := by
  induction h with
  | refl => exact .inl hv
  | tail _ last ih => exact (last.not_isStore hv).elim ih .inr

/-! ## Accounting for stores -/

namespace FormM

variable {α β : Type}

/-- The operation only adds to the module, and each new store stands in the block and is accounted
for. -/
def Accounts (block : BlockId) (unit : CompilationUnit) (action : FormM α)
    (account : ValueId → Prop) : Prop :=
  unit.module.Extends (action.outcome unit).2.module ∧
    ∀ id v, unit.module.value? id = none → (action.outcome unit).2.module.value? id = some v →
      v.isStore = true → v.block? = some block ∧ account id

namespace Accounts

variable {block : BlockId} {unit : CompilationUnit} {account : ValueId → Prop}

theorem mono {action : FormM α} {wider : ValueId → Prop} (h : Accounts block unit action account)
    (imp : ∀ id, account id → wider id) : Accounts block unit action wider :=
  ⟨h.1, fun id v hold hv store => (h.2 id v hold hv store).imp_right (imp id)⟩

/-- What makes no stores has none to account for. -/
theorem of_makes {action : FormM α} (h : Makes False action) :
    Accounts block unit action account := by
  refine ⟨(h unit).grows, ?_⟩
  intro id v hold hv store
  rcases (h unit).not_isStore hv with old | other
  · cases hold.symm.trans old
  · cases store.symm.trans other

theorem bind {action : FormM α} {next : α → FormM β} (first : Accounts block unit action account)
    (rest : ∀ a later, action.outcome unit = (.ok a, later) →
      Accounts block later (next a) account) :
    Accounts block unit (action >>= next) account := by
  simp only [Accounts] at first ⊢
  rw [outcome_bind]
  rcases ended : action.outcome unit with ⟨error | a, later⟩
  · rw [ended] at first
    exact first
  · rw [ended] at first
    obtain ⟨grown, accounted⟩ := first
    obtain ⟨growing, accounting⟩ := rest a later ended
    refine ⟨grown.trans growing, ?_⟩
    intro id v hold hv store
    -- a store of the whole is one of the rest, or was there when the first part ended
    cases halfway : later.module.value? id with
    | none => exact accounting id v halfway hv store
    | some w =>
      cases (growing.value halfway).symm.trans hv
      exact accounted id v hold halfway store

theorem bind_check {answer : Except FormError β} {next : β → FormM α}
    (rest : ∀ b, answer = .ok b → Accounts block unit (next b) account) :
    Accounts block unit (FormM.check answer >>= next) account := by
  refine .bind (of_makes (.check answer)) ?_
  intro b later ended
  obtain ⟨passed, rfl⟩ := of_check ended
  exact rest b passed

end Accounts
end FormM

open FormM (Accounts)

/-- It makes no difference whether the insertion point is moved before. -/
theorem Node.accounts_positioned {node : Node} {request : Request} {unit : CompilationUnit}
    {account : ValueId → Prop}
    (h : Accounts request.block unit (node.resolve .core request) account) :
    Accounts request.block (unit.positioned request.block) (node.resolve .core request) account := by
  simp only [Accounts] at h ⊢
  rw [node.outcome_resolve] at h
  exact h

section Forms

variable {first second : Operand} {request : Request} {unit : CompilationUnit}
  {account : ValueId → Prop}

theorem Operand.accounts_field
    (base : ∀ name, second.node.fieldName = .ok name →
      Accounts request.block unit (first.resolve (request.nested true)) account) :
    Accounts request.block unit (FormM.resolveField first second request) account := by
  rw [FormM.resolveField_eq]
  refine .bind_check fun name hname => .bind (base name hname) fun place later _ => .of_makes ?_
  refine .bind (.position _) fun _ => ?_
  split
  · exact .fail _ _
  · exact .bind (.follow _ _) fun _ => .fieldAt _ _ _ _ _ _

/-- The unit after the store of an assignment. -/
def CompilationUnit.storing (unit : CompilationUnit) (block : BlockId) (source place : TypedValue) :
    CompilationUnit :=
  { unit with builder := ((unit.builder.position block).store source.value place.value).2 }

theorem CompilationUnit.module_storing (unit : CompilationUnit) (block : BlockId)
    (source place : TypedValue) : (unit.storing block source place).module =
      ((unit.builder.position block).pushInstruction (.store source.value place.value) .void).2.module :=
  (unit.builder.position block).module_store source.value place.value

theorem FormM.outcome_storeAt (source place : TypedValue) (stored : Ty) (request : Request)
    (unit : CompilationUnit) : ∃ result, (FormM.storeAt source place stored request).outcome unit =
      (.ok result, unit.storing request.block source place) := by
  simp only [storeAt]
  rw [outcome_bind, outcome_position]
  dsimp only
  rw [outcome_bind, outcome_build]
  dsimp only
  split <;> exact ⟨_, rfl⟩

/-- What an assignment answers. In address mode it is the address that was written to; else it is
the value, and the address is its place. -/
structure TypedValue.Assigned (result : TypedValue) (asAddress : Bool) (stored : Ty)
    (source place : ValueId) : Prop where
  ty : result.ty = if asAddress then .pointerTo stored else stored
  address : (if asAddress then some result.value else result.place?.map (·.value)) = some place
  value : asAddress = false → result.value = source

/-- A store answers the address or the value. -/
theorem FormM.of_storeAt {later : CompilationUnit} {result source place : TypedValue} {stored : Ty}
    (ended : (FormM.storeAt source place stored request).outcome unit = (.ok result, later)) :
    later = unit.storing request.block source place ∧
      result.Assigned request.address stored source.value place.value := by
  obtain ⟨_, _, positioned, ended⟩ := FormM.of_bind ended
  cases positioned
  obtain ⟨_, _, built, ended⟩ := FormM.of_bind ended
  cases built
  split at ended
  · rename_i mode
    cases ended
    exact ⟨rfl, by simp [mode], by simp [mode], by simp [mode]⟩
  · rename_i mode
    cases ended
    exact ⟨rfl, by simp [mode], by simp [mode], fun _ => rfl⟩

/-- An assignment that succeeds locates its target, reads its value and stores. -/
theorem Operand.of_assign {later : CompilationUnit} {result : TypedValue}
    (ended : (FormM.assign first second request).outcome unit = (.ok result, later)) :
    ∃ place stored located source evaluated,
      (first.resolve (request.nested true)).outcome unit = (.ok place, located) ∧
      place.ty = .pointerTo stored ∧
      (second.resolve (request.nested false (some stored))).outcome located =
        (.ok source, evaluated) ∧
      later = evaluated.storing request.block source place ∧
      result.Assigned request.address stored source.value place.value := by
  rw [FormM.assign_eq] at ended
  obtain ⟨place, located, targets, ended⟩ := FormM.of_bind ended
  split at ended
  · rename_i stored pointer
    obtain ⟨source, evaluated, values, ended⟩ := FormM.of_bind ended
    split at ended
    · obtain ⟨same, answer⟩ := FormM.of_storeAt ended
      exact ⟨place, stored, located, source, evaluated, targets, pointer, values, same, answer⟩
    · cases ended
  · cases ended

/-- The one new value after a store is the store. -/
theorem CompilationUnit.endsWithStore_storing {block : BlockId} {source place : TypedValue}
    {id : ValueId} {v : Value} (new : unit.module.value? id = none)
    (hv : (unit.storing block source place).module.value? id = some v) :
    v.block? = some block ∧ (unit.storing block source place).EndsWithStore block id := by
  have found := hv
  rw [module_storing, Builder.value?_pushInstruction] at found
  split at found
  · rename_i newest
    cases found
    refine ⟨rfl, ?_, ⟨_, _, hv⟩⟩
    rw [module_storing, Builder.values_pushInstruction, Array.size_push, newest]
    rfl
  · cases new.symm.trans found

/-- What an assignment stores is accounted for by its parts, or is the store that it ends with, and
then it succeeds. -/
theorem Operand.accounts_assign (account : ValueId → Prop)
    (target : Accounts request.block unit (first.resolve (request.nested true)) account)
    (value : ∀ place stored later,
      (first.resolve (request.nested true)).outcome unit = (.ok place, later) →
      place.ty = .pointerTo stored →
      Accounts request.block later (second.resolve (request.nested false (some stored))) account) :
    Accounts request.block unit (FormM.assign first second request) fun id => account id ∨
      ∃ result later, (FormM.assign first second request).outcome unit = (.ok result, later) ∧
        later.EndsWithStore request.block id := by
  rw [FormM.assign_eq]
  refine .bind (target.mono fun _ => .inl) fun place mid hplace => ?_
  split
  · rename_i stored pointer
    have sourced := value place stored mid hplace pointer
    refine .bind (sourced.mono fun _ => .inl) fun source last hsource => ?_
    split
    · rename_i assignable
      obtain ⟨result, ended⟩ := FormM.outcome_storeAt source place stored request last
      have whole : (FormM.assign first second request).outcome unit =
          (.ok result, last.storing request.block source place) := by
        rw [FormM.assign_eq, FormM.outcome_bind, hplace]
        dsimp only
        rw [pointer]
        dsimp only
        rw [FormM.outcome_bind, hsource]
        dsimp only
        rw [if_pos assignable, ended]
      simp only [Accounts]
      rw [ended]
      refine ⟨?_, fun id v new hv _ => ?_⟩
      · exact (last.builder.position request.block).extends_store source.value place.value
      · obtain ⟨here, ends⟩ := last.endsWithStore_storing new hv
        exact ⟨here, .inr ⟨result, _, whole, ends⟩⟩
    · exact .of_makes (.fail _ _)
  · exact .of_makes (.fail _ _)

theorem Operand.accounts_addressOf (span : Span)
    (inner : request.address = false →
      Accounts request.block unit (first.resolve (request.nested false)) account) :
    Accounts request.block unit (Form.addressOf span [first] request) account := by
  unfold Form.addressOf
  dsimp only
  split
  · exact .of_makes (.fail _ _)
  · rename_i mode
    refine .bind (inner (by simpa using mode)) fun answer later _ => .of_makes ?_
    split
    · exact .pure _
    · exact .fail _ _

theorem Operand.accounts_dereference (span : Span)
    (inner : Accounts request.block unit (first.resolve (request.nested false)) account) :
    Accounts request.block unit (Form.dereference span [first] request) account := by
  refine .bind inner fun answer later _ => .of_makes ?_
  split
  · exact .fail _ _
  · split
    · exact .pure _
    · exact .bind (.position _) fun _ => .access _ _ _

end Forms

/-- Every store of an evaluation is left by an assignment that it comes to. -/
theorem Node.accounts_resolve (node : Node) : ∀ (request : Request) (unit : CompilationUnit),
    Accounts request.block unit (node.resolve .core request) (Task.Leaves ⟨node, request, unit⟩) := by
  intro request
  refine Node.core_induction (P := fun node request action => node.resolve .core request = action →
      ∀ unit, Accounts request.block unit action (Task.Leaves ⟨node, request, unit⟩))
    (fun token request _ unit => .of_makes (token.makes_resolve request))
    (fun _ _ _ _ _ _ => .of_makes (.bind (.position _) fun _ => .fail _ _)) ?_ node request rfl
  intro items span request name args viaCore action calls application ih same unit
  -- a part is asked at the unit itself, and evaluated with the insertion point in place
  have done (part : Task) (asks : Task.Asks ⟨.list items span, request, unit⟩ part)
      (mem : part.node ∈ args) (block : part.request.block = request.block) :
      Accounts request.block part.unit (part.node.resolve .core part.request)
        (Task.Leaves ⟨.list items span, request, unit⟩) := by
    have accounted := ih part.node mem part.request rfl part.unit
    rw [block] at accounted
    exact accounted.mono fun _ leaves => leaves.head asks
  refine .bind (.of_makes (.position _)) fun _ later positioned => ?_
  cases positioned
  cases application with
  | refused fault => exact .of_makes (.fail _ _)
  | field base field =>
    refine Operand.accounts_field fun name hname => ?_
    exact Node.accounts_positioned (done _ (.field calls hname) (by simp) rfl)
  | assign target value =>
    have located := Node.outcome_resolve .core target (request.nested true) unit
    refine (Operand.accounts_assign (Task.Leaves ⟨.list items span, request, unit⟩) ?_
      fun place stored later hplace pointer => ?_).mono ?_
    · exact Node.accounts_positioned (done _ (.assign calls .target) (by simp) rfl)
    · exact done _ (.assign calls (.value (located.trans hplace) pointer)) (by simp) rfl
    · rintro id (leaves | ⟨result, later, succeeded, ends⟩)
      · exact leaves
      · have whole : ((Node.list items span).resolve .core request).outcome unit =
            (.ok result, later) := by
          rw [same, FormM.outcome_bind]
          exact succeeded
        exact ⟨_, .refl, .assign calls whole ends⟩
  | addressOf operand =>
    refine Operand.accounts_addressOf span fun mode => ?_
    exact Node.accounts_positioned (done _ (.addressOf calls mode) (by simp) rfl)
  | dereference operand =>
    refine Operand.accounts_dereference span ?_
    exact Node.accounts_positioned (done _ (.dereference calls) (by simp) rfl)
  | alignmentOf => exact .of_makes (Operand.makes_measuring .alignment)
  | sizeOf => exact .of_makes (Operand.makes_measuring .size)
  | offsetOf => exact .of_makes Operand.makes_offsetOf

/-- So is every store of an evaluation that fails. -/
theorem Evaluation.accounts_action {evaluation : Evaluation} {request : Request}
    {unit later : CompilationUnit} {error : FormError}
    (failed : (evaluation.action .core request).outcome unit = (.error error, later)) :
    Accounts request.block unit (evaluation.action .core request) fun id =>
      ∃ start, evaluation.Starts request unit start ∧ start.Leaves id := by
  have starts {task : Task} (h : evaluation.Starts request unit task)
      (block : task.request.block = request.block) :
      Accounts request.block task.unit (task.node.resolve .core task.request) fun id =>
        ∃ start, evaluation.Starts request unit start ∧ start.Leaves id := by
    have accounted := task.node.accounts_resolve task.request task.unit
    rw [block] at accounted
    exact accounted.mono fun id leaves => ⟨task, h, leaves⟩
  cases evaluation with
  | any node => exact starts (.any node) rfl
  | token node =>
    cases node with
    | atom token => exact starts (.token token) rfl
    | list items span => exact .of_makes (.bind (.position _) fun _ => .fail _ _)
  | member base field => exact Operand.accounts_field fun name hname => starts (.member hname) rfl
  | assign target value =>
    refine (Operand.accounts_assign _ (starts (.assign .target) rfl)
      fun place stored later hplace pointer => starts (.assign (.value hplace pointer)) rfl).mono ?_
    rintro id (accounted | ⟨result, later, succeeded, -⟩)
    · exact accounted
    · cases failed.symm.trans succeeded

/-! ## Failures -/

/-- A routine with a character and an integer. -/
def CompilationUnit.charAndInt : CompilationUnit :=
  (((CompilationUnit.new "m" .x86_64 0).perform (.enterFunction "f")).perform
    (.declareLocal "x" .char)).perform (.declareLocal "y" (.primitive .int))

namespace Evaluation

/-- Where an evaluation fails, every store that it left in the code stands in the block of the
request, and is the last instruction of an assignment in it that succeeded. So if none succeeded, no
store was left. -/
theorem failed_stores {unit later : CompilationUnit} (reachable : Reachable unit)
    {evaluation : Evaluation} {request : Request} (hasBlock : unit.HasBlock request.block)
    {error : FormError}
    (failed : (evaluation.action .core request).outcome unit = (.error error, later))
    (block : BlockId) :
    ∃ new, later.module.instructions block = unit.module.instructions block ++ new ∧
      ∀ id value pointer, (id, .store value pointer) ∈ new → block = request.block ∧
        ∃ start part, evaluation.Starts request unit start ∧
          Relation.ReflTransGen Task.Asks start part ∧ part.Stored id := by
  have left : unit.perform (.evaluate evaluation request) = later := congrArg Prod.snd failed
  have wellFormed : later.module.WellFormed := by
    rw [← left]
    exact (Reachable.perform (.evaluate evaluation request) reachable hasBlock).linked.builder.module
  obtain ⟨grows, accounted⟩ := evaluation.accounts_action failed
  rw [failed] at grows accounted
  obtain ⟨new, whole, gained⟩ :=
    reachable.linked.builder.module.instructions_gained wellFormed grows block
  refine ⟨new, whole, fun id value pointer mem => ?_⟩
  obtain ⟨hold, ty, hv⟩ := gained id _ mem
  obtain ⟨here, start, starts, part, path, stored⟩ := accounted id _ hold hv rfl
  exact ⟨Option.some.inj here, start, part, starts, path, stored⟩

/-- An assignment of an assignment: `(setf x (setf y 1))`. -/
def nested : Evaluation :=
  let name (text : String) : Node := .atom ⟨.identifier, text, .dummy⟩
  .any (.list [name "setf", name "x",
    .list [name "setf", name "y", .atom ⟨.integer, "1", .dummy⟩] .dummy] .dummy)

theorem reachable_charAndInt : Reachable .charAndInt :=
  .perform _ (.perform _ (.perform _ (.new "m" .x86_64 0) trivial) trivial) trivial

theorem nested_fails : ((nested.action .core { block := ⟨0⟩ }).outcome .charAndInt).1 =
    .error ⟨.typeMismatch .char (.primitive .int), .dummy⟩ := by
  rfl

/-- What fails may have stored before: the outer assignment is refused for the type of the inner
one, whose store is already there. -/
theorem nested_store_kept : ¬ ∀ (unit later : CompilationUnit) (evaluation : Evaluation)
    (request : Request) (error : FormError), Reachable unit → unit.HasBlock request.block →
    (evaluation.action .core request).outcome unit = (.error error, later) → ∀ block,
      later.module.count block Instruction.isStore = unit.module.count block Instruction.isStore := by
  intro claim
  let ended := (nested.action .core { block := ⟨0⟩ }).outcome .charAndInt
  have same := claim .charAndInt ended.2 nested { block := ⟨0⟩ } _ reachable_charAndInt rfl
    (Prod.ext nested_fails rfl) ⟨0⟩
  have before : CompilationUnit.charAndInt.module.count ⟨0⟩ Instruction.isStore = 0 := by rfl
  have after : ended.2.module.count ⟨0⟩ Instruction.isStore = 1 := by rfl
  rw [before, after] at same
  cases same

/-- The store there is the one of the inner assignment. -/
theorem nested_store_accounted :
    let ended := (nested.action .core { block := ⟨0⟩ }).outcome .charAndInt
    ended.1 = .error ⟨.typeMismatch .char (.primitive .int), .dummy⟩ ∧
      (⟨3⟩, .store ⟨2⟩ ⟨1⟩) ∈ ended.2.module.instructions ⟨0⟩ ∧
      ∃ start part, nested.Starts { block := ⟨0⟩ } .charAndInt start ∧
        Relation.ReflTransGen Task.Asks start part ∧ part.Stored ⟨3⟩ := by
  intro ended
  obtain ⟨new, whole, stored⟩ := failed_stores reachable_charAndInt
    (show CompilationUnit.charAndInt.HasBlock (Request.mk ⟨0⟩ false false none).block from rfl)
    (Prod.ext nested_fails rfl) ⟨0⟩
  have gained : ended.2.module.instructions ⟨0⟩ =
      CompilationUnit.charAndInt.module.instructions ⟨0⟩ ++ [(⟨3⟩, .store ⟨2⟩ ⟨1⟩)] := by rfl
  have same : new = [(⟨3⟩, .store ⟨2⟩ ⟨1⟩)] := List.append_cancel_left (whole.symm.trans gained)
  obtain ⟨-, start, part, starts, path, left⟩ := stored ⟨3⟩ ⟨2⟩ ⟨1⟩ (by simp [same])
  exact ⟨nested_fails, by simp [gained], start, part, starts, path, left⟩

end Evaluation
end FormLowering
