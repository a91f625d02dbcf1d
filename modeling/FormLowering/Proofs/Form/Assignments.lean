import FormLowering.Proofs.Form.TypeNotation
import FormLowering.Proofs.Unit.Appending

/-!
One store for each assignment. An evaluation that succeeds appends as many stores as there are
assignments in its node, in the order in which they are carried out: after the code of the target
comes the code of the value, and then the store of that value to that address.
-/

namespace FormLowering

/-! ## The assignments of a node -/

namespace Node

/-- The name that a list has for its form, maybe after `core`. -/
def formName? : List Node → Option String
  | [] => none
  | head :: args =>
    match head.symbol?, args with
    | some "core", second :: _ => second.symbol?
    | some "core", [] => none
    | symbol, _ => symbol

end Node

mutual

/-- The lists of a node, at any depth, that are assignments by their name. What is in a list comes
before the list, item by item. -/
def Node.assignments : Node → List Node
  | .atom _ => []
  | .list items span => Node.assignmentsIn items ++
      if Node.formName? items = some "setf" then [.list items span] else []

def Node.assignmentsIn : List Node → List Node
  | [] => []
  | node :: rest => node.assignments ++ Node.assignmentsIn rest

end

namespace Node

variable {items args : List Node} {name : String} {node : Node}

theorem Calls.formName (calls : Calls items name args) : formName? items = some name := by
  cases calls with
  | plain symbol other =>
    simp only [formName?]
    rw [symbol]
    split
    · rename_i named
      exact absurd (Option.some.inj named) other
    · rename_i named
      exact absurd (Option.some.inj named) other
    · rfl
  | prefixed core symbol =>
    simp only [formName?]
    rw [core]
    exact symbol

theorem assignments_of_symbol (symbol : node.symbol? = some name) : node.assignments = [] := by
  cases node with
  | atom => rfl
  | list => cases symbol

/-- The head of a call has no assignments in it. -/
theorem Calls.assignments (calls : Calls items name args) (span : Span) :
    (Node.list items span).assignments =
      assignmentsIn args ++ if name = "setf" then [.list items span] else [] := by
  have named := calls.formName
  cases calls with
  | plain symbol other =>
    rw [Node.assignments, assignmentsIn, assignments_of_symbol symbol, named]
    simp
  | prefixed core symbol =>
    rw [Node.assignments, assignmentsIn, assignmentsIn, assignments_of_symbol core,
      assignments_of_symbol symbol, named]
    simp

theorem assignments_of_fieldName (named : node.fieldName = .ok name) : node.assignments = [] := by
  cases node with
  | atom => rfl
  | list => cases named

/-- A list under another name has no assignments if its other items have none, however they are
spelled. -/
theorem Respells.assignments_call (plain : name ≠ "core") (other : name ≠ "setf")
    (none : ∀ item ∈ items, ∀ node : Node, node.Respells item → node.assignments = [])
    (spelled : node.Respells (.ofItems (.symbol name :: items))) : node.assignments = [] := by
  obtain ⟨mark, others, span, rfl, rest⟩ := spelled.eq_call
  rw [Calls.assignments (.plain rfl plain), if_neg other, List.append_nil]
  clear spelled
  induction rest with
  | nil => rfl
  | cons first _ ih =>
    rw [assignmentsIn, none _ (by simp) _ first, List.nil_append]
    exact ih fun item mem => none item (List.mem_cons_of_mem _ mem)

/-- There are no assignments in the notation of a type. -/
theorem Respells.assignments_type {ty : Ty} (spelled : node.Respells ty.node) :
    node.assignments = [] := by
  induction ty generalizing node with
  | primitive | struct | enum | param =>
    obtain ⟨span, rfl⟩ := spelled.eq_symbol
    rfl
  | pointer pointee isConst ih =>
    have pointed : ∀ item ∈ [pointee.node], ∀ node : Node, node.Respells item →
        node.assignments = [] := by
      simpa using fun _ => ih
    cases isConst with
    | false => exact assignments_call (by decide) (by decide) pointed spelled
    | true =>
      refine assignments_call (by decide) (by decide) ?_ spelled
      simpa using fun node => assignments_call (by decide) (by decide) pointed
  | array length element ih =>
    refine assignments_call (by decide) (by decide) ?_ spelled
    simp only [List.mem_cons, List.not_mem_nil, or_false, forall_eq_or_imp, forall_eq]
    refine ⟨fun node numeral => ?_, fun node => ih⟩
    cases numeral <;> rfl

/-- There are no assignments in the name of a type. -/
theorem assignments_of_typeName {types : Registry} {ty : Ty}
    (named : node.typeName types = .ok ty) : node.assignments = [] :=
  (Node.respells_of_typeName named).2.assignments_type

end Node

/-! ## Assignments that are carried out -/

/-- The task is an assignment that succeeds, and the code has its store. Behind the code that was
there stands the code of the target, which answers the address; behind that the code of the value;
and then the store of that value to that address, and with it the assignment ends. -/
inductive Task.Assigns (code : List (ValueId × Instruction)) : Task → ValueId × Instruction → Prop
  | assign {items : List Node} {span : Span} {request : Request} {target value : Node}
      {unit located evaluated later : CompilationUnit} {place source result : TypedValue}
      {stored : Ty} {id : ValueId} {targetCode valueCode : List (ValueId × Instruction)}
      (calls : Node.Calls items "setf" [target, value])
      (locates : (target.resolve .core (request.nested true)).outcome unit = (.ok place, located))
      (pointer : place.ty = .pointerTo stored)
      (reads : (value.resolve .core (request.nested false (some stored))).outcome located =
        (.ok source, evaluated))
      (succeeds : ((Node.list items span).resolve .core request).outcome unit = (.ok result, later))
      (first : located.module.instructions request.block =
        unit.module.instructions request.block ++ targetCode)
      (second : evaluated.module.instructions request.block =
        located.module.instructions request.block ++ valueCode)
      (last : later.module.instructions request.block =
        evaluated.module.instructions request.block ++ [(id, .store source.value place.value)])
      (within : later.module.instructions request.block <+: code)
      (answers : result.Assigned request.address stored source.value place.value) :
      Assigns code ⟨.list items span, request, unit⟩ (id, .store source.value place.value)

theorem Task.Assigns.mono {code more : List (ValueId × Instruction)} {task : Task}
    {store : ValueId × Instruction} (h : task.Assigns code store) (le : code <+: more) :
    task.Assigns more store := by
  cases h with
  | assign calls locates pointer reads succeeds first second last within answers =>
    exact .assign calls locates pointer reads succeeds first second last (within.trans le) answers

theorem Task.block_of_reached {task part : Task} (path : Relation.ReflTransGen Asks task part) :
    part.request.block = task.request.block := by
  induction path with
  | refl => rfl
  | tail _ asks ih =>
    refine Eq.trans ?_ ih
    cases asks with
    | assign _ asked => cases asked <;> rfl
    | field | addressOf | dereference => rfl

namespace CompilationUnit

/-- The code that the block gains until the later unit has one store for each of the nodes, in their
order, and each is the store of an assignment that is asked. -/
def Carries (unit later : CompilationUnit) (block : BlockId) (asked : Task → Prop)
    (nodes : List Node) : Prop :=
  ∃ code tasks, later.module.instructions block = unit.module.instructions block ++ code ∧
    tasks.map Task.node = nodes ∧ (∀ task ∈ tasks, asked task) ∧
    List.Forall₂ (Task.Assigns (later.module.instructions block)) tasks
      (code.filter (·.2.isStore))

variable {unit mid later : CompilationUnit} {block : BlockId} {asked wider : Task → Prop}
  {nodes others : List Node}

theorem Carries.mono (h : unit.Carries later block asked nodes)
    (imp : ∀ task, asked task → wider task) : unit.Carries later block wider nodes := by
  obtain ⟨code, tasks, gained, same, here, assigns⟩ := h
  exact ⟨code, tasks, gained, same, fun task mem => imp task (here task mem), assigns⟩

theorem Carries.trans (first : unit.Carries mid block asked nodes)
    (rest : mid.Carries later block asked others) :
    unit.Carries later block asked (nodes ++ others) := by
  obtain ⟨code, tasks, gained, rfl, here, assigns⟩ := first
  obtain ⟨code', tasks', gained', rfl, here', assigns'⟩ := rest
  refine ⟨code ++ code', tasks ++ tasks', ?_, List.map_append, ?_, ?_⟩
  · rw [gained', gained, List.append_assoc]
  · exact fun task mem => (List.mem_append.mp mem).elim (here task) (here' task)
  · rw [List.filter_append]
    refine List.rel_append (assigns.imp fun task store h => h.mono ?_) assigns'
    exact gained' ▸ List.prefix_append _ _

/-- Changes without stores carry out no assignment. -/
theorem carries_of_changes (reachable : Reachable unit) (reachable' : Reachable later)
    (h : Changes False unit later) : unit.Carries later block asked [] := by
  obtain ⟨code, gained, new⟩ := reachable.linked.builder.module.instructions_gained
    reachable'.linked.builder.module h.grows block
  refine ⟨code, [], gained, rfl, nofun, ?_⟩
  have none : code.filter (·.2.isStore) = [] := by
    rw [List.filter_eq_nil_iff]
    rintro ⟨id, instruction⟩ mem store
    obtain ⟨hold, ty, hv⟩ := new id instruction mem
    rcases h.not_isStore hv with old | other
    · cases hold.symm.trans old
    · cases store.symm.trans other
  rw [none]
  exact .nil

end CompilationUnit

/-- What an evaluation leaves is reachable, and has the block. -/
theorem Reachable.resolve {unit later : CompilationUnit} (reachable : Reachable unit) {node : Node}
    {request : Request} {answer : Except FormError TypedValue}
    (ended : (node.resolve .core request).outcome unit = (answer, later))
    (hasBlock : unit.HasBlock request.block) :
    Reachable later ∧ later.HasBlock request.block := by
  have left : ((node.resolve .core request).outcome unit).2 = later := congrArg Prod.snd ended
  subst left
  exact ⟨.perform (.evaluate (.any node) request) reachable hasBlock,
    (node.accounts_resolve request unit).1.hasBlock hasBlock⟩

section Forms

variable {first second : Operand} {request : Request} {unit later : CompilationUnit}
  {result : TypedValue}

/-- A field reference that succeeds locates its base, and the rest stores nothing. -/
theorem Operand.of_field
    (ended : (FormM.resolveField first second request).outcome unit = (.ok result, later)) :
    ∃ name place mid, second.node.fieldName = .ok name ∧
      (first.resolve (request.nested true)).outcome unit = (.ok place, mid) ∧
      Changes False mid later := by
  rw [FormM.resolveField_eq] at ended
  obtain ⟨name, _, checked, ended⟩ := FormM.of_bind ended
  obtain ⟨hname, rfl⟩ := FormM.of_check checked
  obtain ⟨place, mid, located, ended⟩ := FormM.of_bind ended
  refine ⟨name, place, mid, hname, located,
    FormM.Makes.changes (.bind (.position _) fun _ => ?_) ended⟩
  split
  · exact .fail _ _
  · exact .bind (.follow _ _) fun _ => .fieldAt _ _ _ _ _ _

/-- An address that is taken is the one of the operand, in value mode. -/
theorem Operand.of_addressOf {span : Span}
    (ended : (Form.addressOf span [first] request).outcome unit = (.ok result, later)) :
    request.address = false ∧ ∃ inner mid,
      (first.resolve (request.nested false)).outcome unit = (.ok inner, mid) ∧
      Changes False mid later := by
  unfold Form.addressOf at ended
  dsimp only at ended
  split at ended
  · cases ended
  · rename_i mode
    obtain ⟨inner, mid, resolved, ended⟩ := FormM.of_bind ended
    refine ⟨by simpa using mode, inner, mid, resolved, ?_⟩
    split at ended <;> cases ended
    exact .refl

theorem Operand.of_dereference {span : Span}
    (ended : (Form.dereference span [first] request).outcome unit = (.ok result, later)) :
    ∃ inner mid, (first.resolve (request.nested false)).outcome unit = (.ok inner, mid) ∧
      Changes False mid later := by
  obtain ⟨inner, mid, resolved, ended⟩ := FormM.of_bind ended
  refine ⟨inner, mid, resolved, ?_⟩
  split at ended
  · cases ended
  · split at ended
    · cases ended
      exact .refl
    · exact FormM.Makes.changes (.bind (.position _) fun _ => .access _ _ _) ended

theorem Operand.of_measuring {query : Registry → Target → Ty → LayoutM Nat} {span : Span}
    (ended : (Form.measuring query span [first] request).outcome unit = (.ok result, later)) :
    ∃ ty, first.node.typeName unit.types = .ok ty := by
  obtain ⟨ty, _, parsed, -⟩ := FormM.of_bind ended
  exact ⟨ty, (FormM.of_check parsed).1⟩

theorem Operand.of_offsetOf {span : Span}
    (ended : (Form.offsetOf span [first, second] request).outcome unit = (.ok result, later)) :
    ∃ ty name, first.node.typeName unit.types = .ok ty ∧ second.node.fieldName = .ok name := by
  obtain ⟨ty, _, parsed, ended⟩ := FormM.of_bind ended
  split at ended
  · cases ended
  · obtain ⟨name, _, checked, -⟩ := FormM.of_bind ended
    exact ⟨ty, name, (FormM.of_check parsed).1, (FormM.of_check checked).1⟩

end Forms

namespace CompilationUnit

variable {unit later : CompilationUnit}

/-- A store is the last of the code of its block. -/
theorem instructions_storing (reachable : Reachable unit) {block : BlockId}
    (hasBlock : unit.HasBlock block) (source place : TypedValue) :
    (unit.storing block source place).module.instructions block =
      unit.module.instructions block ++
        [(unit.builder.nextValue, .store source.value place.value)] := by
  have wellFormed : (unit.builder.position block).module.WellFormed :=
    reachable.linked.builder.module
  rw [module_storing]
  exact Builder.instructions_pushInstruction wellFormed rfl hasBlock _ _

/-- What an assignment carries out is what its target and its value do, and then itself. -/
theorem Carries.assign {located evaluated : CompilationUnit} {items : List Node} {span : Span}
    {request : Request} {target value : Node} {place source result : TypedValue} {stored : Ty}
    {asked : Task → Prop} {nodes others : List Node}
    (succeeds : ((Node.list items span).resolve .core request).outcome unit =
      (.ok result, evaluated.storing request.block source place))
    (calls : Node.Calls items "setf" [target, value])
    (locates : (target.resolve .core (request.nested true)).outcome unit = (.ok place, located))
    (pointer : place.ty = .pointerTo stored)
    (reads : (value.resolve .core (request.nested false (some stored))).outcome located =
      (.ok source, evaluated))
    (answers : result.Assigned request.address stored source.value place.value)
    (reachable : Reachable evaluated) (hasBlock : evaluated.HasBlock request.block)
    (here : asked ⟨.list items span, request, unit⟩)
    (first : unit.Carries located request.block asked nodes)
    (second : located.Carries evaluated request.block asked others) :
    unit.Carries (evaluated.storing request.block source place) request.block asked
      (nodes ++ others ++ [.list items span]) := by
  have last := instructions_storing reachable hasBlock source place
  obtain ⟨targetCode, -, gained, -⟩ := id first
  obtain ⟨valueCode, -, gained', -⟩ := id second
  have assigns := Task.Assigns.assign calls locates pointer reads succeeds gained gained' last
    List.prefix_rfl answers
  have carried : evaluated.Carries (evaluated.storing request.block source place) request.block
      asked [.list items span] :=
    ⟨_, [_], last, rfl, by simpa using here, .cons assigns .nil⟩
  exact (first.trans second).trans carried

/-- The code of an evaluation that succeeds carries out the assignments of its node. -/
theorem carries_resolve (node : Node) : ∀ (request : Request) (unit later : CompilationUnit)
    (result : TypedValue), Reachable unit → unit.HasBlock request.block →
    (node.resolve .core request).outcome unit = (.ok result, later) →
    unit.Carries later request.block (Relation.ReflTransGen Task.Asks ⟨node, request, unit⟩)
      node.assignments := by
  intro request
  refine Node.core_induction (P := fun node request action => node.resolve .core request = action →
      ∀ unit later result, Reachable unit → unit.HasBlock request.block →
        action.outcome unit = (.ok result, later) →
        unit.Carries later request.block (Relation.ReflTransGen Task.Asks ⟨node, request, unit⟩)
          node.assignments) ?_ ?_ ?_ node request rfl
  · intro token request same unit later result reachable hasBlock ended
    exact carries_of_changes reachable (reachable.resolve (same ▸ ended) hasBlock).1
      ((token.makes_resolve request).changes ended)
  · intro items span request fault _ unit later result _ _ ended
    obtain ⟨_, _, _, ended⟩ := FormM.of_bind ended
    cases ended
  intro items span request name args viaCore action calls application ih same unit later result
    reachable hasBlock ended
  have whole := ended
  rw [← same] at whole
  have reachable' := (reachable.resolve whole hasBlock).1
  obtain ⟨_, _, positioned, ended⟩ := FormM.of_bind ended
  cases positioned
  -- a part is asked at the unit itself, and evaluated with the insertion point in place
  have done {part : Node} {nested : Request} {start mid : CompilationUnit} {answer : TypedValue}
      (asks : Task.Asks ⟨.list items span, request, unit⟩ ⟨part, nested, start⟩) (mem : part ∈ args)
      (block : nested.block = request.block) (known : Reachable start)
      (hasBlock : start.HasBlock request.block)
      (ended : (part.resolve .core nested).outcome start = (.ok answer, mid)) :
      start.Carries mid request.block
        (Relation.ReflTransGen Task.Asks ⟨.list items span, request, unit⟩) part.assignments := by
    rw [← block] at hasBlock ⊢
    exact (ih part mem nested rfl start mid answer known hasBlock ended).mono
      fun _ path => .head asks path
  -- a form with one such part, whose own code stores nothing
  have only {part : Node} {nested : Request} {mid : CompilationUnit} {answer : TypedValue}
      (asks : Task.Asks ⟨.list items span, request, unit⟩ ⟨part, nested, unit⟩) (mem : part ∈ args)
      (block : nested.block = request.block)
      (ended : (part.resolve .core nested).outcome (unit.positioned request.block) =
        (.ok answer, mid)) (rest : Changes False mid later) :
      unit.Carries later request.block
        (Relation.ReflTransGen Task.Asks ⟨.list items span, request, unit⟩) part.assignments := by
    rw [← block, ← part.outcome_resolve] at ended
    have known := reachable.resolve ended (block ▸ hasBlock)
    have carried := (done asks mem block reachable hasBlock ended).trans
      (carries_of_changes known.1 reachable' rest)
    rwa [List.append_nil] at carried
  -- a form that evaluates none of its arguments
  have silent (changes : Changes False (unit.positioned request.block) later) :
      unit.Carries later request.block
        (Relation.ReflTransGen Task.Asks ⟨.list items span, request, unit⟩) [] :=
    carries_of_changes reachable reachable' (.head (.edit (.position request.block)) changes)
  rw [calls.assignments span]
  cases application with
  | refused fault => cases ended
  | field base field =>
    obtain ⟨name, place, mid, hname, located, rest⟩ := Operand.of_field ended
    have plain : field.assignments = [] := Node.assignments_of_fieldName hname
    have carried := only (.field calls hname) (by simp) rfl located rest
    simpa [Node.assignmentsIn, plain] using carried
  | assign target value =>
    obtain ⟨place, stored, located, source, evaluated, locates, pointer, reads, rfl, answers⟩ :=
      Operand.of_assign ended
    change (target.resolve .core (request.nested true)).outcome
      (unit.positioned (request.nested true).block) = _ at locates
    rw [← target.outcome_resolve] at locates
    obtain ⟨known, hasBlock'⟩ := reachable.resolve locates hasBlock
    obtain ⟨known', hasBlock''⟩ := known.resolve reads hasBlock'
    have carried := Carries.assign whole calls locates pointer reads answers known' hasBlock'' .refl
      (done (.assign calls .target) (by simp) rfl reachable hasBlock locates)
      (done (.assign calls (.value locates pointer)) (by simp) rfl known hasBlock' reads)
    simpa [Node.assignmentsIn] using carried
  | addressOf operand =>
    obtain ⟨mode, inner, mid, resolved, rest⟩ := Operand.of_addressOf ended
    simpa [Node.assignmentsIn] using only (.addressOf calls mode) (by simp) rfl resolved rest
  | dereference operand =>
    obtain ⟨inner, mid, resolved, rest⟩ := Operand.of_dereference ended
    simpa [Node.assignmentsIn] using only (.dereference calls) (by simp) rfl resolved rest
  | alignmentOf operand =>
    obtain ⟨ty, named⟩ := Operand.of_measuring ended
    have plain : operand.assignments = [] := Node.assignments_of_typeName named
    have carried := silent ((Operand.makes_measuring .alignment).changes ended)
    simpa [Node.assignmentsIn, plain] using carried
  | sizeOf operand =>
    obtain ⟨ty, named⟩ := Operand.of_measuring ended
    have plain : operand.assignments = [] := Node.assignments_of_typeName named
    have carried := silent ((Operand.makes_measuring .size).changes ended)
    simpa [Node.assignmentsIn, plain] using carried
  | offsetOf struct field =>
    obtain ⟨ty, name, named, hname⟩ := Operand.of_offsetOf ended
    have plain : struct.assignments = [] := Node.assignments_of_typeName named
    have plain' : field.assignments = [] := Node.assignments_of_fieldName hname
    have carried := silent (Operand.makes_offsetOf.changes ended)
    simpa [Node.assignmentsIn, plain, plain'] using carried

/-- One store for each assignment. The code that an evaluation gains when it succeeds, all in the
block of the request, has as many stores as the node has assignments, in the order of the
assignments; and each of them is the last instruction of its assignment, behind the code of the
target and then that of the value, and writes the answer of the value to the answer of the
target. -/
theorem one_store_per_assignment (reachable : Reachable unit) (node : Node) (request : Request)
    (hasBlock : unit.HasBlock request.block) {result : TypedValue}
    (succeeded : (node.resolve .core request).outcome unit = (.ok result, later)) :
    ∃ code tasks,
      later.module.instructions request.block = unit.module.instructions request.block ++ code ∧
      (∀ other, other ≠ request.block →
        later.module.instructions other = unit.module.instructions other) ∧
      (code.filter (·.2.isStore)).length = node.assignments.length ∧
      tasks.map Task.node = node.assignments ∧
      (∀ task ∈ tasks, task.request.block = request.block ∧
        Relation.ReflTransGen Task.Asks ⟨node, request, unit⟩ task) ∧
      List.Forall₂ (Task.Assigns (later.module.instructions request.block)) tasks
        (code.filter (·.2.isStore)) := by
  obtain ⟨code, tasks, gained, nodes, asked, assigns⟩ :=
    carries_resolve node request unit later result reachable hasBlock succeeded
  have appends := appends_resolve reachable node hasBlock
  have grows := (node.accounts_resolve request unit).1
  rw [succeeded] at appends grows
  refine ⟨code, tasks, gained, fun other differ => ?_, ?_, nodes, fun task mem => ?_, assigns⟩
  · exact reachable.linked.builder.module.instructions_same grows (appends.elsewhere differ)
  · rw [← assigns.length_eq, ← nodes, List.length_map]
  · exact ⟨Task.block_of_reached (asked task mem), asked task mem⟩

/-- A routine with two integers. -/
def twoInts : CompilationUnit :=
  (((new "m" .x86_64 0).perform (.enterFunction "f")).perform
    (.declareLocal "x" (.primitive .int))).perform (.declareLocal "y" (.primitive .int))

theorem reachable_twoInts : Reachable twoInts :=
  .perform _ (.perform _ (.perform _ (.new "m" .x86_64 0) trivial) trivial) trivial

/-- The node `(core setf y 1)`. -/
def assignedOne : Node :=
  .list [.symbol "core", .symbol "setf", .symbol "y", .atom ⟨.integer, "1", .dummy⟩] .dummy

/-- The node `(setf x (core setf y 1))`. -/
def assignedTwice : Node := .list [.symbol "setf", .symbol "x", assignedOne] .dummy

/-- The inner assignment stores first. -/
theorem nested_assignments_store :
    let ended := (assignedTwice.resolve .core { block := ⟨0⟩ }).outcome twoInts
    ended.1 = .ok ⟨⟨0⟩, ⟨2⟩, .primitive .int, some ⟨⟨0⟩, .pointerTo (.primitive .int)⟩⟩ ∧
      ∃ tasks, tasks.map Task.node = [assignedOne, assignedTwice] ∧
        List.Forall₂ (Task.Assigns (ended.2.module.instructions ⟨0⟩)) tasks
          [(⟨3⟩, .store ⟨2⟩ ⟨1⟩), (⟨4⟩, .store ⟨2⟩ ⟨0⟩)] := by
  intro ended
  have succeeded : ended.1 =
      .ok ⟨⟨0⟩, ⟨2⟩, .primitive .int, some ⟨⟨0⟩, .pointerTo (.primitive .int)⟩⟩ := by rfl
  obtain ⟨code, tasks, gained, -, -, nodes, -, assigns⟩ := one_store_per_assignment
    reachable_twoInts assignedTwice { block := ⟨0⟩ } rfl (Prod.ext succeeded rfl)
  have stores : ended.2.module.instructions ⟨0⟩ = twoInts.module.instructions ⟨0⟩ ++
      [(⟨3⟩, .store ⟨2⟩ ⟨1⟩), (⟨4⟩, .store ⟨2⟩ ⟨0⟩)] := by rfl
  obtain rfl : code = [(⟨3⟩, .store ⟨2⟩ ⟨1⟩), (⟨4⟩, .store ⟨2⟩ ⟨0⟩)] :=
    List.append_cancel_left (gained.symm.trans stores)
  exact ⟨succeeded, tasks, nodes, assigns⟩

/-- In address mode an assignment does not answer a value of the stored type. -/
theorem assigned_address_typed : ¬ ∀ (unit located later : CompilationUnit) (items : List Node)
    (span : Span) (request : Request) (target value : Node) (place result : TypedValue)
    (stored : Ty), Reachable unit → unit.HasBlock request.block →
    Node.Calls items "setf" [target, value] →
    (target.resolve .core (request.nested true)).outcome unit = (.ok place, located) →
    place.ty = .pointerTo stored →
    ((Node.list items span).resolve .core request).outcome unit = (.ok result, later) →
    result.ty = stored := by
  intro claim
  let three : Node := .atom ⟨.integer, "3", .dummy⟩
  have typed := claim twoInts _ _ [.symbol "setf", .symbol "x", three] .dummy
    { block := ⟨0⟩, address := true } (.symbol "x") three _ _ _ reachable_twoInts rfl
    (.plain rfl (by decide)) rfl rfl rfl
  cases typed

end CompilationUnit
end FormLowering
