import Mathlib.Data.Option.Basic
import FormLowering.Proofs.Form.Change
import FormLowering.Proofs.Ty.Same

/-!
What an answer depends on. Two units may differ in their code, reports, limits, memos and generated
names; as long as they agree on the target, on the registered types and on the types of all other
names, a node that mentions no generated name gets the same answer from both.
-/

namespace FormLowering

namespace CompilationUnit

/-- The units agree on all that an answer depends on. -/
structure Alike (unit other : CompilationUnit) : Prop where
  target : unit.target = other.target
  types : unit.types.Same other.types
  /-- A name that is not of the generated form is a variable of one type in both, or in neither. -/
  names : ∀ name, isGenerated name = false →
    (unit.lookup? name).map (·.ty) = (other.lookup? name).map (·.ty)
  settled : unit.Settled
  settled' : other.Settled

variable {unit other later later' : CompilationUnit}

theorem Alike.changes (h : unit.Alike other) (changes : Changes True unit later)
    (changes' : Changes True other later') : later.Alike later' where
  target := by rw [changes.target, changes'.target, h.target]
  types := by
    rw [changes.types, changes'.types]
    exact h.types
  names name plain := by rw [changes.lookup plain, changes'.lookup plain, h.names name plain]
  settled := changes.settled h.settled
  settled' := changes'.settled h.settled'

end CompilationUnit

/-- Both succeed with related results, or both fail with the same fault at the same place. -/
inductive Coincide {α β : Type} (R : α → β → Prop) : Except FormError α → Except FormError β → Prop
  | ok {a : α} {b : β} : R a b → Coincide R (.ok a) (.ok b)
  | error (error : FormError) : Coincide R (.error error) (.error error)

/-- The results have one type, and both or neither have a place, of one type too. -/
structure TypedValue.Same (a b : TypedValue) : Prop where
  ty : a.ty = b.ty
  place : a.place?.map (·.ty) = b.place?.map (·.ty)

theorem TypedValue.Same.isLvalue {a b : TypedValue} (h : a.Same b) : a.isLvalue = b.isLvalue := by
  simpa [TypedValue.isLvalue] using congrArg Option.isSome h.place

/-- The request with another block. -/
def Request.at (request : Request) (block : BlockId) : Request := { request with block }

namespace FormM

variable {α β γ δ : Type} {R : α → β → Prop} {S : γ → δ → Prop}

/-- From units that are alike, the operations have answers that agree. -/
def Parallel (R : α → β → Prop) (left : FormM α) (right : FormM β) : Prop :=
  ∀ unit other : CompilationUnit, unit.Alike other →
    Coincide R (left.outcome unit).1 (right.outcome other).1

namespace Parallel

theorem pure {a : α} {b : β} (h : R a b) : Parallel R (pure a) (pure b) :=
  fun _ _ _ => .ok h

theorem check (answer : Except FormError α) : Parallel Eq (check answer) (check answer) := by
  intro unit other _
  cases answer with
  | ok a => exact .ok rfl
  | error error => exact .error error

theorem fail (fault : FormFault) (span : Span) :
    Parallel R (fail fault span) (fail fault span) :=
  fun _ _ _ => .error _

theorem ite {condition : Prop} [Decidable condition] {left left' : FormM α} {right right' : FormM β}
    (yes : condition → Parallel R left right) (no : ¬condition → Parallel R left' right') :
    Parallel R (if condition then left else left') (if condition then right else right') := by
  by_cases h : condition
  · rw [if_pos h, if_pos h]
    exact yes h
  · rw [if_neg h, if_neg h]
    exact no h

/-- Operations in parallel leave units that are alike, as long as they only make changes. -/
theorem bind {left : FormM α} {right : FormM β} {next : α → FormM γ} {next' : β → FormM δ}
    (first : Parallel R left right) (makes : Makes True left) (makes' : Makes True right)
    (rest : ∀ a b, R a b → Parallel S (next a) (next' b)) :
    Parallel S (left >>= next) (right >>= next') := by
  intro unit other alike
  rw [outcome_bind, outcome_bind]
  have answers := first unit other alike
  have alike := alike.changes (makes unit) (makes' other)
  revert answers alike
  rcases left.outcome unit with ⟨answer, later⟩
  rcases right.outcome other with ⟨answer', later'⟩
  intro answers alike
  cases answers with
  | ok related => exact rest _ _ related _ _ alike
  | error error => exact .error error

theorem bind_get {next : CompilationUnit → FormM α} {next' : CompilationUnit → FormM β}
    (rest : ∀ unit other, unit.Alike other → Parallel R (next unit) (next' other)) :
    Parallel R (get >>= next) (get >>= next') := by
  intro unit other alike
  rw [outcome_bind, outcome_bind, outcome_get, outcome_get]
  exact rest unit other alike unit other alike

theorem bind_check {answer : Except FormError α} {next : α → FormM γ} {next' : α → FormM δ}
    (rest : ∀ a, answer = .ok a → Parallel S (next a) (next' a)) :
    Parallel S (FormM.check answer >>= next) (FormM.check answer >>= next') := by
  cases answer with
  | ok a => exact rest a rfl
  | error error => exact fun _ _ _ => .error error

/-- What is emitted does not matter. -/
theorem bind_build {operation : Builder → α × Builder} {operation' : Builder → β × Builder}
    {next : α → FormM γ} {next' : β → FormM δ} (makes : Makes True (build operation))
    (makes' : Makes True (build operation'))
    (rest : ∀ a b, Parallel S (next a) (next' b)) :
    Parallel S (build operation >>= next) (build operation' >>= next') :=
  .bind (R := fun _ _ => True) (fun _ _ _ => .ok trivial) makes makes' fun a b _ => rest a b

theorem bind_position {block block' : BlockId} {next : Unit → FormM γ} {next' : Unit → FormM δ}
    (rest : Parallel S (next ()) (next' ())) :
    Parallel S (FormM.position block >>= next) (FormM.position block' >>= next') :=
  .bind_build (.position block) (.position block') fun _ _ => rest

/-- A memo that is settled answers as a walk without a memo, and so does another one. -/
theorem measure (query : LayoutQuery) :
    Parallel Eq (measure fun types target => query.run types target)
      (measure fun types target => query.run types target) := by
  intro unit other alike
  have left := LayoutSession.Settled.answer alike.settled query
  have right := LayoutSession.Settled.answer alike.settled' query
  have same : query.direct unit.types unit.target = query.direct other.types other.target := by
    rw [alike.target, alike.types.direct]
  exact .ok (left.trans (same.trans right.symm))

theorem attempt {left : FormM α} {right : FormM β} (h : Parallel R left right) :
    Parallel (Coincide R) (attempt left) (attempt right) := by
  intro unit other alike
  rw [outcome_attempt, outcome_attempt]
  have answers := h unit other alike
  revert answers
  rcases left.outcome unit with ⟨answer, later⟩
  rcases right.outcome other with ⟨answer', later'⟩
  intro answers
  cases answers with
  | ok related => exact .ok (.ok related)
  | error error => exact .ok (.error error)

/-- A string is stored under some name in both. -/
theorem storeString (text : String) (span : Span) :
    Parallel (fun _ _ => True) (storeString text span) (storeString text span) := by
  intro unit other _
  obtain ⟨added, _, stored⟩ := outcome_storeString text span unit
  obtain ⟨added', _, stored'⟩ := outcome_storeString text span other
  rw [stored, stored']
  exact .ok trivial

end Parallel
end FormM

open FormM (Parallel Makes)

section Parts

variable (request : Request) (block : BlockId)

theorem FormM.parallel_constant (ty : Ty) (value : Constant) :
    Parallel TypedValue.Same (FormM.constant request ty value)
      (FormM.constant (request.at block) ty value) :=
  .bind_build (.build (.constant ty value) fun _ => rfl) (.build (.constant ty value) fun _ => rfl)
    fun _ _ => .pure ⟨rfl, rfl⟩

theorem FormM.parallel_access (address address' : ValueId) (stored : Ty) :
    Parallel TypedValue.Same (FormM.access address stored request)
      (FormM.access address' stored (request.at block)) := by
  refine .ite (fun _ => .pure ⟨rfl, rfl⟩) fun _ => ?_
  cases stored.element? with
  | some element => exact .bind_build (.gep _ _ _) (.gep _ _ _) fun _ _ => .pure ⟨rfl, rfl⟩
  | none => exact .bind_build (.load _) (.load _) fun _ _ => .pure ⟨rfl, rfl⟩

/-- Following a base leads to the same type from both. -/
theorem FormM.parallel_follow {place place' : TypedValue} (outer : Ty) :
    Parallel (fun record record' => record.2 = record'.2) (FormM.follow place outer)
      (FormM.follow place' outer) := by
  simp only [FormM.follow]
  cases outer.pointee? with
  | some inner => exact .bind_build (.load _) (.load _) fun _ _ => .pure rfl
  | none => exact .pure rfl

theorem FormM.parallel_fieldAt (address address' : ValueId) (record : Ty) (name : String)
    (base field : Span) :
    Parallel TypedValue.Same (FormM.fieldAt address record name base field request)
      (FormM.fieldAt address' record name base field (request.at block)) := by
  refine .bind_get fun unit other alike => ?_
  rw [alike.types.fieldIn]
  refine .bind_check fun found _ => .bind_build (.gep _ _ _) (.gep _ _ _) fun _ _ => ?_
  exact FormM.parallel_access request block _ _ found.2

theorem FormM.parallel_parseType (node : Node) :
    Parallel Eq (FormM.parseType node) (FormM.parseType node) := by
  refine .bind_get fun unit other alike => ?_
  rw [alike.types.typeName]
  exact .check _

theorem FormM.parallel_measured (ty : Ty) (span : Span) (query : LayoutQuery) :
    Parallel TypedValue.Same
      (FormM.measured request ty span fun types target => query.run types target)
      (FormM.measured (request.at block) ty span fun types target => query.run types target) := by
  refine .bind (.measure query) (.measure query) (.measure query) ?_
  rintro answer _ rfl
  cases answer with
  | error error => exact .fail _ _
  | ok n =>
    refine .bind_get fun unit other alike => ?_
    rw [alike.target]
    exact .ite (fun _ => FormM.parallel_constant request block _ _) fun _ => .fail _ _

end Parts

section Tokens

variable (token : Token) (request : Request) (block : BlockId)

theorem Token.parallel_integer :
    Parallel TypedValue.Same (token.integer request) (token.integer (request.at block)) := by
  refine .bind_get fun unit other alike => ?_
  rw [alike.target]
  simp only [Request.at]
  cases integerValue? other.target (integerKind request.wanted?) token.text with
  | some value => exact FormM.parallel_constant request block _ _
  | none => exact .fail _ _

theorem Token.parallel_floating :
    Parallel TypedValue.Same (token.floating request) (token.floating (request.at block)) := by
  simp only [Token.floating, Request.at]
  cases readFloat? token.text with
  | some value => exact FormM.parallel_constant request block _ _
  | none => exact .fail _ _

theorem Token.parallel_enumLiteral (enum : EnumDef) :
    Parallel TypedValue.Same (token.enumLiteral enum request)
      (token.enumLiteral enum (request.at block)) := by
  refine .bind_check fun value _ => .bind_get fun unit other alike => ?_
  rw [alike.target]
  exact FormM.parallel_constant request block _ _

theorem Token.parallel_speculate :
    Parallel (Option.Rel TypedValue.Same) (token.speculate request)
      (token.speculate (request.at block)) := by
  refine .bind_get fun unit other alike => ?_
  have same : wantedEnum? unit.types request = wantedEnum? other.types (request.at block) := by
    simp only [wantedEnum?, Request.at]
    congr 1
    funext name
    exact alike.types.enum name
  rw [same]
  cases wantedEnum? other.types (request.at block) with
  | none => exact .pure .none
  | some enum =>
    have makes (request : Request) : Makes True (token.enumLiteral enum request) :=
      .bind (.check _) fun _ => .bind .get fun _ => .constant _ _ _
    refine .bind (token.parallel_enumLiteral request block enum).attempt (.attempt (makes _))
      (.attempt (makes _)) fun answer answer' agrees => .pure ?_
    cases agrees with
    | ok same => exact .some same
    | error error => exact .none

theorem Token.parallel_identifier (plain : CompilationUnit.isGenerated token.text = false) :
    Parallel TypedValue.Same (token.identifier request) (token.identifier (request.at block)) := by
  refine .bind_check fun named _ => ?_
  cases named with
  | some constant => exact FormM.parallel_constant request block _ _
  | none =>
    refine .bind_get fun unit other alike => ?_
    have same := alike.names token.text plain
    cases found : unit.lookup? token.text with
    | none =>
      rw [found, Option.map_none, eq_comm, Option.map_eq_none_iff] at same
      rw [same]
      exact .fail _ _
    | some x =>
      rw [found, Option.map_some, eq_comm, Option.map_eq_some_iff] at same
      obtain ⟨y, found', sameTy⟩ := same
      rw [found']
      dsimp only
      rw [sameTy]
      exact FormM.parallel_access request block _ _ x.ty

theorem Token.parallel_storedString :
    Parallel TypedValue.Same (token.storedString request)
      (token.storedString (request.at block)) :=
  .bind (.storeString _ _) (.storeString _ _) (.storeString _ _) fun _ _ _ =>
    .bind_build (.gep _ _ _) (.gep _ _ _) fun _ _ => .pure ⟨rfl, rfl⟩

theorem Token.parallel_string :
    Parallel TypedValue.Same (token.string request) (token.string (request.at block)) := by
  rw [Token.string_eq, Token.string_eq]
  have stored := token.parallel_storedString request block
  rw [show (request.at block).wanted? = request.wanted? from rfl]
  cases request.wanted? with
  | none => exact stored
  | some wanted =>
    cases takesString (some wanted) with
    | true => exact stored
    | false => exact .fail _ _

theorem Token.parallel_resolve
    (plain : token.kind = .identifier → CompilationUnit.isGenerated token.text = false) :
    Parallel TypedValue.Same (token.resolve request) (token.resolve (request.at block)) := by
  refine .bind_position ?_
  cases kind : token.kind with
  | integer => exact token.parallel_integer request block
  | floating => exact token.parallel_floating request block
  | identifier =>
    refine .bind (token.parallel_speculate request block) (token.makes_speculate _)
      (token.makes_speculate _) fun found found' related => ?_
    cases related with
    | some same => exact .pure same
    | none => exact token.parallel_identifier request block (plain kind)
  | string =>
    refine .bind (token.parallel_speculate request block) (token.makes_speculate _)
      (token.makes_speculate _) fun found found' related => ?_
    cases related with
    | some same => exact .pure same
    | none => exact token.parallel_string request block

end Tokens

/-! ## Forms -/

/-- Wherever it is evaluated, the operand only makes changes, and units that are alike have answers
that agree. -/
structure Operand.Uniform (operand : Operand) : Prop where
  makes : ∀ request, Makes True (operand.resolve request)
  parallel : ∀ request block, Parallel TypedValue.Same (operand.resolve request)
    (operand.resolve (request.at block))

/-- The form has answers that agree, as long as its operands do. -/
def Form.Uniform (form : Form) : Prop :=
  ∀ (span : Span) (args : List Operand), (∀ operand ∈ args, operand.Uniform) →
    ∀ request block, Parallel TypedValue.Same (form span args request)
      (form span args (request.at block))

section Operands

variable {first second : Operand} (hf : first.Uniform) (request : Request) (block : BlockId)
include hf

theorem Operand.Uniform.nested (address : Bool) (wanted? : Option Ty) :
    Parallel TypedValue.Same (first.resolve (request.nested address wanted?))
      (first.resolve ((request.at block).nested address wanted?)) :=
  hf.parallel (request.nested address wanted?) block

theorem Operand.Uniform.resolveField :
    Parallel TypedValue.Same (FormM.resolveField first second request)
      (FormM.resolveField first second (request.at block)) := by
  rw [FormM.resolveField_eq, FormM.resolveField_eq]
  refine .bind_check fun name _ => .bind (hf.nested request block _ _) (hf.makes _) (hf.makes _)
    fun place place' same => .bind_position ?_
  rw [← same.ty]
  cases place.ty.pointee? with
  | none => exact .fail _ _
  | some outer =>
    refine .bind (FormM.parallel_follow outer) (.follow _ _) (.follow _ _) ?_
    intro record record' sameTy
    rw [← sameTy]
    exact FormM.parallel_fieldAt request block _ _ _ _ _ _

theorem Operand.Uniform.assign (hs : second.Uniform) :
    Parallel TypedValue.Same (FormM.assign first second request)
      (FormM.assign first second (request.at block)) := by
  refine .bind (hf.nested request block _ _) (hf.makes _) (hf.makes _) fun place place' same => ?_
  rw [← same.ty]
  split
  · refine .bind (hs.nested request block _ _) (hs.makes _) (hs.makes _) fun source source' same => ?_
    rw [← same.ty]
    refine .ite (fun _ => .bind_position ?_) fun _ => .fail _ _
    refine .bind_build (.build (.store trivial _ _) fun _ => rfl)
      (.build (.store trivial _ _) fun _ => rfl) fun _ _ => ?_
    exact .ite (fun _ => .pure ⟨rfl, rfl⟩) fun _ => .pure ⟨rfl, rfl⟩
  · exact .fail _ _

theorem Operand.Uniform.addressOf (span : Span) :
    Parallel TypedValue.Same (Form.addressOf span [first] request)
      (Form.addressOf span [first] (request.at block)) := by
  refine .ite (fun _ => .fail _ _) fun _ =>
    .bind (hf.nested request block _ _) (hf.makes _) (hf.makes _) fun inner inner' same => ?_
  have place := same.place
  cases found : inner.place? with
  | none =>
    rw [found, Option.map_none, eq_comm, Option.map_eq_none_iff] at place
    rw [place]
    exact .fail _ _
  | some here =>
    rw [found, Option.map_some, eq_comm, Option.map_eq_some_iff] at place
    obtain ⟨there, found', sameTy⟩ := place
    rw [found']
    exact .pure ⟨sameTy.symm, rfl⟩

theorem Operand.Uniform.dereference (span : Span) :
    Parallel TypedValue.Same (Form.dereference span [first] request)
      (Form.dereference span [first] (request.at block)) := by
  refine .bind (hf.nested request block _ _) (hf.makes _) (hf.makes _) fun inner inner' same => ?_
  rw [← same.ty]
  cases inner.ty.pointee? with
  | none => exact .fail _ _
  | some stored =>
    exact .ite (fun _ => .pure ⟨rfl, rfl⟩) fun _ =>
      .bind_position (FormM.parallel_access request block _ _ stored)

end Operands

section Arguments

variable {form : Form}

theorem Form.Uniform.of_one (takes : form.Takes 1)
    (one : ∀ (span : Span) (operand : Operand), operand.Uniform → ∀ request block,
      Parallel TypedValue.Same (form span [operand] request)
        (form span [operand] (request.at block))) : form.Uniform := by
  intro span args uniform request block
  by_cases h : args.length = 1
  · obtain ⟨operand, rfl⟩ := List.length_eq_one_iff.mp h
    exact one span operand (uniform operand (by simp)) request block
  · rw [takes _ _ _ h, takes _ _ _ h]
    exact .fail _ _

theorem Form.Uniform.of_two (takes : form.Takes 2)
    (two : ∀ (span : Span) (first second : Operand), first.Uniform → second.Uniform →
      ∀ request block, Parallel TypedValue.Same (form span [first, second] request)
        (form span [first, second] (request.at block))) : form.Uniform := by
  intro span args uniform request block
  by_cases h : args.length = 2
  · match args, h, uniform with
    | [first, second], _, uniform =>
      exact two span first second (uniform first (by simp)) (uniform second (by simp)) request block
  · rw [takes _ _ _ h, takes _ _ _ h]
    exact .fail _ _

end Arguments

theorem Form.uniform_measuring (query : Ty → LayoutQuery) :
    (Form.measuring fun types target ty => (query ty).run types target).Uniform := by
  refine .of_one (takes_measuring _) fun span operand _ request block => ?_
  refine .bind (FormM.parallel_parseType _) (.parseType _) (.parseType _) ?_
  rintro ty _ rfl
  exact FormM.parallel_measured request block ty _ (query ty)

theorem Form.uniform_offsetOf : Form.offsetOf.Uniform := by
  refine .of_two takes_offsetOf fun span struct field _ _ request block => ?_
  refine .bind (FormM.parallel_parseType _) (.parseType _) (.parseType _) ?_
  rintro ty _ rfl
  cases ty.structName? with
  | none => exact .fail _ _
  | some name =>
    refine .bind_check fun field _ => .bind_get fun unit other alike => ?_
    rw [alike.types.fieldIndex]
    cases other.types.fieldIndex ty name field with
    | error fault => exact .fail _ _
    | ok index => exact FormM.parallel_measured request block ty _ (.fieldOffset ty index)

theorem FormTable.BuiltIn.uniform {name : String} {form : Form} (h : BuiltIn name form) :
    form.Uniform := by
  cases h with
  | field =>
    exact .of_two Form.takes_field fun _ _ _ base _ request block => base.resolveField request block
  | assign =>
    exact .of_two Form.takes_assign fun _ _ _ target value request block =>
      target.assign request block value
  | addressOf =>
    exact .of_one Form.takes_addressOf fun span _ operand request block =>
      operand.addressOf request block span
  | dereference =>
    exact .of_one Form.takes_dereference fun span _ operand request block =>
      operand.dereference request block span
  | alignmentOf => exact Form.uniform_measuring .alignment
  | sizeOf => exact Form.uniform_measuring .size
  | offsetOf => exact Form.uniform_offsetOf

namespace FormTable

theorem uniform_apply (name : String) : (core.apply name).Uniform := by
  intro span args uniform request block
  simp only [apply]
  cases found : core.find? name with
  | none => exact .fail _ _
  | some form => exact (builtIn_of_find? found).uniform span args uniform request block

theorem uniform_dispatch : core.dispatch.Uniform := by
  intro span items uniform request block
  have applied (name : String) (args : List Operand) (subset : args ⊆ items) (viaCore : Bool) :
      Parallel TypedValue.Same (core.apply name span args { request with viaCore })
        (core.apply name span args { request.at block with viaCore }) :=
    uniform_apply name span args (fun operand mem => uniform operand (subset mem))
      { request with viaCore } block
  simp only [dispatch]
  split
  · exact .fail _ _
  · rename_i head args
    split
    · exact .fail _ _
    · exact .fail _ _
    · rename_i second others _
      split
      · exact applied _ _ (fun operand mem => by simp [mem]) true
      · exact .fail _ _
    · exact applied _ _ (fun operand mem => by simp [mem]) false

end FormTable

/-! ## Nodes -/

/-- The identifier stands somewhere in the node. -/
inductive Node.Mentions (name : String) : Node → Prop
  | atom {token : Token} : token.kind = .identifier → token.text = name → Mentions name (.atom token)
  | list {item : Node} {items : List Node} {span : Span} : item ∈ items → Mentions name item →
      Mentions name (.list items span)

/-- The node mentions no name of the generated form. -/
def Node.Plain (node : Node) : Prop :=
  ∀ name, node.Mentions name → CompilationUnit.isGenerated name = false

@[simp] theorem Node.plain_atom {token : Token} : (Node.atom token).Plain ↔
    (token.kind = .identifier → CompilationUnit.isGenerated token.text = false) := by
  constructor
  · exact fun plain kind => plain _ (.atom kind rfl)
  · rintro plain _ (⟨kind, rfl⟩ | _)
    exact plain kind

@[simp] theorem Node.plain_list {items : List Node} {span : Span} :
    (Node.list items span).Plain ↔ ∀ item ∈ items, item.Plain := by
  constructor
  · exact fun plain item mem name mentions => plain name (.list mem mentions)
  · rintro plain name (_ | ⟨mem, mentions⟩)
    exact plain _ mem name mentions

theorem Node.uniform_operand (node : Node) : node.Plain → (node.operand .core).Uniform := by
  refine @Node.rec (fun node => node.Plain → (node.operand .core).Uniform)
    (fun nodes => ∀ item ∈ nodes, item.Plain → (item.operand .core).Uniform) ?_ ?_ ?_ ?_ node
  · intro token plain
    exact ⟨fun request => token.makes_resolve request, fun request block =>
      token.parallel_resolve request block (Node.plain_atom.mp plain)⟩
  · intro items span ih plain
    refine ⟨(Node.list items span).makes_resolve, fun request block => ?_⟩
    simp only [Node.operand, Node.resolve, Node.operands_eq_map]
    refine .bind_position (FormTable.uniform_dispatch span _ ?_ request block)
    intro operand mem
    obtain ⟨item, here, rfl⟩ := List.mem_map.mp mem
    exact ih item here (Node.plain_list.mp plain item here)
  · intro item mem
    cases mem
  · intro head tail hhead htail item mem
    rcases List.mem_cons.mp mem with rfl | later
    · exact hhead
    · exact htail item later

/-- The nodes that are evaluated. -/
def Evaluation.nodes : Evaluation → List Node
  | .any node | .token node => [node]
  | .member base field => [base, field]
  | .assign target value => [target, value]

theorem Evaluation.parallel_action {evaluation : Evaluation}
    (plain : ∀ node ∈ evaluation.nodes, node.Plain) (request : Request) (block : BlockId) :
    Parallel TypedValue.Same (evaluation.action .core request)
      (evaluation.action .core (request.at block)) := by
  have uniform (node : Node) (mem : node ∈ evaluation.nodes) : (node.operand .core).Uniform :=
    node.uniform_operand (plain node mem)
  cases evaluation with
  | any node => exact (uniform node (by simp [nodes])).parallel request block
  | token node =>
    cases node with
    | atom token => exact (uniform (.atom token) (by simp [nodes])).parallel request block
    | list items span => exact .bind_position (.fail _ _)
  | member base field => exact (uniform base (by simp [nodes])).resolveField request block
  | assign target value =>
    exact (uniform target (by simp [nodes])).assign request block (uniform value (by simp [nodes]))

end FormLowering
