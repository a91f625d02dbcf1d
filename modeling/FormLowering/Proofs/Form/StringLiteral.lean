import FormLowering.Proofs.Execution.Undisturbed
import FormLowering.Proofs.Form.Escapes
import FormLowering.Proofs.Form.Strings

/-!
String literals from their text to the memory of a machine. Each is stored as a global of its own,
and what its evaluation answers leads to the bytes as long as nothing is stored there.
-/

namespace FormLowering

/-- What a context may ask for where a string stands. -/
inductive Token.AsksForString : Option Ty → Prop
  | nothing : AsksForString none
  | pointer {isConst : Bool} : AsksForString (some (.pointer .char isConst))
  | array {length : Nat} : AsksForString (some (.array length .char))

theorem Token.takesString_iff {wanted? : Option Ty} :
    takesString wanted? = true ↔ AsksForString wanted? := by
  constructor
  · intro takes
    cases wanted? with
    | none => exact .nothing
    | some wanted =>
      cases wanted with
      | pointer pointee isConst =>
        cases eq_of_beq (show (pointee == Ty.char) = true from takes)
        exact .pointer
      | array length element =>
        cases eq_of_beq (show (element == Ty.char) = true from takes)
        exact .array
      | primitive | struct | enum | param => cases takes
  · rintro (_ | _ | _) <;> rfl

/-- The global is a constant of its unit that stores a text. Its bytes are those of the text with
each pair of a backslash and an `n` made one newline, and a zero after them. -/
structure Global.Spells (g : Global) (text : String) (bytes : List UInt8) : Prop where
  internal : g.linkage = .internal
  isConstant : g.isConstant = true
  init : g.init? = some (.bytes bytes)
  ty : g.ty = .array bytes.length .char
  folded : ∃ folded pairs, Folds text.toUTF8.data.toList folded pairs ∧ bytes = folded ++ [0] ∧
    bytes.length + pairs = text.utf8ByteSize + 1
  noPair : ¬[92, 110] <:+: bytes

theorem CompilationUnit.spells_stringGlobal (unit : CompilationUnit) (text : String) :
    (unit.stringGlobal text).Spells text (stringBytes text) := by
  obtain ⟨folded, pairs, folds, stored⟩ := stringBytes_eq_folded text
  refine ⟨rfl, rfl, rfl, rfl, ⟨folded, pairs, folds, stored, ?_⟩, ?_⟩
  · have length := folds.length
    rw [stored, List.length_append, List.length_singleton]
    change folded.length + 1 + pairs = text.toUTF8.size + 1
    rw [← ByteArray.size_data, ← Array.length_toList]
    omega
  · rw [stored]
    exact folds.concat_zero.no_pair

theorem CompilationUnit.name_ne_stringGlobal {unit : CompilationUnit} (reachable : Reachable unit)
    (text : String) {other : Global} (mem : other ∈ unit.module.globals) :
    other.name ≠ (unit.stringGlobal text).name := by
  intro same
  apply unit.isUnused_iff.mp unit.unusedNumber_spec.1
  rw [namesInUse, List.mem_append]
  refine .inl (reachable.linked.names ▸ ?_)
  exact List.mem_map.mpr ⟨other, Array.mem_toList_iff.mpr mem, same⟩

/-- The instruction computes the address of the first of the bytes. Whenever that was done, reading
from there gives them in their order, and leaves the object behind the last one. -/
structure Program.Presents (program : Program) (id : ValueId) (global : GlobalId)
    (bytes : List UInt8) : Prop where
  computes : ∃ instruction, program.module.instruction? id = some instruction ∧
    ∀ machine, (program.execute id instruction).outcome machine =
      (.ok (.address ⟨.global global, [0]⟩), machine)
  reads : ∀ machine, program.Undisturbed global machine →
    ∀ address, program.addressIn machine id = .ok address → ∀ index,
      program.read machine { address with path := address.path.dropLast ++ [index] } =
        match bytes[index]? with
        | some byte => .ok (.int byte.toNat)
        | none => .error .outOfObject

namespace Program

variable {program : Program} {id pointer : ValueId} {global : GlobalId} {found : Global}
  {bytes : List UInt8}

theorem presents_of_gep (hglobal : program.module.global? global = some found)
    (hinit : found.init? = some (.bytes bytes)) {ty addressTy : Ty} {block? : Option BlockId}
    (hpointer : program.module.value? pointer = some ⟨.globalAddress global, addressTy, none⟩)
    (hvalue : program.module.value? id = some ⟨.instruction (.gep pointer [0, 0]), ty, block?⟩) :
    program.Presents id global bytes := by
  have hi : program.module.instruction? id = some (.gep pointer [0, 0]) :=
    Module.instruction?_eq_some hvalue
  have executes : ∀ machine, (program.execute id (.gep pointer [0, 0])).outcome machine =
      (.ok (.address ⟨.global global, [0]⟩), machine) := by
    intro machine
    have known : program.addressIn machine pointer = .ok ⟨.global global, []⟩ := by
      simp only [Program.addressIn, Program.value]
      rw [hpointer]
      rfl
    rw [outcome_gep, known]
    rfl
  refine ⟨⟨_, hi, executes⟩, ?_⟩
  intro machine calm address computed index
  have recorded : machine.values.lookup id = some (.address address) := by
    have computed := value_of_addressIn computed
    simp only [Program.value] at computed
    rw [hvalue] at computed
    dsimp only at computed
    split at computed
    · rename_i datum lookup
      cases computed
      exact lookup
    · cases computed
  cases calm.value hi (fun machine => congrArg Prod.fst (executes machine)) recorded
  exact calm.read_bytes hglobal hinit index

/-- Where a string was stored and an address computed in it, every later program presents it. -/
theorem presents_stored {builder : Builder} {name : String} {ty addressTy : Ty} {linkage : Linkage}
    {isConstant : Bool} {added : GlobalId × ValueId × Builder}
    (accepted : builder.addGlobal? name ty linkage isConstant (some (.bytes bytes)) = some added)
    (grown : (added.2.2.pushInstruction (.gep added.2.1 [0, 0]) addressTy).2.module.Extends
      program.module) : program.Presents added.2.2.nextValue added.1 bytes := by
  have pushed := added.2.2.extends_pushInstruction (.gep added.2.1 [0, 0]) addressTy
  have stored := builder.global?_addGlobal? accepted added.1
  have address := builder.value?_addGlobal? accepted added.2.1
  have computed := added.2.2.value?_pushInstruction (.gep added.2.1 [0, 0]) addressTy
    added.2.2.nextValue
  rw [if_pos rfl] at stored address computed
  exact presents_of_gep (grown.global (pushed.global stored)) rfl
    (grown.value (pushed.value address)) (grown.value computed)

end Program

namespace Token

variable {token : Token} {request : Request} {unit : CompilationUnit}

theorem outcome_resolve_stored (string : token.kind = .string)
    (asks : takesString request.wanted? = true) :
    ∃ added, (unit.builder.position request.block).addGlobal?
        (CompilationUnit.generatedName unit.unusedNumber) (.ofString token.text) .internal true
        (some (.bytes (stringBytes token.text))) = some added ∧
      ∃ later, (token.resolve request).outcome unit =
        (.ok { block := request.block, value := added.2.2.nextValue, ty := .constPointerTo .char },
          later) ∧
        later.builder =
          (added.2.2.pushInstruction (.gep added.2.1 [0, 0]) (.constPointerTo .char)).2 := by
  obtain ⟨added, accepted, stored⟩ :=
    FormM.outcome_storeString token.text token.span (unit.positioned request.block)
  refine ⟨added, accepted, ?_⟩
  have stores : token.string request = token.storedString request := by
    rw [Token.string_eq, asks]
    cases request.wanted? <;> rfl
  rw [outcome_resolve_string string, stores]
  unfold storedString
  rw [FormM.outcome_bind, stored]
  dsimp only
  rw [FormM.outcome_bind, FormM.outcome_build]
  rw [← added.2.2.pushInstruction_fst (.gep added.2.1 [0, 0]) (.constPointerTo .char)]
  exact ⟨_, rfl, rfl⟩

/-- Where characters are not asked for, nothing is stored. -/
theorem outcome_resolve_unasked (string : token.kind = .string) {wanted : Ty}
    (hwanted : request.wanted? = some wanted) (other : ¬AsksForString request.wanted?) :
    ∃ later, (token.resolve request).outcome unit =
        (.error ⟨.literalConstruction wanted token.text, token.span⟩, later) ∧
      later.module.globals = unit.module.globals := by
  have refused : takesString request.wanted? = false := by
    rw [Bool.eq_false_iff]
    exact mt takesString_iff.mp other
  rw [outcome_resolve_string string, Token.string_eq, refused, hwanted]
  exact ⟨_, rfl, rfl⟩

/-- A string literal is stored wherever the context asks for none or for characters, and refused
elsewhere. -/
theorem string_literal_presented (unit : CompilationUnit) (token : Token)
    (string : token.kind = .string) (request : Request) :
    (AsksForString request.wanted? → ∃ result later g bytes,
      ((Node.atom token).resolveToken request).outcome unit = (.ok result, later) ∧
      result.ty = .constPointerTo .char ∧ result.isLvalue = false ∧
      later.module.globals = unit.module.globals.push g ∧
      (Reachable unit → ∀ other ∈ unit.module.globals, other.name ≠ g.name) ∧
      g.Spells token.text bytes ∧
      (∀ b, unit.module.block? request.block = some b →
        later.module.block? request.block =
          some { b with instructions := b.instructions ++ [result.value] }) ∧
      ∀ program : Program, later.module.Extends program.module →
        program.Presents result.value ⟨unit.module.globals.size⟩ bytes) ∧
    (¬AsksForString request.wanted? → ∃ wanted later, request.wanted? = some wanted ∧
      ((Node.atom token).resolveToken request).outcome unit =
        (.error ⟨.literalConstruction wanted token.text, token.span⟩, later) ∧
      later.module.globals = unit.module.globals) := by
  constructor
  · intro asks
    obtain ⟨added, accepted, later, ended, builder⟩ :=
      outcome_resolve_stored string (takesString_iff.mpr asks)
    have module : later.module =
        (added.2.2.pushInstruction (.gep added.2.1 [0, 0]) (.constPointerTo .char)).2.module :=
      congrArg Builder.module builder
    have number : added.1 = ⟨unit.module.globals.size⟩ := by
      rw [Builder.addGlobal?_eq_some _ accepted]
      rfl
    refine ⟨_, later, unit.stringGlobal token.text, stringBytes token.text, ended, rfl, rfl, ?_, ?_,
      unit.spells_stringGlobal token.text, ?_, ?_⟩
    · rw [module, Builder.globals_pushInstruction, Builder.addGlobal?_eq_some _ accepted]
      rfl
    · exact fun reachable other mem =>
        CompilationUnit.name_ne_stringGlobal reachable token.text mem
    · intro b found
      have position : added.2.2.block? = some request.block := by
        rw [Builder.addGlobal?_eq_some _ accepted]
        rfl
      rw [module, Builder.block?_pushInstruction _ position, if_pos rfl,
        Builder.addGlobal?_eq_some _ accepted]
      exact congrArg _ found
    · intro program grown
      rw [module] at grown
      rw [← number]
      exact Program.presents_stored accepted grown
  · intro other
    cases wanted : request.wanted? with
    | none => exact absurd .nothing (wanted ▸ other)
    | some ty =>
      obtain ⟨later, ended, same⟩ := outcome_resolve_unasked string wanted other
      exact ⟨ty, later, rfl, ended, same⟩

/-- A text of a letter, a pair and a character of three bytes: when its routine has run, six bytes
are there, the last a zero. -/
theorem newline_presented :
    let unit := (CompilationUnit.new "m" .x86_64 0).perform (.enterFunction "f")
    let ended := ((Node.atom ⟨.string, "a\\n€", .dummy⟩).resolveToken
      { block := ⟨0⟩, wanted? := some (.array 7 .char) }).outcome unit
    let program : Program := ⟨ended.2.module, ended.2.types⟩
    let machine := program.machineAfter [⟨0⟩]
    ∃ result, ended.1 = .ok result ∧ ∃ address,
      program.addressIn machine result.value = .ok address ∧ ∀ index,
        program.read machine { address with path := address.path.dropLast ++ [index] } =
          match ([97, 10, 226, 130, 172, 0] : List UInt8)[index]? with
          | some byte => .ok (.int byte.toNat)
          | none => .error .outOfObject := by
  intro unit ended program machine
  obtain ⟨result, later, g, bytes, accepted, -, -, -, -, spells, -, presents⟩ :=
    (string_literal_presented unit ⟨.string, "a\\n€", .dummy⟩ rfl
      { block := ⟨0⟩, wanted? := some (.array 7 .char) }).1 .array
  have hended : ended = (.ok result, later) := accepted
  have module : later.module = program.module :=
    congrArg (fun ended : _ × CompilationUnit => ended.2.module) hended.symm
  have presents : program.Presents result.value ⟨0⟩ bytes := presents program (module ▸ .refl _)
  have same : bytes = [97, 10, 226, 130, 172, 0] := by
    obtain ⟨folded, pairs, folds, rfl, -⟩ := spells.folded
    have text : "a\\n€".toUTF8.data.toList = [97, 92, 110, 226, 130, 172] := by decide
    rw [text] at folds
    have read : Folds [97, 92, 110, 226, 130, 172] [97, 10, 226, 130, 172] 1 :=
      .keep nofun (.pair (.keep nofun (.keep nofun (.keep nofun .nil))))
    rw [(folds.unique read).1]
    rfl
  have value : result.value = ⟨1⟩ := by
    have answer : ended.1.toOption.map (·.value) = some ⟨1⟩ := by decide +kernel
    rw [hended] at answer
    exact Option.some.inj answer
  have computed : program.addressIn machine ⟨1⟩ = .ok ⟨.global ⟨0⟩, [0]⟩ := by decide +kernel
  rw [← value] at computed
  have stores : ∀ entry ∈ program.code ⟨0⟩, entry.2.isStore = false := by decide +kernel
  have calm : program.Undisturbed ⟨0⟩ machine := by
    apply Program.Undisturbed.empty.execution
    · exact fun entry => Program.instruction?_of_mem_code
    · intro front entry rest middle code _ stored
      have mem : entry ∈ program.code ⟨0⟩ := code ▸ List.mem_append_right _ List.mem_cons_self
      exact Bool.false_ne_true ((stores entry mem).symm.trans stored.isStore)
  have reads := presents.reads machine calm _ computed
  rw [same] at reads
  exact ⟨result, congrArg Prod.fst hended, _, computed, reads⟩

end Token
end FormLowering
