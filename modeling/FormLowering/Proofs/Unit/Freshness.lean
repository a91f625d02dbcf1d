import Mathlib.Data.List.Nodup
import FormLowering.Proofs.Code.WellFormed
import FormLowering.Proofs.Form.Effect

/-!
Generated names. The search for one goes through the numbers from the unit's counter on. It always
ends, at the first number whose name neither the unit nor its module has, so a string can always be
stored.
-/

namespace FormLowering

theorem Variable.isSome_named?_iff {vars : List Variable} {name : String} :
    (Variable.named? vars name).isSome ↔ name ∈ vars.map (·.name) := by
  simp [Variable.named?]

namespace CompilationUnit

/-- The name has the form of a generated one: `_kv` and decimal digits. -/
def isGenerated (name : String) : Bool :=
  match name.toList with
  | '_' :: 'k' :: 'v' :: digits => !digits.isEmpty && digits.all Char.isDigit
  | _ => false

theorem toList_generatedName (n : Nat) :
    (generatedName n).toList = '_' :: 'k' :: 'v' :: Nat.toDigits 10 n := by
  change ("_kv" ++ n.repr).toList = _
  rw [String.toList_append, Nat.toList_repr]
  rfl

theorem isGenerated_generatedName (n : Nat) : isGenerated (generatedName n) = true := by
  have digits : (Nat.toDigits 10 n).all Char.isDigit = true :=
    List.all_eq_true.mpr fun c mem => Nat.isDigit_of_mem_toDigits (by decide) (by decide) mem
  simp only [isGenerated, toList_generatedName, digits]
  simp

theorem generatedName_injective : Function.Injective generatedName := by
  intro a b same
  have digits : Nat.toDigits 10 a = Nat.toDigits 10 b := by
    have spelled := congrArg String.toList same
    rw [toList_generatedName, toList_generatedName] at spelled
    simpa only [List.cons.injEq, true_and] using spelled
  have read := congrArg (Nat.ofDigitChars 10 · 0) digits
  simpa only [Nat.ofDigitChars_ten_toDigits] using read

variable (unit : CompilationUnit)

/-- The names that a generated one must differ from. -/
def namesInUse : List String :=
  unit.globals.map (·.name) ++ unit.module.names.map (·.1)

theorem isUnused_iff {name : String} : unit.isUnused name = true ↔ name ∉ unit.namesInUse := by
  rw [isUnused, namesInUse, List.mem_append, ← Variable.isSome_named?_iff,
    ← Module.isSome_globalNamed?_iff]
  simp

/-- Among one more numbers than there are names in use, one has an unused name. -/
theorem exists_unused (first : Nat) : ∃ n ∈ List.range' first (unit.namesInUse.length + 1),
    unit.isUnused (generatedName n) = true := by
  by_contra none
  have used : (List.range' first (unit.namesInUse.length + 1)).map generatedName ⊆
      unit.namesInUse := by
    intro name mem
    obtain ⟨n, candidate, rfl⟩ := List.mem_map.mp mem
    by_contra unused
    exact none ⟨n, candidate, unit.isUnused_iff.mpr unused⟩
  have distinct : ((List.range' first (unit.namesInUse.length + 1)).map generatedName).Nodup :=
    (List.nodup_range' 1).map generatedName_injective
  have tooMany := List.Nodup.length_le_of_subset distinct used
  rw [List.length_map, List.length_range'] at tooMany
  omega

/-- The chosen number is the first one from the counter on whose name is unused. -/
theorem unusedNumber_spec : unit.isUnused (generatedName unit.unusedNumber) = true ∧
    unit.nextName ≤ unit.unusedNumber ∧
    ∀ n, unit.nextName ≤ n → n < unit.unusedNumber → unit.isUnused (generatedName n) = false := by
  have length : unit.namesInUse.length = unit.globals.length + unit.module.names.length := by
    simp [namesInUse]
  obtain ⟨n, candidate, unused⟩ := unit.exists_unused unit.nextName
  have ends : ((List.range' unit.nextName (unit.namesInUse.length + 1)).find? fun n =>
      unit.isUnused (generatedName n)).isSome := List.find?_isSome.mpr ⟨n, candidate, unused⟩
  obtain ⟨chosen, found⟩ := Option.isSome_iff_exists.mp ends
  have same : unit.unusedNumber = chosen := by
    simp only [unusedNumber]
    rw [← length, found]
    rfl
  obtain ⟨unused, candidate, earlier⟩ := List.find?_range'_eq_some.mp found
  rw [same]
  refine ⟨unused, (List.mem_range'_1.mp candidate).1, fun n first before => ?_⟩
  simpa using earlier n first before

/-- The search from a number, step by step: it stops at a number with an unused name, and goes on
with the next number otherwise. -/
inductive SearchEnds : (first last : Nat) → Prop
  | found {n : Nat} : unit.isUnused (generatedName n) = true → SearchEnds n n
  | next {n last : Nat} : unit.isUnused (generatedName n) = false → SearchEnds (n + 1) last →
      SearchEnds n last

theorem searchEnds_unusedNumber : unit.SearchEnds unit.nextName unit.unusedNumber := by
  obtain ⟨unused, above, earlier⟩ := unit.unusedNumber_spec
  have onwards (steps first : Nat) (left : first + steps = unit.unusedNumber)
      (started : unit.nextName ≤ first) : unit.SearchEnds first unit.unusedNumber := by
    induction steps generalizing first with
    | zero =>
      obtain rfl : first = unit.unusedNumber := left
      exact .found unused
    | succ steps ih =>
      exact .next (earlier first started (by omega)) (ih (first + 1) (by omega) (by omega))
  exact onwards (unit.unusedNumber - unit.nextName) unit.nextName (by omega) (Nat.le_refl _)

end CompilationUnit

/-! ## Storing a string -/

namespace FormM

/-- Stores a string as a global of a generated name. -/
def storeString (text : String) (span : Span) : FormM Variable := do
  registerGlobal (← unusedName) (.ofString text) .internal true (some (.bytes (stringBytes text)))
    span

/-- A string is always stored. -/
theorem outcome_storeString (text : String) (span : Span) (unit : CompilationUnit) :
    let name := CompilationUnit.generatedName unit.unusedNumber
    ∃ added, unit.builder.addGlobal? name (.ofString text) .internal true
        (some (.bytes (stringBytes text))) = some added ∧
      outcome (storeString text span) unit =
        let binding : Variable := ⟨name, name, .ofString text, added.2.1, some .internal⟩
        (.ok binding, { unit with
          builder := added.2.2
          globals := unit.globals ++ [binding]
          nextName := unit.unusedNumber + 1 }) := by
  intro name
  have unused := unit.unusedNumber_spec.1
  unfold CompilationUnit.isUnused at unused
  obtain ⟨unbound, undefined⟩ := Bool.and_eq_true_iff.mp unused
  have accepted : ∃ added, unit.builder.addGlobal? name (.ofString text) .internal true
      (some (.bytes (stringBytes text))) = some added := by
    unfold Builder.addGlobal?
    rw [if_neg (by simpa [CompilationUnit.module] using undefined)]
    exact ⟨_, rfl⟩
  obtain ⟨added, accepted⟩ := accepted
  refine ⟨added, accepted, ?_⟩
  have named : outcome unusedName unit = (.ok name, { unit with nextName := unit.unusedNumber + 1 }) :=
    rfl
  simp only [storeString]
  rw [outcome_bind, named]
  dsimp only
  rw [outcome_registerGlobal, if_neg (by simpa using unbound), accepted]

end FormM

/-- A string is stored, and its value is the address of the first byte. -/
def Token.storedString (token : Token) (request : Request) : FormM TypedValue := do
  let stored ← FormM.storeString token.text token.span
  let ty := Ty.constPointerTo .char
  return { block := request.block, value := ← FormM.build (·.gep stored.storage [0, 0] ty), ty }

theorem Token.storedString_answers (token : Token) (request : Request) (unit : CompilationUnit) :
    ∃ result later, (token.storedString request).outcome unit = (.ok result, later) := by
  obtain ⟨added, -, stored⟩ := FormM.outcome_storeString token.text token.span unit
  simp only [storedString]
  rw [FormM.outcome_bind, stored]
  exact ⟨_, _, rfl⟩

/-- A string literal is stored where the context takes a string. -/
theorem Token.string_eq (token : Token) (request : Request) :
    token.string request =
      match request.wanted?, takesString request.wanted? with
      | some wanted, false => FormM.fail (.literalConstruction wanted token.text) token.span
      | _, _ => token.storedString request := by
  simp only [Token.string, Token.storedString, FormM.storeString, bind_assoc]
  rfl

end FormLowering
