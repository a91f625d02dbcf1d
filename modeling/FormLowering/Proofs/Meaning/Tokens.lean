import FormLowering.Proofs.Form.Effect
import FormLowering.Proofs.Meaning.Names

/-!
Tokens. Where a token is translated, it is a literal and its code is its constant, it is the name
of an object, or it is a string and becomes a new global object.
-/

namespace FormLowering

variable {unit later : CompilationUnit} {request : Request} {result : TypedValue}

namespace Token

variable (token : Token)

/-- An attempt at a member of the wanted enum answers with its constant, or changes nothing. -/
theorem of_speculate {found : Option TypedValue}
    (h : (token.speculate request).outcome unit = (.ok found, later))
    (hkind : token.kind = .identifier) :
    (∃ ty constant result, found = some result ∧
        token.member? unit.types unit.target request.wanted? = some (ty, constant) ∧
        (FormM.constant request ty constant).outcome unit = (.ok result, later)) ∨
      (found = none ∧ later = unit ∧
        token.member? unit.types unit.target request.wanted? = none) := by
  unfold speculate wantedEnum? at h
  obtain ⟨_, _, hget, h⟩ := FormM.of_bind h
  cases hget
  simp only [member?]
  cases henum : (request.wanted?.bind Ty.enumName?).bind unit.types.enum? with
  | none =>
    rw [henum] at h
    cases h
    exact .inr ⟨rfl, rfl, rfl⟩
  | some enum =>
    rw [henum] at h
    obtain ⟨answer, mid, hattempt, h⟩ := FormM.of_bind h
    cases h
    unfold enumLiteral memberOf at hattempt
    rw [if_pos hkind, FormM.outcome_attempt] at hattempt
    cases hmember : enum.member? token.text with
    | none =>
      rw [hmember] at hattempt
      cases hattempt
      refine .inr ⟨rfl, ?_, ?_⟩
      · change { unit with log := (unit.log.push _).rollback unit.log.checkpoint } = unit
        rw [Log.rollback_push]
      · simp [hmember]
    | some value =>
      rw [hmember] at hattempt
      cases hattempt
      exact .inl ⟨_, _, _, rfl, by simp [hmember], rfl⟩

theorem of_speculate_string {found : Option TypedValue}
    (h : (token.speculate request).outcome unit = (.ok found, later))
    (hkind : token.kind = .string) : found = none ∧ later = unit := by
  unfold speculate at h
  obtain ⟨_, _, hget, h⟩ := FormM.of_bind h
  cases hget
  cases henum : wantedEnum? unit.types request with
  | none =>
    rw [henum] at h
    cases h
    exact ⟨rfl, rfl⟩
  | some enum =>
    rw [henum] at h
    obtain ⟨answer, mid, hattempt, h⟩ := FormM.of_bind h
    cases h
    unfold enumLiteral memberOf at hattempt
    rw [if_neg (by rw [hkind]; nofun), FormM.outcome_attempt] at hattempt
    cases hattempt
    refine ⟨rfl, ?_⟩
    change { unit with log := (unit.log.push _).rollback unit.log.checkpoint } = unit
    rw [Log.rollback_push]

end Token

end FormLowering
