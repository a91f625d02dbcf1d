import Mathlib
import FormLowering.Proofs.Ty.Memo

/-!
Layout sessions: a registry that grows while questions are asked of one memo. Registrations and
questions may come in any order, and both may fail.
-/

namespace FormLowering

inductive LayoutQuery where
  | alignment (ty : Ty)
  | size (ty : Ty)
  | fieldOffset (ty : Ty) (index : Nat)
  deriving DecidableEq, Repr

def LayoutQuery.run (types : Registry) (target : Target) : LayoutQuery → LayoutM Nat
  | .alignment ty => Layout.alignment types target ty
  | .size ty => Layout.size types target ty
  | .fieldOffset ty index => Layout.fieldOffset types target ty index

/-- The answer of a walk without a memo. -/
def LayoutQuery.direct (types : Registry) (target : Target) : LayoutQuery → Except LayoutError Nat
  | .alignment ty => Layout.directAlignment types target [] ty
  | .size ty => Layout.directSize types target [] ty
  | .fieldOffset ty index => Layout.directOffset types target ty index

/-- A struct without parameters is defined with an empty list of them. -/
inductive Registration where
  | declareStruct (name : String)
  | defineStruct (name : String) (params : List String) (fields : List Field)
  | defineEnum (name : String) (underlying : Primitive) (members : List (String × Int))
  deriving DecidableEq, Repr

def Registration.register (types : Registry) : Registration → Except RegistryError Registry
  | .declareStruct name => .ok (types.declareStruct name)
  | .defineStruct name params fields => types.defineStruct name params fields
  | .defineEnum name underlying members => types.defineEnum name underlying members

inductive LayoutStep where
  | register (registration : Registration)
  | ask (query : LayoutQuery)
  deriving DecidableEq, Repr

structure LayoutSession where
  types : Registry
  memo : LayoutMemo := {}

namespace LayoutSession

/-- The answer to a question, and the memo after it. -/
def consult (target : Target) (session : LayoutSession) (query : LayoutQuery) :
    Except LayoutError Nat × LayoutMemo :=
  (query.run session.types target).run.run session.memo

def answer (target : Target) (session : LayoutSession) (query : LayoutQuery) :
    Except LayoutError Nat :=
  (session.consult target query).1

/-- A refused registration changes nothing. -/
def step (target : Target) (session : LayoutSession) : LayoutStep → LayoutSession
  | .register registration =>
    match registration.register session.types with
    | .ok types => { session with types }
    | .error _ => session
  | .ask query => { session with memo := (session.consult target query).2 }

def after (target : Target) (session : LayoutSession) (steps : List LayoutStep) : LayoutSession :=
  steps.foldl (step target) session

end LayoutSession

variable {target : Target}

theorem LayoutQuery.answers (types : Registry) (query : LayoutQuery) :
    LayoutM.Answers types target (query.run types target) (query.direct types target) := by
  cases query with
  | alignment ty => exact Layout.alignment_answers ty
  | size ty => exact Layout.size_answers ty
  | fieldOffset ty index => exact Layout.fieldOffset_answers ty index

theorem LayoutQuery.direct_mono {types later : Registry} (grows : types.Extends later)
    {query : LayoutQuery} {n : Nat} (h : query.direct types target = .ok n) :
    query.direct later target = .ok n := by
  cases query with
  | alignment ty => exact Layout.directAlignment_transfer grows h .nil
  | size ty => exact Layout.directSize_transfer grows h .nil
  | fieldOffset ty index => exact Layout.directOffset_transfer grows h

theorem Registration.grows {types later : Registry} {registration : Registration}
    (h : registration.register types = .ok later) : types.Extends later := by
  cases registration with
  | declareStruct name =>
    cases h
    exact types.extends_declareStruct name
  | defineStruct name params fields => exact Registry.extends_defineStruct h
  | defineEnum name underlying members => exact Registry.extends_defineEnum h

namespace LayoutSession

variable {session : LayoutSession}

/-- Between two steps nothing is being measured, and the memo is sound for the registry. -/
structure Settled (target : Target) (session : LayoutSession) : Prop where
  idle : session.memo.inProgress = []
  sound : session.memo.Sound session.types target

theorem settled_new (target : Target) (types : Registry) : Settled target { types } :=
  ⟨rfl, .empty []⟩

theorem Settled.answer (h : session.Settled target) (query : LayoutQuery) :
    session.answer target query = query.direct session.types target := by
  obtain ⟨memo, run, _, _⟩ := query.answers session.types session.memo h.idle h.sound
  rw [LayoutSession.answer, consult, run]

theorem types_step (session : LayoutSession) (step : LayoutStep) :
    session.types.Extends (session.step target step).types := by
  cases step with
  | ask query => exact .refl session.types
  | register registration =>
    simp only [LayoutSession.step]
    split
    · rename_i later defined
      exact registration.grows defined
    · exact .refl session.types

theorem Settled.step (h : session.Settled target) (step : LayoutStep) :
    (session.step target step).Settled target := by
  cases step with
  | ask query =>
    obtain ⟨memo, run, idle, sound⟩ := query.answers session.types session.memo h.idle h.sound
    simp only [LayoutSession.step, consult, run]
    exact ⟨idle, sound⟩
  | register registration =>
    simp only [LayoutSession.step]
    split
    · rename_i later defined
      exact ⟨h.idle, h.sound.grows (registration.grows defined)⟩
    · exact h

theorem Settled.after (h : session.Settled target) (steps : List LayoutStep) :
    (session.after target steps).Settled target := by
  induction steps generalizing session with
  | nil => exact h
  | cons step rest ih => exact ih (h.step step)

theorem types_after (session : LayoutSession) (steps : List LayoutStep) :
    session.types.Extends (session.after target steps).types := by
  induction steps generalizing session with
  | nil => exact .refl session.types
  | cons step rest ih => exact (types_step session step).trans (ih _)

/-- The registry that steps lead to does not depend on the memo. -/
theorem types_eq_after {other : LayoutSession} (same : session.types = other.types)
    (steps : List LayoutStep) :
    (session.after target steps).types = (other.after target steps).types := by
  induction steps generalizing session other with
  | nil => exact same
  | cons step rest ih =>
    refine ih ?_
    cases step with
    | ask query => exact same
    | register registration =>
      simp only [LayoutSession.step, ← same]
      split
      · rfl
      · exact same

/-- The memo is transparent. After any steps, every question is answered as it would be with an
empty memo; a number that is answered stays the answer, whatever comes later; and whether a question
was asked, and whether it was answered, makes no difference to any later one. -/
theorem memo_transparent (target : Target) (types : Registry) (steps : List LayoutStep)
    (query : LayoutQuery) :
    let session := LayoutSession.after target { types } steps
    session.answer target query = LayoutSession.answer target { types := session.types } query ∧
      (∀ n later, session.answer target query = .ok n →
        (session.after target later).answer target query = .ok n) ∧
      ∀ later other, ((session.step target (.ask query)).after target later).answer target other =
        (session.after target later).answer target other := by
  intro session
  have settled : session.Settled target := (settled_new target types).after steps
  refine ⟨?_, fun n later known => ?_, fun later other => ?_⟩
  · rw [settled.answer, (settled_new target session.types).answer]
  · rw [(settled.after later).answer]
    rw [settled.answer] at known
    exact LayoutQuery.direct_mono (session.types_after later) known
  · have same : (session.step target (.ask query)).types = session.types := rfl
    rw [((settled.step (.ask query)).after later).answer, (settled.after later).answer,
      types_eq_after same]

/-- The failure to measure a declared struct does not outlast its definition, and the size found
then outlasts every later step. -/
theorem completed_struct_measured :
    let session := LayoutSession.after .x86_64 { types := {} }
      [.register (.declareStruct "s"), .ask (.size (.struct "s")),
        .register (.defineStruct "s" [] [⟨"c", .char⟩])]
    session.answer .x86_64 (.size (.struct "s")) = .ok 1 ∧
      ∀ later, (session.after .x86_64 later).answer .x86_64 (.size (.struct "s")) = .ok 1 := by
  intro session
  have known : session.answer .x86_64 (.size (.struct "s")) = .ok 1 := by
    simp only [session]
    cbv
  exact ⟨known, fun later => (memo_transparent .x86_64 {} _ _).2.1 1 later known⟩

end LayoutSession
end FormLowering
