import FormLowering.Proofs.Ty.Direct

/-!
The memo of a layout query is transparent. While what it remembers is what a walk without a memo
answers, a query answers as that walk does, with a number or with the same error, and leaves a memo
of which the same holds.
-/

namespace FormLowering

/-- Everything remembered is what a walk without a memo answers. -/
structure LayoutMemo.Sound (types : Registry) (target : Target) (memo : LayoutMemo) : Prop where
  alignments : ∀ {ty n}, memo.alignments.lookup ty = some n →
    Layout.directAlignment types target [] ty = .ok n
  sizes : ∀ {ty n}, memo.sizes.lookup ty = some n → Layout.directSize types target [] ty = .ok n

namespace LayoutMemo.Sound

variable {types later : Registry} {target : Target} {memo : LayoutMemo}

theorem empty (busy : List Ty) : Sound types target { inProgress := busy } :=
  ⟨nofun, nofun⟩

theorem progress (h : memo.Sound types target) (busy : List Ty) :
    Sound types target { memo with inProgress := busy } :=
  ⟨h.alignments, h.sizes⟩

theorem grows (h : memo.Sound types target) (grows : types.Extends later) :
    memo.Sound later target :=
  ⟨fun found => Layout.directAlignment_transfer grows (h.alignments found) .nil,
    fun found => Layout.directSize_transfer grows (h.sizes found) .nil⟩

theorem alignment (h : memo.Sound types target) {ty : Ty} {n : Nat}
    (answer : Layout.directAlignment types target [] ty = .ok n) :
    Sound types target { memo with alignments := (ty, n) :: memo.alignments } := by
  refine ⟨fun {other m} found => ?_, h.sizes⟩
  by_cases same : other = ty
  · subst same
    simp only [List.lookup_cons_self, Option.some.injEq] at found
    exact found ▸ answer
  · rw [List.lookup_cons, show (other == ty) = false by simpa using same] at found
    exact h.alignments found

theorem size (h : memo.Sound types target) {ty : Ty} {n : Nat}
    (answer : Layout.directSize types target [] ty = .ok n) :
    Sound types target { memo with sizes := (ty, n) :: memo.sizes } := by
  refine ⟨h.alignments, fun {other m} found => ?_⟩
  by_cases same : other = ty
  · subst same
    simp only [List.lookup_cons_self, Option.some.injEq] at found
    exact found ▸ answer
  · rw [List.lookup_cons, show (other == ty) = false by simpa using same] at found
    exact h.sizes found

end LayoutMemo.Sound

namespace LayoutM.During

variable {types : Registry} {target : Target} {busy : List Ty} {α β : Type}

/-- From every sound memo, a part of a query gives one answer and leaves a sound memo. -/
def Gives (types : Registry) (target : Target) (part : During busy α)
    (answer : Except LayoutError α) : Prop :=
  ∀ memo : LayoutMemo.During busy, memo.val.Sound types target →
    ∃ after : LayoutMemo.During busy, part.run.run memo = (answer, after) ∧
      after.val.Sound types target

theorem Gives.pure (a : α) : Gives types target (pure a : During busy α) (.ok a) :=
  fun memo sound => ⟨memo, rfl, sound⟩

theorem Gives.throw (error : LayoutError) :
    Gives types target (throw error : During busy α) (.error error) :=
  fun memo sound => ⟨memo, rfl, sound⟩

theorem Gives.lift (answer : Except LayoutError α) :
    Gives types target (liftM answer : During busy α) answer :=
  fun memo sound => ⟨memo, rfl, sound⟩

theorem run_bind (part : During busy α) (next : α → During busy β) (memo : LayoutMemo.During busy) :
    (part >>= next).run.run memo =
      match part.run.run memo with
      | (.ok a, after) => (next a).run.run after
      | (.error error, after) => (.error error, after) := by
  rcases run : part.run.run memo with ⟨answer, after⟩
  rw [ExceptT.run_bind, StateT.run_bind, run]
  cases answer <;> rfl

theorem Gives.bind {part : During busy α} {next : α → During busy β}
    {answer : Except LayoutError α} {others : α → Except LayoutError β}
    (first : Gives types target part answer)
    (second : ∀ a, answer = .ok a → Gives types target (next a) (others a)) :
    Gives types target (part >>= next) (answer >>= others) := by
  intro memo sound
  obtain ⟨mid, run, sound⟩ := first memo sound
  cases answer with
  | error error => exact ⟨mid, by rw [run_bind, run]; rfl, sound⟩
  | ok a =>
    obtain ⟨after, run', sound⟩ := second a rfl mid sound
    exact ⟨after, by rw [run_bind, run]; exact run', sound⟩

/-- A step that passes a number on adds nothing to the answer. -/
theorem Gives.tap {part : During busy α} {next : α → During busy α} {answer : Except LayoutError α}
    (first : Gives types target part answer)
    (second : ∀ a, answer = .ok a → Gives types target (next a) (.ok a)) :
    Gives types target (part >>= next) answer := by
  have both : Gives types target (part >>= next) (answer >>= .ok) := first.bind second
  cases answer <;> exact both

theorem Gives.read {next : LayoutMemo.During busy → During busy α} {answer : Except LayoutError α}
    (h : ∀ memo : LayoutMemo.During busy, memo.val.Sound types target →
      Gives types target (next memo) answer) : Gives types target (get >>= next) answer :=
  fun memo sound => h memo sound memo sound

theorem Gives.entering {ty : Ty} {part : During (ty :: busy) α} {answer : Except LayoutError α}
    (h : Gives types target part answer) : Gives types target (entering ty part) answer := by
  intro memo sound
  obtain ⟨after, run, sound⟩ := h ⟨_, congrArg (ty :: ·) memo.property⟩ (sound.progress _)
  refine ⟨⟨{ after.val with inProgress := after.val.inProgress.erase ty },
    by simp [after.property]⟩, ?_, sound.progress _⟩
  simp only [During.entering, ExceptT.run_mk, StateT.run] at run ⊢
  rw [run]

theorem Gives.rememberAlignment {ty : Ty} {n : Nat}
    (answer : Layout.directAlignment types target [] ty = .ok n) :
    Gives types target (rememberAlignment ty n : During busy Nat) (.ok n) :=
  fun memo sound => ⟨⟨{ memo.val with alignments := (ty, n) :: memo.val.alignments },
    memo.property⟩, rfl, sound.alignment answer⟩

theorem Gives.rememberSize {ty : Ty} {n : Nat}
    (answer : Layout.directSize types target [] ty = .ok n) :
    Gives types target (rememberSize ty n : During busy Nat) (.ok n) :=
  fun memo sound => ⟨⟨{ memo.val with sizes := (ty, n) :: memo.val.sizes },
    memo.property⟩, rfl, sound.size answer⟩

end LayoutM.During

namespace Layout

open LayoutM.During

variable {types : Registry} {target : Target} {busy : List Ty} {ty : Ty}

theorem greatestAlignment_gives {fields : List Ty} {least : Nat}
    (measured : ∀ field ∈ fields, Gives types target (alignmentWithin types target busy field)
      (directAlignment types target busy field)) :
    Gives types target (greatestAlignment types target busy fields least)
      (greatest (directAlignment types target busy) fields least) := by
  induction fields generalizing least with
  | nil => rw [greatestAlignment]; exact .pure least
  | cons field rest ih =>
    obtain ⟨first, others⟩ := List.forall_mem_cons.mp measured
    rw [greatestAlignment]
    exact first.bind fun _ _ => ih others

theorem recordSize_gives {fields : List Ty} {offset least : Nat}
    (alignments : ∀ field ∈ fields, Gives types target (alignmentWithin types target busy field)
      (directAlignment types target busy field))
    (sizes : ∀ field ∈ fields, Gives types target (sizeWithin types target busy field)
      (directSize types target busy field)) :
    Gives types target (recordSize types target busy ty fields offset least)
      (extent ty (directAlignment types target busy) (directSize types target busy) fields offset
        least) := by
  induction fields generalizing offset least with
  | nil => rw [recordSize]; exact .lift _
  | cons field rest ih =>
    obtain ⟨first, alignments⟩ := List.forall_mem_cons.mp alignments
    obtain ⟨second, sizes⟩ := List.forall_mem_cons.mp sizes
    rw [recordSize]
    refine first.bind fun alignment _ => second.bind fun size _ => ?_
    exact (Gives.lift _).bind fun _ _ => (Gives.lift _).bind fun _ _ => ih alignments sizes

theorem alignmentWithin_gives (below : ty.Below types target busy) :
    Gives types target (alignmentWithin types target busy ty)
      (directAlignment types target busy ty) := by
  induction busy, ty using @descent types target with
  | step busy ty ih =>
    rw [alignmentWithin]
    refine .read fun memo sound => ?_
    split
    · rename_i n found
      -- a remembered type is grounded, so what is in progress above it does not matter
      have answer := sound.alignments found
      rw [directAlignment_transfer (.refl types) answer
        ((grounded_of_alignment answer).avoids below)]
      exact .pure n
    · split
      · rename_i found
        rw [directAlignment_eq, if_pos (memo.property ▸ found)]
        exact .throw _
      · rename_i missed
        have fresh : ty ∉ busy := memo.property ▸ missed
        have measured {part : Ty} (stores : ty.Stores types target part) :
            Gives types target (alignmentWithin types target (ty :: busy) part)
              (directAlignment types target (ty :: busy) part) :=
          ih fresh part stores (below.stores stores)
        refine .tap (.entering ?_) fun n answer =>
          .rememberAlignment (directAlignment_transfer (.refl types) answer .nil)
        rw [directAlignment_eq, if_neg fresh]
        split <;> rename_i known <;> rw [known]
        · exact .throw _
        · exact .pure _
        · exact measured ⟨_, known, List.mem_singleton.mpr rfl⟩
        · exact greatestAlignment_gives fun field mem => measured ⟨_, known, mem⟩

theorem sizeWithin_gives (below : ty.Below types target busy) :
    Gives types target (sizeWithin types target busy ty) (directSize types target busy ty) := by
  induction busy, ty using @descent types target with
  | step busy ty ih =>
    rw [sizeWithin]
    refine .read fun memo sound => ?_
    split
    · rename_i n found
      have answer := sound.sizes found
      rw [directSize_transfer (.refl types) answer ((grounded_of_size answer).avoids below)]
      exact .pure n
    · split
      · rename_i found
        rw [directSize_eq, if_pos (memo.property ▸ found)]
        exact .throw _
      · rename_i missed
        have fresh : ty ∉ busy := memo.property ▸ missed
        have measured {part : Ty} (stores : ty.Stores types target part) :
            Gives types target (sizeWithin types target (ty :: busy) part)
              (directSize types target (ty :: busy) part) :=
          ih fresh part stores (below.stores stores)
        refine .tap (.entering ?_) fun n answer =>
          .rememberSize (directSize_transfer (.refl types) answer .nil)
        rw [directSize_eq, if_neg fresh]
        split <;> rename_i known <;> rw [known]
        · exact .throw _
        · exact .pure _
        · exact (measured ⟨_, known, List.mem_singleton.mpr rfl⟩).bind fun _ _ => .lift _
        · refine recordSize_gives (fun field mem => ?_) fun field mem => measured ⟨_, known, mem⟩
          exact alignmentWithin_gives (below.stores ⟨_, known, mem⟩)

end Layout

/-! ## Whole queries -/

namespace LayoutM

variable {types : Registry} {target : Target} {α β : Type}

/-- From every sound memo of no types in progress, a query gives one answer and leaves such a memo. -/
def Answers (types : Registry) (target : Target) (query : LayoutM α)
    (answer : Except LayoutError α) : Prop :=
  ∀ memo : LayoutMemo, memo.inProgress = [] → memo.Sound types target →
    ∃ after : LayoutMemo, query.run.run memo = (answer, after) ∧ after.inProgress = [] ∧
      after.Sound types target

theorem answers_throw (error : LayoutError) :
    Answers types target (throw error : LayoutM α) (.error error) :=
  fun memo idle sound => ⟨memo, rfl, idle, sound⟩

theorem answers_lift (answer : Except LayoutError α) :
    Answers types target (liftM answer : LayoutM α) answer :=
  fun memo idle sound => ⟨memo, rfl, idle, sound⟩

theorem Answers.bind {query : LayoutM α} {next : α → LayoutM β}
    {answer : Except LayoutError α} {others : α → Except LayoutError β}
    (first : Answers types target query answer)
    (second : ∀ a, answer = .ok a → Answers types target (next a) (others a)) :
    Answers types target (query >>= next) (answer >>= others) := by
  intro memo idle sound
  obtain ⟨mid, run, idle, sound⟩ := first memo idle sound
  cases answer with
  | error error => exact ⟨mid, by rw [ExceptT.run_bind, StateT.run_bind, run]; rfl, idle, sound⟩
  | ok a =>
    obtain ⟨after, run', idle, sound⟩ := second a rfl mid idle sound
    exact ⟨after, by rw [ExceptT.run_bind, StateT.run_bind, run]; exact run', idle, sound⟩

theorem answers_ofPart {part : (busy : List Ty) → During busy α} {answer : Except LayoutError α}
    (h : During.Gives types target (part []) answer) : Answers types target (ofPart part) answer := by
  rintro ⟨alignments, sizes, _⟩ rfl sound
  obtain ⟨after, run, sound⟩ := h ⟨_, rfl⟩ sound
  refine ⟨after.val, ?_, after.property, sound⟩
  simp only [ofPart, ExceptT.run_mk, StateT.run] at run ⊢
  rw [run]

end LayoutM

namespace Layout

open LayoutM

variable {types : Registry} {target : Target}

theorem alignment_answers (ty : Ty) :
    Answers types target (alignment types target ty) (directAlignment types target [] ty) :=
  answers_ofPart (alignmentWithin_gives .nil)

theorem size_answers (ty : Ty) :
    Answers types target (size types target ty) (directSize types target [] ty) :=
  answers_ofPart (sizeWithin_gives .nil)

theorem offsetAmong_answers (ty : Ty) (fields : List Ty) (index offset : Nat) :
    Answers types target (offsetAmong types target ty fields index offset)
      (offsetIn ty (directAlignment types target []) (directSize types target []) fields index
        offset) := by
  induction fields generalizing index offset with
  | nil => exact answers_throw _
  | cons field rest ih =>
    refine (alignment_answers field).bind fun alignment _ => (answers_lift _).bind fun start _ => ?_
    cases index with
    | zero => exact answers_lift (.ok start)
    | succ index =>
      exact (size_answers field).bind fun _ _ => (answers_lift _).bind fun finish _ =>
        ih index finish

theorem fieldOffset_answers (ty : Ty) (index : Nat) :
    Answers types target (fieldOffset types target ty index)
      (directOffset types target ty index) := by
  refine (answers_lift _).bind fun shape _ => ?_
  cases shape with
  | scalar | array => exact answers_throw _
  | record fields => exact offsetAmong_answers ty fields index 0

end Layout
end FormLowering
