import FormLowering.Report.Log

/-!
Transactions on a log. Behind a limited log stands a list without a limit, on which a report appends
and a rollback truncates. The log shows the first entries of that list and counts the others, and
though it has forgotten those, it goes on after a rollback as if it had them still.
-/

namespace FormLowering

/-- What is done to a log. A rollback names its mark by number, in the order in which the marks were
taken. -/
inductive LogStep where
  | push (report : Diagnostic)
  | checkpoint
  | rollback (mark : Nat)
  deriving DecidableEq, Repr

/-- A log with the marks that were taken of it. -/
structure LogSession where
  log : Log
  marks : List Checkpoint := []

namespace LogSession

def step (session : LogSession) : LogStep → LogSession
  | .push report => { session with log := (session.log.record report).2 }
  | .checkpoint => { session with marks := session.marks ++ [session.log.checkpoint] }
  | .rollback mark =>
    match session.marks[mark]? with
    | some checkpoint => { session with log := session.log.rollback checkpoint }
    | none => session

def after (limit : Nat) (steps : List LogStep) : LogSession :=
  steps.foldl step { log := { limit } }

end LogSession

/-- The list without a limit, and its length at each mark. A mark that a rollback has gone back past
is void. -/
structure Transcript where
  reports : List Diagnostic := []
  marks : List (Option Nat) := []

namespace Transcript

/-- The length at a mark that was taken and is not void. -/
def length? (transcript : Transcript) (mark : Nat) : Option Nat := transcript.marks[mark]?.join

def step (transcript : Transcript) : LogStep → Transcript
  | .push report => { transcript with reports := transcript.reports ++ [report] }
  | .checkpoint => { transcript with marks := transcript.marks ++ [some transcript.reports.length] }
  | .rollback mark =>
    match transcript.length? mark with
    | some length =>
      { reports := transcript.reports.take length
        marks := transcript.marks.map (·.filter (· ≤ length)) }
    | none => transcript

def after (steps : List LogStep) : Transcript := steps.foldl step {}

end Transcript

/-- A rollback needs a mark that no earlier rollback has gone back past. -/
def LogStep.Allowed (transcript : Transcript) : LogStep → Prop
  | .rollback mark => (transcript.length? mark).isSome
  | _ => True

instance (transcript : Transcript) : (step : LogStep) → Decidable (step.Allowed transcript)
  | .push _ | .checkpoint => inferInstanceAs (Decidable True)
  | .rollback _ => inferInstanceAs (Decidable (_ = true))

/-- Each step is allowed where it stands. -/
def Transcript.Allows : Transcript → List LogStep → Prop
  | _, [] => True
  | transcript, step :: rest => step.Allowed transcript ∧ (transcript.step step).Allows rest

instance Transcript.decidableAllows : (transcript : Transcript) → (steps : List LogStep) →
    Decidable (transcript.Allows steps)
  | _, [] => inferInstanceAs (Decidable True)
  | transcript, step :: rest =>
    have := decidableAllows (transcript.step step) rest
    inferInstanceAs (Decidable (step.Allowed transcript ∧ (transcript.step step).Allows rest))

/-- The reports that a limit leaves of a list; zero leaves them all. -/
def shown (limit : Nat) (reports : List Diagnostic) : List Diagnostic :=
  if limit = 0 then reports else reports.take limit

/-- The log keeps the first reports of the list, and counts the others. -/
structure Log.Shows (log : Log) (limit : Nat) (reports : List Diagnostic) : Prop where
  limited : log.limit = limit
  entries : log.entries = shown limit reports
  dropped : log.entries.length + log.dropped = reports.length

/-- The mark that a log with a limit takes when the list has a length. -/
def Checkpoint.atLength (limit length : Nat) : Checkpoint :=
  let kept := if limit = 0 then length else min limit length
  ⟨kept, length - kept⟩

/-! ## One log and one list -/

namespace Log.Shows

variable {log : Log} {limit : Nat} {reports : List Diagnostic}

theorem length_entries (h : log.Shows limit reports) :
    log.entries.length = if limit = 0 then reports.length else min limit reports.length := by
  rw [h.entries, shown]
  split
  · rfl
  · exact List.length_take

theorem isFull_iff (h : log.Shows limit reports) :
    log.isFull = true ↔ limit ≠ 0 ∧ limit ≤ reports.length := by
  have length := h.length_entries
  simp only [isFull, h.limited, Bool.and_eq_true, bne_iff_ne, decide_eq_true_eq]
  split at length <;> omega

/-- Until the log is full it has the whole list. -/
theorem entries_of_not_isFull (h : log.Shows limit reports) (room : ¬log.isFull = true) :
    log.entries = reports := by
  rw [h.isFull_iff] at room
  rw [h.entries, shown]
  split
  · rfl
  · exact List.take_of_length_le (by omega)

theorem push (h : log.Shows limit reports) (report : Diagnostic) :
    (log.push report).Shows limit (reports ++ [report]) := by
  have dropped := h.dropped
  by_cases full : log.isFull = true
  · obtain ⟨limited, reached⟩ := h.isFull_iff.mp full
    have pushed : log.push report = { log with dropped := log.dropped + 1 } := if_pos full
    rw [pushed]
    constructor
    · exact h.limited
    · rw [h.entries, shown, shown, if_neg limited, if_neg limited,
        List.take_append_of_le_length reached]
    · rw [List.length_append, List.length_singleton, ← dropped, Nat.add_assoc]
  · have whole := h.entries_of_not_isFull full
    have pushed : log.push report = { log with entries := log.entries ++ [report] } := if_neg full
    rw [h.isFull_iff] at full
    rw [pushed]
    constructor
    · exact h.limited
    · dsimp only
      rw [whole, shown]
      split
      · rfl
      · refine (List.take_of_length_le ?_).symm
        rw [List.length_append, List.length_singleton]
        omega
    · rw [List.length_append, List.length_append, ← dropped]
      exact Nat.add_right_comm _ _ _

theorem checkpoint (h : log.Shows limit reports) :
    log.checkpoint = .atLength limit reports.length := by
  have dropped := h.dropped
  simp only [Log.checkpoint, Checkpoint.atLength]
  rw [← h.length_entries]
  congr 1
  omega

/-- To go back to a mark is to truncate the list, also where the log no longer has all of it. -/
theorem rollback (h : log.Shows limit reports) {length : Nat} (le : length ≤ reports.length) :
    (log.rollback (.atLength limit length)).Shows limit (reports.take length) := by
  have kept := h.length_entries
  simp only [Log.rollback, Checkpoint.atLength]
  constructor
  · exact h.limited
  · dsimp only
    rw [h.entries, shown, shown]
    split
    · rfl
    · rw [List.take_take, List.take_take, Nat.min_right_comm, Nat.min_self]
  · rw [List.length_take, List.length_take, kept]
    dsimp only
    split <;> omega

/-- The list determines the log. -/
theorem unique (h : log.Shows limit reports) {other : Log} (h' : other.Shows limit reports) :
    log = other := by
  have first := h.dropped
  have second := h'.dropped
  have limits : log.limit = other.limit := h.limited.trans h'.limited.symm
  have entries : log.entries = other.entries := h.entries.trans h'.entries.symm
  rw [entries] at first
  have dropped : log.dropped = other.dropped := by omega
  cases log
  cases other
  cases limits
  cases entries
  cases dropped
  rfl

/-- A report is kept exactly while the list is shorter than the limit, and a caller is told so. -/
theorem record_iff (h : log.Shows limit reports) (report : Diagnostic) :
    ((log.record report).1 = true ↔ limit = 0 ∨ reports.length < limit) ∧
      ((log.record report).1 = true ↔ (log.record report).2.entries = log.entries ++ [report]) := by
  have room : (log.record report).1 = true ↔ ¬log.isFull = true := by simp [record]
  refine ⟨?_, ?_⟩
  · rw [room, h.isFull_iff]
    omega
  · rw [room, record, Log.push]
    split
    · simp [*]
    · simp [*]

end Log.Shows

/-! ## Marks -/

namespace Transcript

variable {transcript : Transcript} {mark length : Nat}

/-- A new mark has the length of the list, and the marks before it stay. -/
theorem length?_checkpoint (h : (transcript.step .checkpoint).length? mark = some length) :
    transcript.length? mark = some length ∨
      mark = transcript.marks.length ∧ length = transcript.reports.length := by
  simp only [step, length?] at h ⊢
  rw [List.getElem?_append] at h
  split at h
  · exact .inl h
  · rename_i new
    cases beyond : mark - transcript.marks.length with
    | zero =>
      rw [beyond] at h
      cases h
      exact .inr ⟨by omega, rfl⟩
    | succ later =>
      rw [beyond] at h
      cases h

/-- A rollback truncates the list, and leaves the marks that it has not gone back past. -/
theorem step_rollback (known : transcript.length? mark = some length) :
    transcript.step (.rollback mark) =
      ⟨transcript.reports.take length, transcript.marks.map (·.filter (· ≤ length))⟩ := by
  simp only [step, known]

theorem length?_rollback {other found : Nat} (known : transcript.length? mark = some length)
    (h : (transcript.step (.rollback mark)).length? other = some found) :
    transcript.length? other = some found ∧ found ≤ length := by
  rw [step_rollback known] at h
  simp only [length?, List.getElem?_map] at h ⊢
  cases taken : transcript.marks[other]? with
  | none => simp [taken] at h
  | some entry =>
    cases entry with
    | none => simp [taken] at h
    | some old =>
      obtain ⟨within, rfl⟩ : old ≤ length ∧ old = found := by simpa [taken, Option.filter] using h
      exact ⟨by simp, within⟩

/-- A mark that was taken when the list was `reports` has, until it is void, that list before it. -/
structure Keeps (transcript : Transcript) (mark : Nat) (reports : List Diagnostic) : Prop where
  taken : mark < transcript.marks.length
  unlessVoid : ∀ {length}, transcript.length? mark = some length →
    length = reports.length ∧ reports <+: transcript.reports

theorem keeps_checkpoint (transcript : Transcript) :
    (transcript.step .checkpoint).Keeps transcript.marks.length transcript.reports where
  taken := by simp [step]
  unlessVoid h := by
    rcases length?_checkpoint h with old | ⟨-, rfl⟩
    · simp [length?] at old
    · exact ⟨rfl, List.prefix_refl _⟩

theorem Keeps.step {reports : List Diagnostic} (h : transcript.Keeps mark reports)
    (step : LogStep) : (transcript.step step).Keeps mark reports := by
  cases step with
  | push report =>
    refine ⟨h.taken, fun known => ?_⟩
    obtain ⟨same, before⟩ := h.unlessVoid known
    exact ⟨same, before.trans (List.prefix_append _ _)⟩
  | checkpoint =>
    refine ⟨by simpa [Transcript.step] using Nat.lt_succ_of_lt h.taken, fun known => ?_⟩
    rcases length?_checkpoint known with old | ⟨new, -⟩
    · exact h.unlessVoid old
    · exact absurd h.taken (by omega)
  | rollback other =>
    cases known : transcript.length? other with
    | none => simpa [Transcript.step, known] using h
    | some length =>
      refine ⟨by simpa [step_rollback known] using h.taken, fun found => ?_⟩
      obtain ⟨old, within⟩ := length?_rollback known found
      obtain ⟨same, before⟩ := h.unlessVoid old
      rw [step_rollback known]
      exact ⟨same, List.prefix_take_iff.mpr ⟨before, same ▸ within⟩⟩

theorem Keeps.after {reports : List Diagnostic} (h : transcript.Keeps mark reports)
    (steps : List LogStep) : (steps.foldl Transcript.step transcript).Keeps mark reports := by
  induction steps generalizing transcript with
  | nil => exact h
  | cons step rest ih => exact ih (h.step step)

theorem allows_append {first second : List LogStep} :
    transcript.Allows (first ++ second) ↔
      transcript.Allows first ∧ (first.foldl step transcript).Allows second := by
  induction first generalizing transcript with
  | nil => simp [Allows]
  | cons step rest ih => simp only [List.cons_append, Allows, ih, List.foldl_cons, and_assoc]

theorem allows_of_prefix {steps begun : List LogStep} (allowed : transcript.Allows steps)
    (begins : begun <+: steps) : transcript.Allows begun := by
  obtain ⟨rest, rfl⟩ := begins
  exact (allows_append.mp allowed).1

/-- A rollback that is allowed gives back the list as it was at its mark. -/
theorem reports_rollback {before between : List LogStep}
    (allowed : Allows {} (before ++ .checkpoint :: between ++ [.rollback mark]))
    (named : mark = (after before).marks.length) :
    (after (before ++ .checkpoint :: between ++ [.rollback mark])).reports =
      (after before).reports := by
  have kept : (after (before ++ .checkpoint :: between)).Keeps mark (after before).reports := by
    rw [named]
    simp only [after, List.foldl_append, List.foldl_cons]
    exact (after before).keeps_checkpoint.after between
  have usable : ((after (before ++ .checkpoint :: between)).length? mark).isSome :=
    (allows_append.mp allowed).2.1
  obtain ⟨length, known⟩ := Option.isSome_iff_exists.mp usable
  obtain ⟨same, begins⟩ := kept.unlessVoid known
  have ended : after (before ++ .checkpoint :: between ++ [.rollback mark]) =
      (after (before ++ .checkpoint :: between)).step (.rollback mark) := by
    simp only [after, List.foldl_append, List.foldl_cons, List.foldl_nil]
  rw [ended, step_rollback known, same]
  exact (List.prefix_iff_eq_take.mp begins).symm

end Transcript

/-! ## Sessions -/

namespace LogSession

/-- The session shows the list, and has the marks that are not void. -/
structure Follows (session : LogSession) (limit : Nat) (transcript : Transcript) : Prop where
  shows : session.log.Shows limit transcript.reports
  count : session.marks.length = transcript.marks.length
  marks : ∀ {mark length}, transcript.length? mark = some length →
    length ≤ transcript.reports.length ∧ session.marks[mark]? = some (.atLength limit length)

theorem follows_new (limit : Nat) : (after limit []).Follows limit {} where
  shows := ⟨rfl, by simp [after, shown], rfl⟩
  count := rfl
  marks h := by simp [Transcript.length?] at h

theorem Follows.step {session : LogSession} {limit : Nat} {transcript : Transcript}
    (h : session.Follows limit transcript) {step : LogStep} (allowed : step.Allowed transcript) :
    (session.step step).Follows limit (transcript.step step) := by
  cases step with
  | push report =>
    refine ⟨h.shows.push report, h.count, fun known => ?_⟩
    obtain ⟨within, taken⟩ := h.marks known
    refine ⟨?_, taken⟩
    simp only [Transcript.step, List.length_append]
    omega
  | checkpoint =>
    refine ⟨h.shows, by simp [LogSession.step, Transcript.step, h.count], fun known => ?_⟩
    simp only [LogSession.step]
    rcases Transcript.length?_checkpoint known with old | ⟨rfl, rfl⟩
    · obtain ⟨within, taken⟩ := h.marks old
      exact ⟨within, (List.getElem?_append_left (List.getElem?_eq_some_iff.mp taken).1).trans taken⟩
    · refine ⟨Nat.le_refl _, ?_⟩
      rw [← h.count, h.shows.checkpoint]
      exact List.getElem?_concat_length
  | rollback mark =>
    obtain ⟨length, known⟩ := Option.isSome_iff_exists.mp allowed
    obtain ⟨within, taken⟩ := h.marks known
    have back : session.step (.rollback mark) =
        { session with log := session.log.rollback (.atLength limit length) } := by
      simp only [LogSession.step, taken]
    rw [back, Transcript.step_rollback known]
    refine ⟨h.shows.rollback within, by simpa using h.count, fun {other found} kept => ?_⟩
    rw [← Transcript.step_rollback known] at kept
    obtain ⟨old, before⟩ := Transcript.length?_rollback known kept
    refine ⟨?_, (h.marks old).2⟩
    rw [List.length_take]
    omega

theorem Follows.after {session : LogSession} {limit : Nat} {transcript : Transcript}
    (h : session.Follows limit transcript) {steps : List LogStep}
    (allowed : transcript.Allows steps) :
    (steps.foldl LogSession.step session).Follows limit
      (steps.foldl Transcript.step transcript) := by
  induction steps generalizing session transcript with
  | nil => exact h
  | cons step rest ih => exact ih (h.step allowed.1) allowed.2

/-- A limited log is a list without a limit, seen through a window. At every point of a session the
entries are the first reports of the list and the count is that of the others, a report is kept
while the window has room, and going back to a mark restores the log as it was at the mark. -/
theorem refines_transcript (limit : Nat) (steps : List LogStep)
    (allowed : Transcript.Allows {} steps) :
    (∀ before, before <+: steps →
      (after limit before).log.Shows limit (Transcript.after before).reports) ∧
    (∀ before report, before ++ [.push report] <+: steps →
      let (kept, log) := (after limit before).log.record report
      (kept = true ↔ limit = 0 ∨ (Transcript.after before).reports.length < limit) ∧
        (kept = true ↔ log.entries = (after limit before).log.entries ++ [report]) ∧
        (after limit (before ++ [.push report])).log = log) ∧
    ∀ before between mark, before ++ .checkpoint :: between ++ [.rollback mark] <+: steps →
      mark = (after limit before).marks.length →
      (after limit (before ++ .checkpoint :: between ++ [.rollback mark])).log =
        (after limit before).log := by
  have follows (before : List LogStep) (begins : before <+: steps) :
      (after limit before).Follows limit (Transcript.after before) := by
    exact (follows_new limit).after (Transcript.allows_of_prefix allowed begins)
  refine ⟨fun before begins => (follows before begins).shows, ?_, ?_⟩
  · intro before report begins
    have shows := (follows before ((List.prefix_append _ _).trans begins)).shows
    obtain ⟨room, kept⟩ := shows.record_iff report
    refine ⟨room, kept, ?_⟩
    simp only [after, List.foldl_append]
    rfl
  · intro before between mark begins named
    have start := follows before
      ((List.prefix_append _ _).trans ((List.prefix_append _ _).trans begins))
    have finish := (follows _ begins).shows
    rw [Transcript.reports_rollback (Transcript.allows_of_prefix allowed begins)
      (named.trans start.count)] at finish
    exact finish.unique start.shows

/-- With room for one report, marks are taken before, at and after the limit. Going back to the
last, to the one before, and after two more reports to the first, leaves the new log. -/
theorem nested_marks_restored :
    let report : Diagnostic := { code := .unknownName }
    let steps : List LogStep := [.checkpoint, .push report, .checkpoint, .push report, .checkpoint,
      .push report, .rollback 2, .rollback 1, .push report, .push report, .rollback 0]
    Transcript.Allows {} steps ∧
      (after 1 (steps.take 10)).log.Shows 1 [report, report, report] ∧
      (after 1 steps).log = { limit := 1 } := by
  intro report steps
  have allowed : Transcript.Allows {} steps := by decide
  obtain ⟨shows, -, restores⟩ := refines_transcript 1 steps allowed
  exact ⟨allowed, shows (steps.take 10) (List.take_prefix _ _),
    restores [] ((steps.take 10).drop 1) 0 (List.prefix_refl _) rfl⟩

end LogSession
end FormLowering
