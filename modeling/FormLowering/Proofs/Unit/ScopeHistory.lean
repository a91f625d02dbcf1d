import Mathlib.Data.List.Infix
import FormLowering.Unit.Scope

/-!
Scopes by their history. The events that opened and closed scopes and declared variables tell which
scopes are open, which names each of them has, and which variable a name means: the latest one that
was declared in a scope that is still open.
-/

namespace FormLowering

inductive ScopeEvent where
  | opened
  | closed
  | declared (x : Variable)
  deriving DecidableEq

namespace ScopeEvent

/-- The scope that was innermost before the events is open after them: at no time were more scopes
closed than opened. -/
def StaysOpen (events : List ScopeEvent) : Prop :=
  ∀ early, early <+: events → early.count closed ≤ early.count opened

/-- The scope that was innermost before the events is open after them, and so are `inner` more in
it. -/
structure Above (events : List ScopeEvent) (inner : Nat) : Prop where
  held : StaysOpen events
  opened : events.count opened = events.count closed + inner

/-- An event of a kind happened when the scope was innermost that now has `inner` scopes in it. -/
def Happened (kind : ScopeEvent → Prop) (history : List ScopeEvent) (inner : Nat) : Prop :=
  ∃ before event after, history = before ++ event :: after ∧ kind event ∧ Above after inner

/-- The event declares a variable of the name. -/
def Declares (name : String) (event : ScopeEvent) : Prop :=
  ∃ x, event = declared x ∧ x.name = name

/-- The variable is the latest one declared under the name, among those whose scope is `held` by
the events that came after. -/
def Latest (held : List ScopeEvent → Prop) (history : List ScopeEvent) (name : String)
    (x : Variable) : Prop :=
  ∃ before after, history = before ++ declared x :: after ∧ x.name = name ∧ held after ∧
    ∀ between y rest, after = between ++ declared y :: rest → y.name = name → ¬held rest

/-- The latest variable declared under the name whose scope is still open. -/
def Visible : List ScopeEvent → String → Variable → Prop := Latest StaysOpen

instance (events : List ScopeEvent) : Decidable (StaysOpen events) :=
  decidable_of_iff (∀ early ∈ events.inits, early.count closed ≤ early.count opened)
    (by simp [StaysOpen])

instance (events : List ScopeEvent) (inner : Nat) : Decidable (Above events inner) :=
  decidable_of_iff (StaysOpen events ∧ events.count opened = events.count closed + inner)
    ⟨fun h => ⟨h.1, h.2⟩, fun h => ⟨h.held, h.opened⟩⟩

/-! ## One more event -/

/-- What stands in a history with one more event is that event, or it stood there before. -/
theorem concat_eq_append_cons {history before after : List ScopeEvent} {last event : ScopeEvent} :
    history ++ [last] = before ++ event :: after ↔
      (before = history ∧ event = last ∧ after = []) ∨
        ∃ rest, history = before ++ event :: rest ∧ after = rest ++ [last] := by
  constructor
  · intro same
    rcases List.eq_nil_or_concat' after with rfl | ⟨rest, final, rfl⟩
    · obtain ⟨rfl, rfl⟩ := List.append_singleton_inj.mp same
      exact .inl ⟨rfl, rfl, rfl⟩
    · rw [← List.cons_append, ← List.append_assoc] at same
      obtain ⟨rfl, rfl⟩ := List.append_singleton_inj.mp same
      exact .inr ⟨rest, rfl, rfl⟩
  · rintro (⟨rfl, rfl, rfl⟩ | ⟨rest, rfl, rfl⟩)
    · rfl
    · simp

variable {history : List ScopeEvent} {last : ScopeEvent} {inner : Nat}

theorem above_nil : Above [] inner ↔ inner = 0 := by
  constructor
  · intro h
    simpa using h.opened.symm
  · rintro rfl
    exact ⟨fun early le => by simp [List.prefix_nil.mp le], rfl⟩

/-- The scopes that were held before an event are held after it, if its count comes out right. -/
theorem above_concat {before : Nat}
    (count : before + [last].count .opened = inner + [last].count .closed) :
    Above (history ++ [last]) inner ↔ Above history before := by
  constructor
  · rintro ⟨held, total⟩
    refine ⟨fun early le => held early (le.trans (List.prefix_append _ _)), ?_⟩
    rw [List.count_append, List.count_append] at total
    omega
  · rintro ⟨held, total⟩
    refine ⟨fun early le => ?_, ?_⟩
    · rcases List.prefix_concat_iff.mp le with rfl | le
      · rw [List.count_append, List.count_append]
        omega
      · exact held early le
    · rw [List.count_append, List.count_append]
      omega

theorem above_opened : Above (history ++ [.opened]) (inner + 1) ↔ Above history inner :=
  above_concat rfl

theorem not_above_opened : ¬Above (history ++ [.opened]) 0 := by
  rintro ⟨held, total⟩
  have := held history (List.prefix_append _ _)
  simp at total
  omega

theorem above_closed : Above (history ++ [.closed]) inner ↔ Above history (inner + 1) :=
  above_concat rfl

theorem above_declared (x : Variable) :
    Above (history ++ [.declared x]) inner ↔ Above history inner :=
  above_concat rfl

/-- The scope that was innermost is open, and so are at least `inner` more in it. -/
def Beyond (inner : Nat) (events : List ScopeEvent) : Prop :=
  ∃ more, Above events (inner + more)

theorem beyond_nil : Beyond inner [] ↔ inner = 0 := by
  simp only [Beyond, above_nil]
  constructor
  · rintro ⟨more, none⟩
    omega
  · exact fun none => ⟨0, none⟩

theorem beyond_opened : Beyond inner (history ++ [.opened]) ↔ Beyond (inner - 1) history := by
  constructor
  · rintro ⟨more, above⟩
    obtain total | ⟨n, total⟩ : inner + more = 0 ∨ ∃ n, inner + more = n + 1 := by
      cases inner + more <;> simp
    · exact absurd (total ▸ above) not_above_opened
    · rw [total, above_opened] at above
      exact ⟨n - (inner - 1), by rwa [show inner - 1 + (n - (inner - 1)) = n by omega]⟩
  · rintro ⟨more, above⟩
    refine ⟨inner - 1 + more + 1 - inner, ?_⟩
    rw [show inner + (inner - 1 + more + 1 - inner) = inner - 1 + more + 1 by omega, above_opened]
    exact above

theorem beyond_closed : Beyond inner (history ++ [.closed]) ↔ Beyond (inner + 1) history := by
  simp only [Beyond, above_closed, Nat.add_right_comm inner 1]

theorem beyond_declared (x : Variable) :
    Beyond inner (history ++ [.declared x]) ↔ Beyond inner history := by
  simp only [Beyond, above_declared]

theorem beyond_zero : Beyond 0 history ↔ StaysOpen history := by
  constructor
  · exact fun ⟨_, above⟩ => above.held
  · intro held
    obtain ⟨inner, same⟩ := Nat.exists_eq_add_of_le (held history List.prefix_rfl)
    exact ⟨inner, held, by omega⟩

section Happened

variable {kind : ScopeEvent → Prop}

theorem happened_nil : ¬Happened kind [] inner := by
  rintro ⟨before, event, after, same, -⟩
  simp at same

/-- What happened is the last event, or it happened before. -/
theorem happened_concat :
    Happened kind (history ++ [last]) inner ↔
      (kind last ∧ inner = 0) ∨ ∃ before event after, history = before ++ event :: after ∧
        kind event ∧ Above (after ++ [last]) inner := by
  constructor
  · rintro ⟨before, event, after, same, isKind, above⟩
    rcases concat_eq_append_cons.mp same with ⟨rfl, rfl, rfl⟩ | ⟨rest, rfl, rfl⟩
    · exact .inl ⟨isKind, above_nil.mp above⟩
    · exact .inr ⟨before, event, rest, rfl, isKind, above⟩
  · rintro (⟨isKind, rfl⟩ | ⟨before, event, after, rfl, isKind, above⟩)
    · exact ⟨history, last, [], rfl, isKind, above_nil.mpr rfl⟩
    · exact ⟨before, event, after ++ [last], by simp, isKind, above⟩

theorem happened_opened : Happened kind (history ++ [.opened]) (inner + 1) ↔
    Happened kind history inner := by
  rw [happened_concat]
  simp [above_opened, Happened]

theorem happened_opened_zero : Happened kind (history ++ [.opened]) 0 ↔ kind .opened := by
  simp [happened_concat, not_above_opened]

theorem happened_closed (other : ¬kind .closed) :
    Happened kind (history ++ [.closed]) inner ↔ Happened kind history (inner + 1) := by
  rw [happened_concat]
  simp [above_closed, Happened, other]

theorem happened_declared (x : Variable) : Happened kind (history ++ [.declared x]) inner ↔
    (kind (.declared x) ∧ inner = 0) ∨ Happened kind history inner := by
  rw [happened_concat]
  simp [above_declared, Happened]

end Happened

section Latest

variable {held heldBefore : List ScopeEvent → Prop} {name : String} {x : Variable}

theorem latest_nil : ¬Latest held [] name x := by
  rintro ⟨before, after, same, -⟩
  simp at same

/-- The latest variable is the one that the last event declares, if its scope is held; if not, it
is the latest before. -/
theorem latest_concat (step : ∀ events, held (events ++ [last]) ↔ heldBefore events) :
    Latest held (history ++ [last]) name x ↔
      (last = .declared x ∧ x.name = name ∧ held []) ∨
      (¬(Declares name last ∧ held []) ∧ Latest heldBefore history name x) := by
  constructor
  · rintro ⟨before, after, same, named, isHeld, final⟩
    rcases concat_eq_append_cons.mp same with ⟨rfl, rfl, rfl⟩ | ⟨after, rfl, rfl⟩
    · exact .inl ⟨rfl, named, isHeld⟩
    · refine .inr ⟨?_, before, after, rfl, named, (step after).mp isHeld, ?_⟩
      · rintro ⟨⟨y, rfl, sameName⟩, here⟩
        exact final after y [] rfl sameName here
      · rintro between y rest rfl sameName there
        exact final between y (rest ++ [last]) (by simp) sameName ((step rest).mpr there)
  · rintro (⟨rfl, named, here⟩ | ⟨silent, before, after, rfl, named, isHeld, final⟩)
    · exact ⟨history, [], rfl, named, here, fun between y rest same => by simp at same⟩
    · refine ⟨before, after ++ [last], by simp, named, (step after).mpr isHeld, ?_⟩
      intro between y rest same sameName there
      rcases concat_eq_append_cons.mp same with ⟨rfl, rfl, rfl⟩ | ⟨rest, rfl, rfl⟩
      · exact silent ⟨⟨y, rfl, sameName⟩, there⟩
      · exact final between y rest rfl sameName ((step rest).mp there)

theorem latest_opened : Latest (Beyond inner) (history ++ [.opened]) name x ↔
    Latest (Beyond (inner - 1)) history name x := by
  simp [latest_concat fun _ => beyond_opened, Declares]

theorem latest_closed : Latest (Beyond inner) (history ++ [.closed]) name x ↔
    Latest (Beyond (inner + 1)) history name x := by
  simp [latest_concat fun _ => beyond_closed, Declares]

theorem latest_declared (y : Variable) : Latest (Beyond inner) (history ++ [.declared y]) name x ↔
    if y.name = name ∧ inner = 0 then y = x else Latest (Beyond inner) history name x := by
  rw [latest_concat fun _ => beyond_declared y]
  split
  · rename_i here
    obtain ⟨rfl, rfl⟩ := here
    simp [Declares, beyond_nil]
    rintro rfl
    rfl
  · rename_i elsewhere
    simp only [Declares, beyond_nil, declared.injEq, exists_eq_left', elsewhere, not_false_eq_true,
      true_and, or_iff_right_iff_imp]
    rintro ⟨rfl, named, none⟩
    exact absurd ⟨named, none⟩ elsewhere

theorem visible_eq : Visible = Latest (Beyond 0) :=
  congrArg Latest (funext fun _ => propext beyond_zero.symm)

end Latest
end ScopeEvent

/-! ## The scopes that a history leaves -/

theorem Variable.named?_concat (vars : List Variable) (x : Variable) (name : String) :
    named? (vars ++ [x]) name = (named? vars name).or (if x.name = name then some x else none) := by
  simp [named?, List.find?_append, List.find?_singleton]

namespace ScopeStack

open ScopeEvent

/-- The events lead from one stack of scopes to another. A scope takes a name only once. -/
inductive Undergoes (start : ScopeStack) : List ScopeEvent → ScopeStack → Prop
  | nil : Undergoes start [] start
  | opened {events : List ScopeEvent} {stack : ScopeStack} : Undergoes start events stack →
      Undergoes start (events ++ [.opened]) stack.push
  | closed {events : List ScopeEvent} {stack : ScopeStack} : Undergoes start events stack →
      Undergoes start (events ++ [.closed]) stack.pop
  | declared {events : List ScopeEvent} {scope : List Variable} {rest : List (List Variable)}
      {x : Variable} : Undergoes start events ⟨scope :: rest⟩ →
      Variable.named? scope x.name = none →
      Undergoes start (events ++ [.declared x]) ⟨(scope ++ [x]) :: rest⟩

namespace Undergoes

variable {start stack : ScopeStack} {events : List ScopeEvent} {inner : Nat} {name : String}

/-- The scopes that were open around the innermost one are what they were, as long as that one is
not closed. -/
theorem drop (h : Undergoes start events stack) (above : Above events inner) :
    stack.scopes.drop (inner + 1) = start.scopes.tail := by
  induction h generalizing inner with
  | nil =>
    obtain rfl := above_nil.mp above
    exact List.drop_one
  | opened _ ih =>
    cases inner with
    | zero => exact absurd above not_above_opened
    | succ inner => exact ih (above_opened.mp above)
  | @closed events stack _ ih =>
    rw [← ih (above_closed.mp above), pop, List.drop_tail]
  | declared _ _ ih => exact ih ((above_declared _).mp above)

/-- A scope is open for each that was opened and not closed again. -/
theorem lt_length (h : Undergoes {} events stack) :
    Happened (· = .opened) events inner ↔ inner < stack.scopes.length := by
  induction h generalizing inner with
  | nil => simp [happened_nil]
  | opened _ ih =>
    cases inner with
    | zero => simp [happened_opened_zero, push]
    | succ inner => simp [happened_opened, ih, push]
  | closed _ ih =>
    rw [happened_closed nofun, ih, pop, List.length_tail]
    omega
  | declared _ _ ih => simp [happened_declared, ih]

/-- An open scope has the names that were declared in it. -/
theorem named (h : Undergoes {} events stack) :
    Happened (Declares name) events inner ↔
      ∃ scope, stack.scopes[inner]? = some scope ∧ (Variable.named? scope name).isSome := by
  induction h generalizing inner with
  | nil => simp [happened_nil]
  | opened _ ih =>
    cases inner with
    | zero => simp [happened_opened_zero, push, Declares, Variable.named?]
    | succ inner => simp [happened_opened, ih, push]
  | closed _ ih => simp [happened_closed, ih, pop, Declares]
  | declared _ _ ih =>
    rw [happened_declared, ih]
    cases inner with
    | zero => simp [Declares, Variable.named?, or_comm]
    | succ inner => simp

/-- Among the outer scopes, a name means the latest variable that was declared under it there. -/
theorem lookup_drop (h : Undergoes {} events stack) {x : Variable} :
    (stack.scopes.drop inner).findSome? (Variable.named? · name) = some x ↔
      Latest (Beyond inner) events name x := by
  induction h generalizing inner with
  | nil => simp [latest_nil]
  | opened _ ih =>
    rw [latest_opened, ← ih]
    cases inner <;> rfl
  | closed _ ih => rw [latest_closed, ← ih, pop, List.drop_tail]
  | @declared events scope rest y _ fresh ih =>
    rw [latest_declared, ← ih]
    cases inner with
    | succ inner => simp
    | zero =>
      rw [List.drop_zero, List.drop_zero, List.findSome?_cons, List.findSome?_cons,
        Variable.named?_concat]
      by_cases same : y.name = name
      · subst same
        rw [if_pos rfl, if_pos ⟨rfl, rfl⟩, fresh]
        exact Option.some_inj
      · rw [if_neg same, if_neg fun both => same both.1, Option.or_none]

theorem lookup (h : Undergoes {} events stack) {x : Variable} :
    stack.lookup? name = some x ↔ Visible events name x := by
  rw [visible_eq, ← h.lookup_drop, List.drop_zero, lookup?]

/-- A name can be declared where a scope is open, and the innermost one has not declared it. -/
theorem canBind_iff (h : Undergoes {} events stack) : stack.canBind name = true ↔
    (∃ inner, Happened (· = .opened) events inner) ∧ ¬Happened (Declares name) events 0 := by
  simp only [h.lt_length, h.named, canBind, innermost?]
  cases stack.scopes with
  | nil => simp
  | cons scope rest =>
    have isOpen : ∃ inner, inner < (scope :: rest).length := ⟨0, Nat.succ_pos _⟩
    rw [and_iff_right isOpen]
    simp

theorem bind (h : Undergoes start events stack) {x : Variable}
    (room : stack.canBind x.name = true) :
    Undergoes start (events ++ [.declared x]) ((stack.bind? x).getD stack) := by
  obtain ⟨scopes⟩ := stack
  cases scopes with
  | nil => cases room
  | cons scope rest =>
    simp only [bind?, room, if_true, Option.getD_some]
    exact .declared h (by simpa [canBind, innermost?] using room)

end Undergoes
end ScopeStack
end FormLowering
