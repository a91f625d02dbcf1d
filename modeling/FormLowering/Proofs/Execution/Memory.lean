import FormLowering.Proofs.Execution.Outcome
import FormLowering.Proofs.Execution.Shape

/-!
Laws of memory. What is written is read back, what lies apart is not touched, and the last write
wins. A write that traps cannot be seen, although it may have brought its object into memory.
-/

namespace FormLowering

/-- Neither path leads through the end of the other. -/
structure Apart (path other : List Nat) : Prop where
  beyond : ¬path <+: other
  before : ¬other <+: path

theorem Apart.of_cons {index : Nat} {path other : List Nat}
    (h : Apart (index :: path) (index :: other)) : Apart path other :=
  ⟨fun within => h.beyond (List.cons_prefix_cons.mpr ⟨rfl, within⟩),
    fun within => h.before (List.cons_prefix_cons.mpr ⟨rfl, within⟩)⟩

namespace Datum

variable {datum value changed : Datum} {path other : List Nat}

theorem get_set_self (h : Datum.set value datum path = .ok changed) :
    changed.get path = .ok value := by
  induction path generalizing datum changed with
  | nil =>
    cases h
    cases value <;> rfl
  | cons index path ih =>
    obtain ⟨items, item, part, rfl, hitem, hpart, rfl⟩ := set_cons_eq_ok.mp h
    have hlt : index < items.length := (List.getElem?_eq_some_iff.mp hitem).1
    rw [get_aggregate (List.getElem?_set_self hlt)]
    exact ih hpart

theorem get_set_apart (apart : Apart path other)
    (h : Datum.set value datum path = .ok changed) : changed.get other = datum.get other := by
  induction path generalizing datum changed other with
  | nil => exact absurd List.nil_prefix apart.beyond
  | cons index path ih =>
    obtain ⟨items, item, part, rfl, hitem, hpart, rfl⟩ := set_cons_eq_ok.mp h
    cases other with
    | nil => exact absurd List.nil_prefix apart.before
    | cons first rest =>
      by_cases same : index = first
      · subst same
        have hlt : index < items.length := (List.getElem?_eq_some_iff.mp hitem).1
        rw [get_aggregate (List.getElem?_set_self hlt), get_aggregate hitem]
        exact ih apart.of_cons hpart
      · simp only [Datum.get]
        rw [List.getElem?_set_ne same]

/-- Where one value can be put, so can any other. -/
theorem set_defined (h : Datum.set value datum path = .ok changed) (next : Datum) :
    ∃ last, Datum.set next datum path = .ok last := by
  induction path generalizing datum changed with
  | nil => exact ⟨next, by simp [Datum.set]⟩
  | cons index path ih =>
    obtain ⟨items, item, part, rfl, hitem, hpart, rfl⟩ := set_cons_eq_ok.mp h
    obtain ⟨last, hlast⟩ := ih hpart
    exact ⟨_, set_cons_eq_ok.mpr ⟨items, item, last, rfl, hitem, hlast, rfl⟩⟩

/-- Of two values put in the same place the first leaves nothing behind. -/
theorem set_set (h : Datum.set value datum path = .ok changed) (next : Datum) :
    Datum.set next changed path = Datum.set next datum path := by
  induction path generalizing datum changed with
  | nil => simp [Datum.set]
  | cons index path ih =>
    obtain ⟨items, item, part, rfl, hitem, hpart, rfl⟩ := set_cons_eq_ok.mp h
    have hlt : index < items.length := (List.getElem?_eq_some_iff.mp hitem).1
    rw [set_aggregate (List.getElem?_set_self hlt), set_aggregate hitem, ih hpart]
    simp only [List.set_set]

end Datum

/-- The machines have the same values and the same objects. -/
structure Machine.Same (machine other : Machine) : Prop where
  values : machine.values = other.values
  objects : ∀ root, machine.object? root = other.object? root

namespace Program

variable (program : Program)

/-- What a write of a datum at an address leaves: it is read back, what lies apart is as it was, and
nothing but the next write at the address is left after that. -/
structure Written (machine later : Machine) (address : Address) (datum : Datum) : Prop where
  reads : program.read later address = .ok datum
  apart : ∀ other : Address, other.root ≠ address.root ∨ Apart address.path other.path →
    program.read later other = program.read machine other
  overwritten : ∀ next, ∃ last direct,
    (program.write address next).outcome later = (.ok (), last) ∧
    (program.write address next).outcome machine = (.ok (), direct) ∧ last.Same direct

variable {program} {machine : Machine}

theorem object_setObject (root other : Root) (object : Datum) :
    program.object (machine.setObject root object) other =
      if other = root then .ok object else program.object machine other := by
  rw [Program.object, Machine.object?_setObject]
  by_cases same : other = root
  · rw [if_pos same, if_pos same]
  · rw [if_neg same, if_neg same]
    rfl

/-- To bring an object into memory as it starts cannot be seen. -/
theorem read_loaded {root : Root} {object : Datum} (h : program.object machine root = .ok object)
    (other : Address) :
    program.read (machine.setObject root object) other = program.read machine other := by
  simp only [Program.read, object_setObject]
  split
  · rename_i same
    rw [same, h]
  · rfl

section Write

variable {address : Address} {datum : Datum}

theorem outcome_write_ok {object changed : Datum}
    (hobject : program.object machine address.root = .ok object)
    (hset : Datum.set datum object address.path = .ok changed) :
    (program.write address datum).outcome machine =
      (.ok (), (machine.setObject address.root object).setObject address.root changed) := by
  rw [outcome_write, hobject]
  dsimp only
  rw [hset]

/-- A write that succeeds replaces a component of the object at the root. -/
theorem of_write_ok {later : Machine}
    (h : (program.write address datum).outcome machine = (.ok (), later)) :
    ∃ object changed, program.object machine address.root = .ok object ∧
      Datum.set datum object address.path = .ok changed ∧
      later = (machine.setObject address.root object).setObject address.root changed := by
  rw [outcome_write] at h
  cases hobject : program.object machine address.root with
  | error trap =>
    rw [hobject] at h
    cases h
  | ok object =>
    rw [hobject] at h
    dsimp only at h
    cases hset : Datum.set datum object address.path with
    | error trap =>
      rw [hset] at h
      cases h
    | ok changed =>
      rw [hset] at h
      cases h
      exact ⟨object, changed, rfl, hset, rfl⟩

theorem written_of_ok {later : Machine}
    (h : (program.write address datum).outcome machine = (.ok (), later)) :
    program.Written machine later address datum := by
  obtain ⟨object, changed, hobject, hset, rfl⟩ := of_write_ok h
  have now : program.object
      ((machine.setObject address.root object).setObject address.root changed) address.root =
        .ok changed := by
    rw [object_setObject, if_pos rfl]
  refine ⟨?_, fun other apart => ?_, fun next => ?_⟩
  · simp only [Program.read]
    rw [now]
    exact Datum.get_set_self hset
  · by_cases same : other.root = address.root
    · have apart := apart.resolve_left (absurd same)
      simp only [Program.read]
      rw [same, now, hobject]
      exact Datum.get_set_apart apart hset
    · simp only [Program.read]
      rw [object_setObject, if_neg same, object_setObject, if_neg same]
  · obtain ⟨last, hlast⟩ := Datum.set_defined hset next
    have again := (Datum.set_set hset next).trans hlast
    refine ⟨_, _, outcome_write_ok now again, outcome_write_ok hobject hlast, rfl, fun root => ?_⟩
    simp only [Machine.object?_setObject]
    split <;> rfl

theorem read_of_error {later : Machine} {trap : Trap}
    (h : (program.write address datum).outcome machine = (.error trap, later)) (other : Address) :
    program.read later other = program.read machine other := by
  rw [outcome_write] at h
  cases hobject : program.object machine address.root with
  | error _ =>
    rw [hobject] at h
    cases h
    rfl
  | ok object =>
    rw [hobject] at h
    dsimp only at h
    cases hset : Datum.set datum object address.path with
    | error _ =>
      rw [hset] at h
      cases h
      exact read_loaded hobject other
    | ok changed =>
      rw [hset] at h
      cases h

end Write

/-- The laws of memory, for any machine, any address and any datum: a write that succeeds leaves
what `Written` says, and one that traps leaves every address with the answer that it had. The
same holds of a store instruction, which writes one operand at the other. -/
theorem write_lawful (program : Program) (machine : Machine) :
    (∀ address datum, match (program.write address datum).outcome machine with
      | (.ok _, later) => program.Written machine later address datum
      | (.error _, later) => ∀ other, program.read later other = program.read machine other) ∧
    ∀ id value pointer, match (program.execute id (.store value pointer)).outcome machine with
      | (.ok _, later) => ∃ address datum, program.addressIn machine pointer = .ok address ∧
          program.value machine value = .ok datum ∧ program.Written machine later address datum
      | (.error _, later) => ∀ other, program.read later other = program.read machine other := by
  constructor
  · intro address datum
    split
    · rename_i later ended
      exact written_of_ok ended
    · rename_i trap later ended
      exact read_of_error ended
  · intro id value pointer
    rw [outcome_store]
    cases program.addressIn machine pointer with
    | error trap => exact fun other => rfl
    | ok address =>
      cases program.value machine value with
      | error trap => exact fun other => rfl
      | ok datum =>
        dsimp only
        split
        · rename_i answer later stored
          split at stored
          · rename_i ended
            cases stored
            exact ⟨address, datum, rfl, rfl, written_of_ok ended⟩
          · cases stored
        · rename_i trap later stored
          split at stored
          · cases stored
          · rename_i ended
            cases stored
            exact read_of_error ended

/-- The first write to a global may trap after its object was brought into memory. -/
example :
    let ended := ((default : Program).write ⟨.global ⟨0⟩, [0]⟩ (.int 7)).outcome {}
    ended.1.isOk = false ∧ ended.2.memory.length = 1 := by decide +kernel

end Program
end FormLowering
