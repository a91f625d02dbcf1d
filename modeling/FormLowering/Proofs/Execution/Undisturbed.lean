import FormLowering.Proofs.Execution.Memory
import FormLowering.Proofs.Execution.Run

/-!
Globals that nothing was stored to. Whatever else was executed, and wherever it trapped, such a
global reads as its initializer, and an address computed in it stays the same.
-/

namespace FormLowering
namespace Program

variable {program : Program} {machine : Machine} {global : GlobalId} {id : ValueId}
  {instruction : Instruction}

/-- To execute the instruction is to store something in the global; a store that traps is none. -/
inductive StoresIn (program : Program) (machine : Machine) (global : GlobalId) :
    Instruction → Prop
  | store {value pointer : ValueId} {address : Address} {datum : Datum} {later : Machine} :
      program.addressIn machine pointer = .ok address → address.root = .global global →
      program.value machine value = .ok datum →
      (program.write address datum).outcome machine = (.ok (), later) →
      StoresIn program machine global (.store value pointer)

theorem StoresIn.isStore (h : program.StoresIn machine global instruction) :
    instruction.isStore = true := by
  cases h
  rfl

/-- A machine that instructions of the module led to, in any order and past any traps, and none of
which stored in the global. -/
inductive Undisturbed (program : Program) (global : GlobalId) : Machine → Prop
  | empty : Undisturbed program global {}
  | step {machine : Machine} {id : ValueId} {instruction : Instruction} :
      Undisturbed program global machine → program.module.instruction? id = some instruction →
      ¬program.StoresIn machine global instruction →
      Undisturbed program global ((program.step id instruction).outcome machine).2

/-! ## One instruction -/

/-- The later machine has the values of the earlier one, and the same object for the global. -/
structure Leaves (program : Program) (global : GlobalId) (machine later : Machine) : Prop where
  values : later.values = machine.values
  object : program.object later (.global global) = program.object machine (.global global)

theorem leaves_refl (machine : Machine) : program.Leaves global machine machine :=
  ⟨rfl, rfl⟩

theorem leaves_write {address : Address} {datum : Datum}
    (calm : ∀ later, address.root = .global global →
      (program.write address datum).outcome machine ≠ (.ok (), later)) :
    program.Leaves global machine ((program.write address datum).outcome machine).2 := by
  rw [outcome_write] at calm ⊢
  cases hobject : program.object machine address.root with
  | error trap => exact leaves_refl machine
  | ok object =>
    rw [hobject] at calm
    dsimp only at calm ⊢
    cases hset : Datum.set datum object address.path with
    | error trap =>
      refine ⟨rfl, ?_⟩
      rw [object_setObject]
      split
      · rename_i same
        rw [same, hobject]
      · rfl
    | ok changed =>
      rw [hset] at calm
      have other : Root.global global ≠ address.root := fun same => calm _ same.symm rfl
      refine ⟨rfl, ?_⟩
      dsimp only
      rw [object_setObject, if_neg other, object_setObject, if_neg other]

theorem machine_gep (id pointer : ValueId) (indices : List Nat) :
    ((program.execute id (.gep pointer indices)).outcome machine).2 = machine := by
  change (RunM.outcome (liftM (program.addressIn machine pointer) >>= _) machine).2 = machine
  rw [RunM.outcome_bind, RunM.outcome_lift]
  cases program.addressIn machine pointer with
  | error trap => rfl
  | ok address =>
    cases indices with
    | nil => rfl
    | cons first path =>
      change (RunM.outcome (liftM (stepAddress address first path) >>= _) machine).2 = machine
      rw [RunM.outcome_bind, RunM.outcome_lift]
      cases stepAddress address first path <;> rfl

/-- Only a store can change a global, and only a step records a value. -/
theorem leaves_execute (id : ValueId) (calm : ¬program.StoresIn machine global instruction) :
    program.Leaves global machine ((program.execute id instruction).outcome machine).2 := by
  cases instruction with
  | alloca ty name =>
    rw [outcome_alloca]
    cases ty.blank program.types with
    | error trap => exact leaves_refl machine
    | ok slot =>
      refine ⟨rfl, ?_⟩
      dsimp only
      rw [object_setObject, if_neg nofun]
  | load pointer =>
    rw [outcome_load]
    exact leaves_refl machine
  | store value pointer =>
    rw [outcome_store]
    cases haddress : program.addressIn machine pointer with
    | error trap => exact leaves_refl machine
    | ok address =>
      cases hdatum : program.value machine value with
      | error trap => exact leaves_refl machine
      | ok datum =>
        have written : program.Leaves global machine
            ((program.write address datum).outcome machine).2 :=
          leaves_write fun later hroot ended => calm (.store haddress hroot hdatum ended)
        dsimp only
        revert written
        rcases (program.write address datum).outcome machine with ⟨trap | _, later⟩
        · exact fun written => written
        · exact fun written => written
  | gep pointer indices =>
    rw [machine_gep]
    exact leaves_refl machine

namespace Undisturbed

/-- A global that nothing was stored to holds what it started as. -/
theorem object (h : program.Undisturbed global machine) :
    program.object machine (.global global) = program.initial (.global global) := by
  induction h with
  | empty => rfl
  | @step machine id instruction _ _ calm ih =>
    have left := leaves_execute id calm
    rw [outcome_step]
    revert left
    rcases (program.execute id instruction).outcome machine with ⟨trap | datum, later⟩
    · exact fun left => left.object.trans ih
    · exact fun left => left.object.trans ih

/-- What an instruction records is the same each time, where it answers the same in any machine. -/
theorem value (h : program.Undisturbed global machine)
    (found : program.module.instruction? id = some instruction) {datum : Datum}
    (answers : ∀ machine, ((program.execute id instruction).outcome machine).1 = .ok datum)
    {recorded : Datum} (known : machine.values.lookup id = some recorded) : recorded = datum := by
  induction h with
  | empty => cases known
  | @step machine other executed _ found' calm ih =>
    have left := leaves_execute other calm
    have again := answers machine
    rw [outcome_step] at known
    by_cases same : other = id
    · subst same
      cases found.symm.trans found'
      cases executed : (program.execute other instruction).outcome machine with | mk answer later =>
      rw [executed] at again
      cases again
      rw [executed] at known
      dsimp only at known
      rw [Machine.lookup_setValue, if_pos rfl] at known
      exact (Option.some.inj known).symm
    · revert known left
      rcases (program.execute other _).outcome machine with ⟨trap | answer, later⟩
      · intro known left
        rw [left.values] at known
        exact ih known
      · intro known left
        rw [Machine.lookup_setValue, if_neg (Ne.symm same), left.values] at known
        exact ih known

/-- Bytes read as they stand in the initializer, and nothing is behind them. -/
theorem read_bytes (h : program.Undisturbed global machine) {found : Global} {bytes : List UInt8}
    (hfound : program.module.global? global = some found)
    (hinit : found.init? = some (.bytes bytes)) (index : Nat) :
    program.read machine ⟨.global global, [index]⟩ = match bytes[index]? with
      | some byte => .ok (.int byte.toNat)
      | none => .error .outOfObject := by
  obtain ⟨name, ty, linkage, isConstant, init?, address⟩ := found
  cases hinit
  have initial : program.initial (.global global) =
      .ok (.aggregate (bytes.map fun byte => .int byte.toNat)) := by
    simp only [Program.initial]
    rw [hfound]
    simp only [Datum.ofConstant]
  simp only [Program.read]
  rw [h.object, initial]
  change (Datum.aggregate _).get [index] = _
  simp only [Datum.get, List.getElem?_map]
  cases bytes[index]? with
  | none => rfl
  | some byte => rfl

/-- Code that stores nothing in the global leaves it undisturbed, up to its end or its first
trap. -/
theorem execution {code : List (ValueId × Instruction)} (h : program.Undisturbed global machine)
    (known : ∀ entry ∈ code, program.module.instruction? entry.1 = some entry.2)
    (calm : ∀ front entry rest later, code = front ++ entry :: rest →
      (program.execution front).outcome machine = (.ok (), later) →
      ¬program.StoresIn later global entry.2) :
    program.Undisturbed global ((program.execution code).outcome machine).2 := by
  induction code generalizing machine with
  | nil => exact h
  | cons entry rest ih =>
    obtain ⟨id, instruction⟩ := entry
    have stepped := h.step (known _ (List.mem_cons_self ..)) (calm [] _ rest machine rfl rfl)
    rw [outcome_execution_cons]
    cases ended : (program.step id instruction).outcome machine with | mk answer later =>
    rw [ended] at stepped
    cases answer with
    | error trap => exact stepped
    | ok _ =>
      apply ih stepped
      · intro entry mem
        exact known entry (List.mem_cons_of_mem _ mem)
      · intro front entry after last same hfront
        apply calm ((id, instruction) :: front) entry after last
        · rw [same, List.cons_append]
        · rw [outcome_execution_cons, ended]
          exact hfront

end Undisturbed
end Program
end FormLowering
