import FormLowering.Execution.Machine

/-!
Execution as a function of the machine: what a run answers, and the machine that it leaves. Each
instruction has one equation here, and a run is one instruction after the other.
-/

namespace FormLowering

theorem List.lookup_cons_eq_ite {α β : Type} [DecidableEq α] (key head : α) (value : β)
    (rest : List (α × β)) :
    List.lookup key ((head, value) :: rest) =
      if key = head then some value else List.lookup key rest := by
  by_cases same : key = head
  · simp [same]
  · have hne : (key == head) = false := by simpa using same
    simp only [List.lookup_cons, hne, if_neg same]

namespace Machine

variable (machine : Machine)

theorem object?_setObject (root other : Root) (object : Datum) :
    (machine.setObject root object).object? other =
      if other = root then some object else machine.object? other :=
  List.lookup_cons_eq_ite other root object machine.memory

theorem lookup_setValue (id other : ValueId) (datum : Datum) :
    (machine.setValue id datum).values.lookup other =
      if other = id then some datum else machine.values.lookup other :=
  List.lookup_cons_eq_ite other id datum machine.values

end Machine

namespace RunM

variable {α β : Type}

/-- The answer or the trap of a run, and the machine that it leaves in either case. -/
def outcome (action : RunM α) (machine : Machine) : Except Trap α × Machine :=
  action.run.run machine

theorem outcome_bind (action : RunM α) (next : α → RunM β) (machine : Machine) :
    outcome (action >>= next) machine = match outcome action machine with
      | (.ok a, later) => outcome (next a) later
      | (.error trap, later) => (.error trap, later) := by
  change (ExceptT.bindCont next (outcome action machine).1 : StateM Machine _)
    (outcome action machine).2 = _
  rcases outcome action machine with ⟨answer | answer, later⟩ <;> rfl

theorem outcome_lift (answer : Except Trap α) (machine : Machine) :
    outcome (liftM answer : RunM α) machine = (answer, machine) := by
  cases answer <;> rfl

end RunM

namespace Program

variable (program : Program) (machine : Machine)

theorem outcome_alloca (id : ValueId) (ty : Ty) (name : String) :
    (program.execute id (.alloca ty name)).outcome machine = match ty.blank program.types with
      | .ok slot => (.ok (.address ⟨.stack id, []⟩), machine.setObject (.stack id) slot)
      | .error trap => (.error trap, machine) := by
  change RunM.outcome (liftM (ty.blank program.types) >>= _) machine = _
  rw [RunM.outcome_bind, RunM.outcome_lift]
  cases ty.blank program.types <;> rfl

theorem outcome_load (id pointer : ValueId) :
    (program.execute id (.load pointer)).outcome machine =
      (program.addressIn machine pointer >>= program.read machine, machine) := by
  change RunM.outcome (liftM (program.addressIn machine pointer) >>= _) machine = _
  rw [RunM.outcome_bind, RunM.outcome_lift]
  cases program.addressIn machine pointer with
  | error trap => rfl
  | ok address => exact RunM.outcome_lift _ _

theorem outcome_write (address : Address) (datum : Datum) :
    (program.write address datum).outcome machine = match program.object machine address.root with
      | .error trap => (.error trap, machine)
      | .ok object => match Datum.set datum object address.path with
        | .error trap => (.error trap, machine.setObject address.root object)
        | .ok changed =>
          (.ok (), (machine.setObject address.root object).setObject address.root changed) := by
  change RunM.outcome (liftM (program.object machine address.root) >>= _) machine = _
  rw [RunM.outcome_bind, RunM.outcome_lift]
  cases program.object machine address.root with
  | error trap => rfl
  | ok object =>
    change RunM.outcome (liftM (Datum.set datum object address.path) >>= _)
      (machine.setObject address.root object) = _
    rw [RunM.outcome_bind, RunM.outcome_lift]
    cases hset : Datum.set datum object address.path with
    | error trap =>
      simp only [hset]
    | ok changed =>
      simp only [hset]
      rfl

theorem outcome_store (id value pointer : ValueId) :
    (program.execute id (.store value pointer)).outcome machine =
      match program.addressIn machine pointer, program.value machine value with
      | .error trap, _ => (.error trap, machine)
      | .ok _, .error trap => (.error trap, machine)
      | .ok address, .ok datum => match (program.write address datum).outcome machine with
        | (.ok _, later) => (.ok .undefined, later)
        | (.error trap, later) => (.error trap, later) := by
  change RunM.outcome (liftM (program.addressIn machine pointer) >>= _) machine = _
  rw [RunM.outcome_bind, RunM.outcome_lift]
  cases program.addressIn machine pointer with
  | error trap => rfl
  | ok address =>
    change RunM.outcome (liftM (program.value machine value) >>= _) machine = _
    rw [RunM.outcome_bind, RunM.outcome_lift]
    cases program.value machine value with
    | error trap => rfl
    | ok datum =>
      change RunM.outcome (program.write address datum >>= _) machine = _
      rw [RunM.outcome_bind]
      dsimp only
      rcases (program.write address datum).outcome machine with ⟨answer | answer, later⟩ <;> rfl

theorem of_read {program : Program} {machine : Machine} {address : Address} {datum : Datum}
    (h : program.read machine address = .ok datum) :
    ∃ object, program.object machine address.root = .ok object ∧
      object.get address.path = .ok datum := by
  simp only [read] at h
  cases hobject : program.object machine address.root with
  | error trap =>
    rw [hobject] at h
    cases h
  | ok object =>
    rw [hobject] at h
    exact ⟨object, rfl, h⟩

theorem value_of_addressIn {program : Program} {machine : Machine} {pointer : ValueId}
    {address : Address} (h : program.addressIn machine pointer = .ok address) :
    program.value machine pointer = .ok (.address address) := by
  simp only [addressIn] at h
  cases hvalue : program.value machine pointer with
  | error trap =>
    rw [hvalue] at h
    cases h
  | ok datum =>
    rw [hvalue] at h
    cases datum with
    | address found =>
      cases h
      rfl
    | int | float | aggregate | undefined => cases h

/-- The forms step over no whole object, so their addresses are paths into the same object. -/
theorem outcome_gep (id pointer : ValueId) (path : List Nat) :
    (program.execute id (.gep pointer (0 :: path))).outcome machine =
      ((program.addressIn machine pointer).map fun address =>
        .address { address with path := address.path ++ path }, machine) := by
  change RunM.outcome (liftM (program.addressIn machine pointer) >>= _) machine = _
  rw [RunM.outcome_bind, RunM.outcome_lift]
  cases program.addressIn machine pointer with
  | error trap => rfl
  | ok address =>
    change RunM.outcome (liftM (stepAddress address 0 path) >>= _) machine = _
    rw [RunM.outcome_bind, RunM.outcome_lift]
    simp only [stepAddress]
    rfl

theorem outcome_step (id : ValueId) (instruction : Instruction) :
    (program.step id instruction).outcome machine =
      match (program.execute id instruction).outcome machine with
      | (.ok datum, later) => (.ok (), later.setValue id datum)
      | (.error trap, later) => (.error trap, later) := by
  change RunM.outcome (program.execute id instruction >>= _) machine = _
  rw [RunM.outcome_bind]
  rcases (program.execute id instruction).outcome machine with ⟨answer | answer, later⟩ <;> rfl

/-- Executes instructions one after the other, up to the first trap. -/
def execution (code : List (ValueId × Instruction)) : RunM Unit :=
  forM code fun (id, instruction) => program.step id instruction

theorem outcome_execution_cons (id : ValueId) (instruction : Instruction)
    (code : List (ValueId × Instruction)) :
    (program.execution ((id, instruction) :: code)).outcome machine =
      match (program.step id instruction).outcome machine with
      | (.ok _, later) => (program.execution code).outcome later
      | (.error trap, later) => (.error trap, later) := by
  simp only [execution]
  rw [List.forM_cons, RunM.outcome_bind]
  rcases (program.step id instruction).outcome machine with ⟨answer | answer, later⟩ <;> rfl

theorem outcome_execution_append (code rest : List (ValueId × Instruction)) :
    (program.execution (code ++ rest)).outcome machine =
      match (program.execution code).outcome machine with
      | (.ok _, later) => (program.execution rest).outcome later
      | (.error trap, later) => (.error trap, later) := by
  simp only [execution]
  rw [List.forM_append, RunM.outcome_bind]
  rcases RunM.outcome (forM code _) machine with ⟨answer | answer, later⟩ <;> rfl

theorem run_eq (function : FunctionId) :
    program.run function = program.execution (program.code function) := rfl

end Program
end FormLowering
