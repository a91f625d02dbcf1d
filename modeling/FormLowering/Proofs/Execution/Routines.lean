import FormLowering.Proofs.Execution.Run
import FormLowering.Proofs.Unit.Discipline

/-!
Safety of emitted code. The functions of a unit that is built one routine after the other go wrong
only at pointers that were never set, at arrays without elements and at types without a shape.
-/

namespace FormLowering

/-- The module of a unit with the unit's types. -/
def CompilationUnit.program (unit : CompilationUnit) : Program := ⟨unit.module, unit.types⟩

/-- Whatever functions ran before, and however they ended, a function of the unit is stopped only
by an excused trap. -/
theorem Disciplined.traps_excused {unit : CompilationUnit} {current? : Option BlockId}
    (disciplined : Disciplined unit current?)
    (globals : ∀ id found init, unit.module.global? id = some found → found.init? = some init →
      init.Fits unit.types found.ty)
    (earlier : List FunctionId) (function : FunctionId) :
    let ended := (unit.program.run function).outcome (unit.program.machineAfter earlier)
    ∀ trap, ended.1 = .error trap → trap.Excused unit.program ended.2 := by
  have arranged := disciplined.arranged
  have sound : unit.program.Sound := ⟨arranged.typed.module, globals _ _ _⟩
  have ordered : ∀ block b, unit.program.module.block? block = some b →
      unit.program.module.Ordered [] b.instructions := fun _ _ hb => arranged.ordered hb
  have safe := Program.safe_machineAfter sound ordered earlier
  exact (Program.run_endsSafely sound ordered safe function).excused

/-- The trap that a run ended with. -/
def trap? {α : Type} : Except Trap α → Option Trap
  | .ok _ => none
  | .error trap => some trap

theorem eq_error_of_trap? {α : Type} {ended : Except Trap α} {trap : Trap}
    (h : trap? ended = some trap) : ended = .error trap := by
  cases ended with
  | ok => cases h
  | error found =>
    cases h
    rfl

/-- An integer that starts with an integer. -/
def Global.isInteger (g : Global) : Bool :=
  match g.init?, g.ty with
  | some (.int _ _), .primitive _ => true
  | _, _ => false

theorem Global.fits_of_isInteger {g : Global} {init : Constant} {types : Registry}
    (h : g.isInteger = true) (hinit : g.init? = some init) : init.Fits types g.ty := by
  unfold isInteger at h
  rw [hinit] at h
  split at h
  · rename_i bits value kind hint hty
    cases hint
    rw [hty]
    exact .int value kind
  · cases h

/-- A global that starts at seven, and a routine that writes it through a pointer never set. -/
def CompilationUnit.unsetPointer : CompilationUnit :=
  let name (text : String) : Node := .atom ⟨.identifier, text, .dummy⟩
  let target : Node := .list [name "@", name "pointer"] .dummy
  (((CompilationUnit.new "m" .x86_64 0).perform
    (.declareGlobal "count" (.primitive .int) .internal (some (.int 32 7)))).perform
    (.enterFunction "f")).perform
    (.declareLocal "pointer" (.pointerTo (.primitive .int))) |>.perform
    (.evaluate (.assign target (name "count")) { block := ⟨0⟩ })

/-- In every run, the first and the next, the load of the pointer yields the undefined value that
stops the store. -/
theorem unsetPointer_excused :
    let program := CompilationUnit.unsetPointer.program
    let ended := (program.run ⟨0⟩).outcome (program.machineAfter [⟨0⟩])
    ended.1 = .error (.notAPointer ⟨2⟩) ∧ program.value ended.2 ⟨2⟩ = .ok .undefined := by
  intro program ended
  have declared := Disciplined.perform
    (.declareGlobal "count" (.primitive .int) .internal (some (.int 32 7)))
    (.new "m" .x86_64 0) trivial
  have entered := Disciplined.perform (.enterFunction "f") declared (by decide +kernel)
  have placed := Disciplined.perform (.declareLocal "pointer" (.pointerTo (.primitive .int)))
    entered rfl
  have disciplined : Disciplined .unsetPointer _ :=
    .perform (.evaluate _ { block := ⟨0⟩ }) placed (by decide +kernel)
  have globals : ∀ id found init, CompilationUnit.unsetPointer.module.global? id = some found →
      found.init? = some init → init.Fits CompilationUnit.unsetPointer.types found.ty := by
    intro id found init hfound hinit
    have integers : CompilationUnit.unsetPointer.module.globals.all Global.isInteger := by
      decide +kernel
    have integer := Array.all_eq_true'.mp integers found (Array.mem_of_getElem? hfound)
    exact Global.fits_of_isInteger integer hinit
  have stopped : ended.1 = .error (.notAPointer ⟨2⟩) := eq_error_of_trap? (by decide +kernel)
  exact ⟨stopped, disciplined.traps_excused globals [⟨0⟩] ⟨0⟩ _ stopped⟩

end FormLowering
