import FormLowering.Proofs.Ty.Exact

/-!
What the answers of a layout session say of a type that was measured: the layout is the one of C,
for structs field by field. No number wraps: what does not fit in 64 bits is answered as too large.
-/

namespace FormLowering

open Placement

theorem Ty.exists_fields_of_shape {types : Registry} {target : Target} {name : String} {shape : Shape}
    (h : (Ty.struct name).shape types target = .ok shape) :
    ∃ found fields, types.struct? name = some found ∧ found.fields? = some fields ∧
      shape = .record (fields.map (·.ty)) := by
  simp only [Ty.shape] at h
  split at h
  · cases h
  · rename_i found hfound
    split at h
    · cases h
    · split at h
      · cases h
      · rename_i fields hfields
        cases h
        exact ⟨found, fields, hfound, hfields, rfl⟩

/-- The answers about a type that takes up `size` bytes and is `alignment` bytes aligned. -/
structure LaidOut (types : Registry) (answer : LayoutQuery → Except LayoutError Nat) (ty : Ty)
    (size alignment : Nat) : Prop where
  aligned : answer (.alignment ty) = .ok alignment
  power : alignment.isPowerOfTwo
  divides : alignment ∣ size
  array : ∀ {length : Nat} {element : Ty}, ty = .array length element → size < 2 ^ 64 ∧
    answer (.alignment element) = .ok alignment ∧
    ∃ each, answer (.size element) = .ok each ∧ size = length * each
  struct : ∀ {name : String}, ty = .struct name → size < 2 ^ 64 ∧ ∃ found fields places,
    types.struct? name = some found ∧ found.fields? = some fields ∧
    List.Forall₂ (fun field place => answer (.alignment field.ty) = .ok place.alignment ∧
      answer (.size field.ty) = .ok place.size) fields places ∧
    (∀ index place, places[index]? = some place →
      answer (.fieldOffset ty index) = .ok place.offset) ∧ Fill places size alignment

namespace Layout

variable {types : Registry} {target : Target} {ty : Ty} {size alignment : Nat}

/-- Only the size of a scalar is taken from the target as it is. -/
theorem directSize_lt {busy : List Ty} (h : directSize types target busy ty = .ok size)
    (composed : ∀ n m, ty.shape types target ≠ .ok (.scalar n m)) : size < 2 ^ 64 := by
  obtain ⟨_, shape, known, measured⟩ := directSize_eq_ok.mp h
  cases shape with
  | scalar n m => exact absurd known (composed n m)
  | array length element =>
    obtain ⟨_, _, fits⟩ := Except.bind_eq_ok.mp measured
    obtain ⟨lt, rfl⟩ := checked_eq_ok.mp fits
    exact lt
  | record fields =>
    obtain ⟨_, _, _, _, _, _, _, _, lt⟩ := exists_places_of_record measured
    exact lt

theorem array_laidOut {length : Nat} {element : Ty}
    (h : directSize types target [] (.array length element) = .ok size)
    (halignment : directAlignment types target [] (.array length element) = .ok alignment) :
    size < 2 ^ 64 ∧ directAlignment types target [] element = .ok alignment ∧
      ∃ each, directSize types target [] element = .ok each ∧ size = length * each := by
  obtain ⟨_, _, known, measured⟩ := directSize_eq_ok.mp h
  cases known
  obtain ⟨each, answer, fits⟩ := Except.bind_eq_ok.mp measured
  obtain ⟨lt, rfl⟩ := checked_eq_ok.mp fits
  obtain ⟨_, _, known, answer'⟩ := directAlignment_eq_ok.mp halignment
  cases known
  exact ⟨lt, directAlignment_transfer (.refl types) answer' .nil, each,
    directSize_transfer (.refl types) answer .nil, Nat.mul_comm each length⟩

theorem struct_laidOut (regular : target.Proportioned) {name : String}
    (h : directSize types target [] (.struct name) = .ok size)
    (halignment : directAlignment types target [] (.struct name) = .ok alignment) :
    size < 2 ^ 64 ∧ ∃ found fields places,
      types.struct? name = some found ∧ found.fields? = some fields ∧
      List.Forall₂ (fun field place =>
        directAlignment types target [] field.ty = .ok place.alignment ∧
        directSize types target [] field.ty = .ok place.size) fields places ∧
      (∀ index place, places[index]? = some place →
        directOffset types target (.struct name) index = .ok place.offset) ∧
      Fill places size alignment := by
  obtain ⟨_, shape, known, measured⟩ := directSize_eq_ok.mp h
  obtain ⟨found, fields, hfound, hfields, rfl⟩ := Ty.exists_fields_of_shape known
  obtain ⟨places, finish, alignment', measured, packed, halignment', greatest, padded, lt⟩ :=
    exists_places_of_record measured
  cases halignment.symm.trans
    (directAlignment_eq_ok.mpr ⟨List.not_mem_nil, _, known, halignment'⟩)
  -- the fields were measured while the struct was in progress; the numbers stay without it
  have measured : List.Forall₂ (Measures (directAlignment types target [])
      (directSize types target [])) (fields.map (·.ty)) places :=
    measured.imp fun _ _ ⟨halignment, pos, hsize⟩ =>
      ⟨directAlignment_transfer (.refl types) halignment .nil, pos,
        directSize_transfer (.refl types) hsize .nil⟩
  have powers (place : Placement) (mem : place ∈ places) : place.alignment.isPowerOfTwo := by
    obtain ⟨field, halignment, _, hsize⟩ := measured.exists_left place mem
    obtain ⟨_, halignment', occupies⟩ := occupies_of_size hsize
    cases halignment.symm.trans halignment'
    exact (occupies.proportioned regular).1
  refine ⟨lt, found, fields, places, hfound, hfields, ?_, fun index place at' => ?_,
    packed.fill greatest padded powers⟩
  · exact (List.forall₂_map_left_iff.mp measured).imp fun _ _ answers => ⟨answers.1, answers.2.2⟩
  · rw [directOffset, known]
    exact offsetIn_eq_ok measured packed (padded.1.2.trans_lt lt) at'

theorem laidOut_of_size (regular : target.Proportioned)
    (h : directSize types target [] ty = .ok size) :
    ∃ alignment, LaidOut types (fun query => query.direct types target) ty size alignment := by
  obtain ⟨alignment, halignment, occupies⟩ := occupies_of_size h
  obtain ⟨power, divides⟩ := occupies.proportioned regular
  refine ⟨alignment, halignment, power, divides, ?_, ?_⟩
  · rintro length element rfl
    exact array_laidOut h halignment
  · rintro name rfl
    exact struct_laidOut regular h halignment

/-- A field whose exact place does not fit has no offset. -/
theorem directOffset_exact (regular : target.Proportioned) {fields rest : List Ty}
    {places : List Placement} {finish index : Nat} {place : Placement}
    (known : ty.shape types target = .ok (.record (fields ++ rest)))
    (each : List.Forall₂ (fun field place =>
      field.Occupies types target place.size place.alignment) fields places)
    (packed : Packed 0 places finish) (found : places[index]? = some place) :
    Exact (directOffset types target ty index) place.offset ∧
      (2 ^ 64 ≤ place.offset →
        ∃ blamed, directOffset types target ty index = .error ⟨.tooLarge, blamed⟩) := by
  have measured := each.imp fun _ _ occupies =>
    have := exact_of_occupies regular occupies .nil
    show MeasuresExactly (directAlignment types target []) (directSize types target []) _ _ from
      ⟨this.1, Nat.pos_of_isPowerOfTwo (occupies.proportioned regular).1, this.2⟩
  have exact' : Exact (directOffset types target ty index) place.offset := by
    rw [directOffset, known]
    exact offsetIn_exact measured rest packed found
  refine ⟨exact', exact'.tooLarge fun n answer => ?_⟩
  rw [directOffset, known] at answer
  exact offsetIn_lt answer

end Layout

namespace LayoutSession

/-- The layout of C. Whatever was registered and asked before, a type whose size is answered is
laid out as in C. An exact size or offset is answered as it is or as too large, and as too large
if it does not fit. -/
theorem c_layout (target : Target) (regular : target.Proportioned) (types : Registry)
    (steps : List LayoutStep) :
    let session := LayoutSession.after target { types } steps
    let answer := session.answer target
    (∀ ty size, answer (.size ty) = .ok size →
      ∃ alignment, LaidOut session.types answer ty size alignment) ∧
    (∀ ty size alignment, ty.Occupies session.types target size alignment →
      answer (.alignment ty) = .ok alignment ∧ Layout.Exact (answer (.size ty)) size ∧
      ((∀ n m, ty.shape session.types target ≠ .ok (.scalar n m)) → 2 ^ 64 ≤ size →
        ∃ blamed, answer (.size ty) = .error ⟨.tooLarge, blamed⟩)) ∧
    (∀ ty fields rest places finish,
      ty.shape session.types target = .ok (.record (fields ++ rest)) →
      List.Forall₂ (fun field place =>
        field.Occupies session.types target place.size place.alignment) fields places →
      Packed 0 places finish → ∀ index place, places[index]? = some place →
      Layout.Exact (answer (.fieldOffset ty index)) place.offset ∧
      (2 ^ 64 ≤ place.offset →
        ∃ blamed, answer (.fieldOffset ty index) = .error ⟨.tooLarge, blamed⟩)) := by
  intro session answer
  have settled : session.Settled target := (settled_new target types).after steps
  have direct : answer = fun query => query.direct session.types target := funext settled.answer
  rw [direct]
  refine ⟨fun ty size => Layout.laidOut_of_size regular, fun ty size alignment occupies => ?_,
    fun ty fields rest places finish known each packed index place found => ?_⟩
  · obtain ⟨halignment, hsize⟩ := Layout.exact_of_occupies regular occupies .nil
    exact ⟨halignment, hsize, fun composed =>
      hsize.tooLarge fun _ answer => Layout.directSize_lt answer composed⟩
  · exact Layout.directOffset_exact regular known each packed found

/-- A struct of four-byte alignment with padding inside and at its end, and an array that is one
byte too large. -/
theorem padded_struct_laidOut :
    Target.x86_64.Proportioned ∧
    let session := LayoutSession.after .x86_64 { types := {} } [.register (.defineStruct "padded" []
      [⟨"first", .char⟩, ⟨"second", .primitive .int⟩, ⟨"third", .char⟩])]
    session.answer .x86_64 (.size (.struct "padded")) = .ok 12 ∧
    (∃ alignment,
      LaidOut session.types (session.answer .x86_64) (.struct "padded") 12 alignment) ∧
    ∃ blamed, session.answer .x86_64 (.size (.array (2 ^ 62) (.primitive .int))) =
      .error ⟨.tooLarge, blamed⟩ := by
  have regular : Target.x86_64.Proportioned := Target.proportioned_of_mem_presets (by decide)
  refine ⟨regular, ?_⟩
  intro session
  have known : session.answer .x86_64 (.size (.struct "padded")) = .ok 12 := by
    simp only [session]
    cbv
  obtain ⟨measured, exact', _⟩ := c_layout .x86_64 regular {} [.register (.defineStruct "padded" []
    [⟨"first", .char⟩, ⟨"second", .primitive .int⟩, ⟨"third", .char⟩])]
  have occupies : (Ty.array (2 ^ 62) (.primitive .int)).Occupies session.types .x86_64
      (2 ^ 62 * 4) 4 := .array rfl (.scalar rfl)
  exact ⟨known, measured _ 12 known, (exact' _ _ _ occupies).2.2 (by rintro _ _ ⟨⟩) (by decide)⟩

end LayoutSession
end FormLowering
