import FormLowering.Execution.Datum
import FormLowering.Proofs.Typing.Code

/-!
The shape of data. A datum fits a type if it is a tree of the type's form whose addresses lead
where the type says. Reading and writing along a path that descends through a type keep the shape,
and go wrong only at an array without elements.
-/

namespace FormLowering

/-- A type whose data have no components. -/
def Ty.isScalar : Ty → Bool
  | .primitive _ | .pointer .. | .param _ => true
  | .array .. | .struct _ | .enum _ => false

/-- A datum of the form of a type; `leads` tells the addresses of each type. -/
inductive Datum.Fits (types : Registry) (leads : Address → Ty → Prop) : Datum → Ty → Prop
  | int (value : Int) (kind : Primitive) : Fits types leads (.int value) (.primitive kind)
  | float (value : Binary64) (kind : Primitive) : Fits types leads (.float value) (.primitive kind)
  | undefined {ty : Ty} : ty.isScalar → Fits types leads .undefined ty
  | address {address : Address} {pointee : Ty} (isConst : Bool) : leads address pointee →
      Fits types leads (.address address) (.pointer pointee isConst)
  | array {items : List Datum} {element : Ty} : (∀ item ∈ items, Fits types leads item element) →
      Fits types leads (.aggregate items) (.array items.length element)
  | struct {name : String} {struct : StructDef} {fields : List Field} {items : List Datum} :
      types.struct? name = some struct → struct.fields? = some fields →
      items.length = fields.length →
      (∀ (index : Nat) (item : Datum) (field : Field), items[index]? = some item → fields[index]? = some field →
        Fits types leads item field.ty) →
      Fits types leads (.aggregate items) (.struct name)
  | enum {leaf : Datum} (name : String) (kind : Primitive) : Fits types leads leaf (.primitive kind) →
      Fits types leads (.aggregate [leaf]) (.enum name)

/-- The path leads from a type into one of its parts. The first index of an array is allowed even
if the array has no elements. -/
inductive Ty.Descends (types : Registry) : Ty → List Nat → Ty → Prop
  | here (ty : Ty) : Descends types ty [] ty
  | element {length index : Nat} {element inner : Ty} {path : List Nat} : index < max length 1 →
      Descends types element path inner →
      Descends types (.array length element) (index :: path) inner
  | field {name : String} {struct : StructDef} {fields : List Field} {index : Nat} {field : Field}
      {inner : Ty} {path : List Nat} :
      types.struct? name = some struct → struct.fields? = some fields →
      fields[index]? = some field → Descends types field.ty path inner →
      Descends types (.struct name) (index :: path) inner

/-- The type is an array without elements, or an array of such. -/
def Ty.hasEmptyArray : Ty → Bool
  | .array length element => length == 0 || element.hasEmptyArray
  | _ => false

/-- A field of a struct has an array without elements. -/
def Registry.HasEmptyArray (types : Registry) : Prop :=
  ∃ struct ∈ types.structs, ∃ fields, struct.fields? = some fields ∧
    ∃ field ∈ fields, field.ty.hasEmptyArray

theorem Registry.hasEmptyArray_of_field {types : Registry} {name : String} {struct : StructDef}
    {fields : List Field} {index : Nat} {field : Field} (hstruct : types.struct? name = some struct)
    (hfields : struct.fields? = some fields) (hfield : fields[index]? = some field)
    (h : field.ty.hasEmptyArray ∨ types.HasEmptyArray) : types.HasEmptyArray := by
  rcases h with inField | inRegistry
  · exact ⟨struct, List.mem_of_find?_eq_some hstruct, fields, hfields, field,
      List.mem_of_getElem? hfield, inField⟩
  · exact inRegistry

theorem Ty.Descends.append {types : Registry} {outer mid inner : Ty} {path rest : List Nat}
    (h : outer.Descends types path mid) (hrest : mid.Descends types rest inner) :
    outer.Descends types (path ++ rest) inner := by
  induction h with
  | here ty => exact hrest
  | element hindex _ ih => exact .element hindex (ih hrest)
  | field hstruct hfields hfield _ ih => exact .field hstruct hfields hfield (ih hrest)

theorem Ty.descends_first (types : Registry) (length : Nat) (element : Ty) :
    (Ty.array length element).Descends types [0] element :=
  .element (by omega) (.here element)

theorem Ty.descends_field {types : Registry} {name : String} {struct : StructDef}
    {fields : List Field} {index : Nat} {field : Field} (hstruct : types.struct? name = some struct)
    (hfields : struct.fields? = some fields) (hfield : fields[index]? = some field) :
    (Ty.struct name).Descends types [index] field.ty :=
  .field hstruct hfields hfield (.here field.ty)

namespace Datum

variable {types : Registry} {leads wider : Address → Ty → Prop}

theorem Fits.mono (imp : ∀ address ty, leads address ty → wider address ty) {datum : Datum} {ty : Ty}
    (h : datum.Fits types leads ty) : datum.Fits types wider ty := by
  induction h with
  | int value kind => exact .int value kind
  | float value kind => exact .float value kind
  | undefined scalar => exact .undefined scalar
  | address isConst h => exact .address isConst (imp _ _ h)
  | array _ ih => exact .array ih
  | struct hstruct hfields hlength _ ih => exact .struct hstruct hfields hlength ih
  | enum name kind _ ih => exact .enum name kind ih

/-- The right to write through a pointer is not part of the shape. -/
theorem Fits.similar {datum : Datum} {a b : Ty} (h : datum.Fits types leads a)
    (similar : a.Similar b) : datum.Fits types leads b := by
  rcases similar.eq_or_pointer with rfl | ⟨pointee, flag, other, rfl, rfl⟩
  · exact h
  · cases h with
    | undefined _ => exact .undefined rfl
    | address _ h => exact .address other h

theorem Fits.of_array {datum : Datum} {length : Nat} {element : Ty}
    (h : datum.Fits types leads (.array length element)) :
    ∃ items, datum = .aggregate items ∧ items.length = length ∧
      ∀ item ∈ items, item.Fits types leads element := by
  cases h with
  | undefined scalar => cases scalar
  | @array items _ hitems => exact ⟨items, rfl, rfl, hitems⟩

theorem Fits.of_struct {datum : Datum} {name : String} {struct : StructDef} {fields : List Field}
    (h : datum.Fits types leads (.struct name)) (hstruct : types.struct? name = some struct)
    (hfields : struct.fields? = some fields) :
    ∃ items, datum = .aggregate items ∧ items.length = fields.length ∧
      ∀ (index : Nat) (item : Datum) (field : Field), items[index]? = some item →
        fields[index]? = some field → item.Fits types leads field.ty := by
  cases h with
  | undefined scalar => cases scalar
  | @struct _ other body items hother hbody hlength hitems =>
    cases hstruct.symm.trans hother
    cases hfields.symm.trans hbody
    exact ⟨items, rfl, hlength, hitems⟩

theorem get_aggregate {items : List Datum} {item : Datum} {index : Nat}
    (h : items[index]? = some item) (path : List Nat) :
    (Datum.aggregate items).get (index :: path) = item.get path := by
  simp [Datum.get, h]

theorem set_aggregate {items : List Datum} {item : Datum} {index : Nat}
    (h : items[index]? = some item) (path : List Nat) (value : Datum) :
    Datum.set value (.aggregate items) (index :: path) =
      (Datum.set value item path).map fun changed => .aggregate (items.set index changed) := by
  simp only [Datum.set, h]
  cases Datum.set value item path <;> rfl

/-- A component of an aggregate is replaced where there is one. -/
theorem set_cons_eq_ok {datum value changed : Datum} {path : List Nat} {index : Nat} :
    Datum.set value datum (index :: path) = .ok changed ↔
      ∃ items item part, datum = .aggregate items ∧ items[index]? = some item ∧
        Datum.set value item path = .ok part ∧ changed = .aggregate (items.set index part) := by
  constructor
  · intro h
    cases datum with
    | aggregate items =>
      cases hitem : items[index]? with
      | none => simp [Datum.set, hitem] at h
      | some item =>
        rw [set_aggregate hitem] at h
        cases hpart : Datum.set value item path with
        | error trap =>
          rw [hpart] at h
          cases h
        | ok part =>
          rw [hpart] at h
          cases h
          exact ⟨items, item, part, rfl, hitem, hpart, rfl⟩
    | int | float | address | undefined => cases h
  · rintro ⟨items, item, part, rfl, hitem, hpart, rfl⟩
    rw [set_aggregate hitem, hpart]
    rfl

/-- What is reached by a path into a type fits the part of the type. -/
theorem Fits.get {datum : Datum} {ty inner : Ty} {path : List Nat} (h : datum.Fits types leads ty)
    (descends : ty.Descends types path inner) :
    (∃ found, datum.get path = .ok found ∧ found.Fits types leads inner) ∨
      (datum.get path = .error .outOfObject ∧ (ty.hasEmptyArray ∨ types.HasEmptyArray)) := by
  induction descends generalizing datum with
  | here ty =>
    refine .inl ⟨datum, ?_, h⟩
    unfold Datum.get
    rfl
  | @element length index element inner path hindex _ ih =>
    obtain ⟨items, rfl, rfl, hitems⟩ := h.of_array
    cases hitem : items[index]? with
    | none =>
      have empty : items.length = 0 := by
        have := List.getElem?_eq_none_iff.mp hitem
        omega
      refine .inr ⟨?_, .inl (by simp [Ty.hasEmptyArray, empty])⟩
      simp [Datum.get, hitem]
    | some item =>
      rw [get_aggregate hitem]
      rcases ih (hitems item (List.mem_of_getElem? hitem)) with found | ⟨failed, empty⟩
      · exact .inl found
      · exact .inr ⟨failed, empty.imp_left fun h => by simp [Ty.hasEmptyArray, h]⟩
  | @field name struct fields index field inner path hstruct hfields hfield _ ih =>
    obtain ⟨items, rfl, hlength, hitems⟩ := h.of_struct hstruct hfields
    have hlt : index < items.length := by
      rw [hlength]
      exact (List.getElem?_eq_some_iff.mp hfield).1
    have hitem : items[index]? = some items[index] := List.getElem?_eq_getElem hlt
    rw [get_aggregate hitem]
    rcases ih (hitems index _ field hitem hfield) with found | ⟨failed, empty⟩
    · exact .inl found
    · exact .inr ⟨failed, .inr (Registry.hasEmptyArray_of_field hstruct hfields hfield empty)⟩

/-- Replacing a part by what fits it keeps the shape of the whole. -/
theorem Fits.set {datum value : Datum} {ty inner : Ty} {path : List Nat}
    (h : datum.Fits types leads ty) (hvalue : value.Fits types leads inner)
    (descends : ty.Descends types path inner) :
    (∃ changed, Datum.set value datum path = .ok changed ∧ changed.Fits types leads ty) ∨
      (Datum.set value datum path = .error .outOfObject ∧
        (ty.hasEmptyArray ∨ types.HasEmptyArray)) := by
  induction descends generalizing datum with
  | here ty =>
    refine .inl ⟨value, ?_, hvalue⟩
    unfold Datum.set
    rfl
  | @element length index element inner path hindex _ ih =>
    obtain ⟨items, rfl, rfl, hitems⟩ := h.of_array
    cases hitem : items[index]? with
    | none =>
      have empty : items.length = 0 := by
        have := List.getElem?_eq_none_iff.mp hitem
        omega
      refine .inr ⟨?_, .inl (by simp [Ty.hasEmptyArray, empty])⟩
      simp [Datum.set, hitem]
    | some item =>
      rw [set_aggregate hitem]
      have fits := hitems item (List.mem_of_getElem? hitem)
      rcases ih fits hvalue with ⟨changed, hset, fits⟩ | ⟨hset, empty⟩
      · refine .inl ⟨.aggregate (items.set index changed), by rw [hset]; rfl, ?_⟩
        have h : (Datum.aggregate (items.set index changed)).Fits types leads
            (.array (items.set index changed).length element) := by
          refine .array ?_
          intro other hother
          rcases List.mem_or_eq_of_mem_set hother with old | rfl
          · exact hitems other old
          · exact fits
        rwa [List.length_set] at h
      · refine .inr ⟨by rw [hset]; rfl, ?_⟩
        exact empty.imp_left fun h => by simp [Ty.hasEmptyArray, h]
  | @field name struct fields index field inner path hstruct hfields hfield _ ih =>
    obtain ⟨items, rfl, hlength, hitems⟩ := h.of_struct hstruct hfields
    have hlt : index < items.length := by
      rw [hlength]
      exact (List.getElem?_eq_some_iff.mp hfield).1
    have hitem : items[index]? = some items[index] := List.getElem?_eq_getElem hlt
    rw [set_aggregate hitem]
    rcases ih (hitems index _ field hitem hfield) hvalue with ⟨changed, hset, fits⟩ | ⟨hset, empty⟩
    · refine .inl ⟨.aggregate (items.set index changed), by rw [hset]; rfl, ?_⟩
      refine .struct hstruct hfields (by simpa using hlength) ?_
      intro i item other hi hother
      by_cases same : index = i
      · subst same
        rw [List.getElem?_set_self hlt] at hi
        cases hi
        cases hfield.symm.trans hother
        exact fits
      · rw [List.getElem?_set_ne same] at hi
        exact hitems i item other hi hother
    · refine .inr ⟨by rw [hset]; rfl, .inr ?_⟩
      exact Registry.hasEmptyArray_of_field hstruct hfields hfield empty

end Datum

/-- A list that a function is run on gives one answer for each item, in order. -/
theorem List.getElem?_of_mapM_ok {α β ε : Type} {f : α → Except ε β} {items : List α}
    {answers : List β} (h : items.mapM f = .ok answers) :
    answers.length = items.length ∧ ∀ (index : Nat) answer item, answers[index]? = some answer →
      items[index]? = some item → f item = .ok answer := by
  induction items generalizing answers with
  | nil =>
    cases h
    exact ⟨rfl, fun _ _ _ h => nomatch h⟩
  | cons head rest ih =>
    rw [List.mapM_cons] at h
    cases hhead : f head with
    | error e =>
      rw [hhead] at h
      cases h
    | ok first =>
      rw [hhead] at h
      cases hrest : rest.mapM f with
      | error e =>
        rw [hrest] at h
        cases h
      | ok others =>
        rw [hrest] at h
        cases h
        obtain ⟨hlength, hget⟩ := ih hrest
        refine ⟨by simp [hlength], ?_⟩
        intro index answer item ha hi
        cases index with
        | zero =>
          cases ha
          cases hi
          exact hhead
        | succ index => exact hget index answer item ha hi

/-- Blank memory of a type has the shape of the type. -/
theorem Ty.fits_blankWithin {types : Registry} {leads : Address → Ty → Prop} {depth : Nat} {ty : Ty}
    {datum : Datum} (h : ty.blankWithin types depth = .ok datum) : datum.Fits types leads ty := by
  induction depth generalizing ty datum with
  | zero => cases h
  | succ depth ih =>
    cases ty with
    | primitive kind =>
      cases h
      exact .undefined rfl
    | pointer pointee isConst =>
      cases h
      exact .undefined rfl
    | param name =>
      cases h
      exact .undefined rfl
    | enum name =>
      cases h
      exact .enum name .int (.undefined rfl)
    | array length element =>
      unfold blankWithin at h
      split at h
      · cases h
      · cases hblank : element.blankWithin types depth with
        | error trap =>
          rw [hblank] at h
          cases h
        | ok item =>
          rw [hblank] at h
          cases h
          have fits : (Datum.aggregate (List.replicate length item)).Fits types leads
              (.array (List.replicate length item).length element) := by
            refine .array ?_
            intro other hother
            cases List.eq_of_mem_replicate hother
            exact ih hblank
          rwa [List.length_replicate] at fits
    | struct name =>
      unfold blankWithin at h
      split at h
      · rename_i fields hfields
        obtain ⟨struct, hstruct, hfields⟩ := Option.bind_eq_some_iff.mp hfields
        cases hblank : fields.mapM fun field => field.ty.blankWithin types depth with
        | error trap =>
          rw [hblank] at h
          cases h
        | ok items =>
          rw [hblank] at h
          cases h
          obtain ⟨hlength, hget⟩ := List.getElem?_of_mapM_ok hblank
          exact .struct hstruct hfields hlength fun index item field hi hf =>
            ih (hget index item field hi hf)
      · cases h

/-- A list that a function is run on fails where the function fails on an item. -/
theorem List.exists_of_mapM_error {α β ε : Type} {f : α → Except ε β} {items : List α} {e : ε}
    (h : items.mapM f = .error e) : ∃ item ∈ items, f item = .error e := by
  induction items with
  | nil => cases h
  | cons head rest ih =>
    rw [List.mapM_cons] at h
    cases hhead : f head with
    | error other =>
      rw [hhead] at h
      cases h
      exact ⟨head, by simp, hhead⟩
    | ok first =>
      rw [hhead] at h
      cases hrest : rest.mapM f with
      | error other =>
        rw [hrest] at h
        cases h
        obtain ⟨item, hi, hf⟩ := ih hrest
        exact ⟨item, List.mem_cons_of_mem _ hi, hf⟩
      | ok others =>
        rw [hrest] at h
        cases h

/-- Blank memory of a type is refused only for having no shape. -/
theorem Ty.unshaped_of_blankWithin {types : Registry} {depth : Nat} {ty : Ty} {trap : Trap}
    (h : ty.blankWithin types depth = .error trap) : ∃ part, trap = .unshaped part := by
  induction depth generalizing ty trap with
  | zero =>
    cases h
    exact ⟨ty, rfl⟩
  | succ depth ih =>
    cases ty with
    | primitive kind => cases h
    | pointer pointee isConst => cases h
    | param name => cases h
    | enum name => cases h
    | array length element =>
      unfold blankWithin at h
      split at h
      · cases h
        exact ⟨_, rfl⟩
      · cases hblank : element.blankWithin types depth with
        | error other =>
          rw [hblank] at h
          cases h
          exact ih hblank
        | ok item =>
          rw [hblank] at h
          cases h
    | struct name =>
      unfold blankWithin at h
      split at h
      · rename_i fields _
        cases hblank : fields.mapM fun field => field.ty.blankWithin types depth with
        | error other =>
          rw [hblank] at h
          cases h
          obtain ⟨field, _, hfield⟩ := List.exists_of_mapM_error hblank
          exact ih hfield
        | ok items =>
          rw [hblank] at h
          cases h
      · cases h
        exact ⟨_, rfl⟩

end FormLowering
