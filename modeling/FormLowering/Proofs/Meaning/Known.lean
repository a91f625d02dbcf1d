import FormLowering.Proofs.Execution.Shape

/-!
The addresses inside data. Reading and writing move them around, but bring in no new ones, and
constants and blank memory have none.
-/

namespace FormLowering

/-- The address stands somewhere in a datum. -/
inductive Datum.Holds : Datum → Address → Prop
  | here (address : Address) : Holds (.address address) address
  | item {items : List Datum} {item : Datum} {address : Address} : item ∈ items →
      Holds item address → Holds (.aggregate items) address

/-- All global objects that the datum leads to are among the first `count`. -/
def Datum.Known (count : Nat) (datum : Datum) : Prop :=
  ∀ address, datum.Holds address → ∀ id, address.root = .global id → id.index < count

namespace Datum

theorem Known.mono {few many : Nat} (h : few ≤ many) {datum : Datum} (known : datum.Known few) :
    datum.Known many := fun address holds id hid => Nat.lt_of_lt_of_le (known address holds id hid) h

theorem holds_of_get {datum found : Datum} {path : List Nat} {address : Address}
    (h : datum.get path = .ok found) (holds : found.Holds address) : datum.Holds address := by
  induction path generalizing datum with
  | nil =>
    unfold Datum.get at h
    cases h
    exact holds
  | cons index path ih =>
    cases datum with
    | aggregate items =>
      cases hitem : items[index]? with
      | none => simp [Datum.get, hitem] at h
      | some item =>
        rw [get_aggregate hitem] at h
        exact .item (List.mem_of_getElem? hitem) (ih h)
    | undefined =>
      cases h
      cases holds
    | int value => cases h
    | float value => cases h
    | address other => cases h

theorem holds_of_set {datum value changed : Datum} {path : List Nat} {address : Address}
    (h : Datum.set value datum path = .ok changed) (holds : changed.Holds address) :
    value.Holds address ∨ datum.Holds address := by
  induction path generalizing datum changed with
  | nil =>
    cases h
    exact .inl holds
  | cons index path ih =>
    obtain ⟨items, item, part, rfl, hitem, hset, rfl⟩ := set_cons_eq_ok.mp h
    cases holds with
    | @item _ other _ hother holds =>
      rcases List.mem_or_eq_of_mem_set hother with old | rfl
      · exact .inr (.item old holds)
      · rcases ih hset holds with new | old
        · exact .inl new
        · exact .inr (.item (List.mem_of_getElem? hitem) old)

theorem Known.get {count : Nat} {datum found : Datum} {path : List Nat} (known : datum.Known count)
    (h : datum.get path = .ok found) : found.Known count :=
  fun address holds => known address (holds_of_get h holds)

theorem Known.set {count : Nat} {datum value changed : Datum} {path : List Nat}
    (known : datum.Known count) (hvalue : value.Known count)
    (h : Datum.set value datum path = .ok changed) : changed.Known count := by
  intro address holds
  rcases holds_of_set h holds with new | old
  · exact hvalue address new
  · exact known address old

mutual

theorem not_holds_ofConstant : (constant : Constant) → (a : Address) → ¬ (ofConstant constant).Holds a
  | .int _ _, _ => nofun
  | .float _ _, _ => nofun
  | .bytes content, a => by
    intro holds
    unfold ofConstant at holds
    cases holds with
    | item mem holds =>
      obtain ⟨byte, _, rfl⟩ := List.mem_map.mp mem
      cases holds
  | .struct fields, a => by
    intro holds
    unfold ofConstant at holds
    cases holds with
    | item mem holds => exact not_holds_ofConstants fields a _ mem holds

theorem not_holds_ofConstants : (fields : List Constant) → (a : Address) →
    ∀ item ∈ ofConstants fields, ¬ item.Holds a
  | [], _ => by
    intro item mem
    cases mem
  | field :: rest, a => by
    intro item mem
    rcases List.mem_cons.mp mem with rfl | later
    · exact not_holds_ofConstant field a
    · exact not_holds_ofConstants rest a item later

end

/-- Without addresses for any pointer, a datum that fits a type has no addresses. -/
theorem Fits.not_holds {types : Registry} {datum : Datum} {ty : Ty}
    (h : datum.Fits types (fun _ _ => False) ty) (address : Address) : ¬ datum.Holds address := by
  induction h with
  | int value kind => nofun
  | float value kind => nofun
  | undefined scalar => nofun
  | address isConst leads => exact leads.elim
  | array _ ih =>
    intro holds
    cases holds with
    | item mem holds => exact ih _ mem holds
  | struct _ _ hlength _ ih =>
    intro holds
    cases holds with
    | item mem holds =>
      obtain ⟨index, hindex⟩ := List.mem_iff_getElem?.mp mem
      have hlt := (List.getElem?_eq_some_iff.mp hindex).1
      rw [hlength] at hlt
      exact ih index _ _ hindex (List.getElem?_eq_getElem hlt) holds
  | enum name kind _ ih =>
    intro holds
    cases holds with
    | item mem holds =>
      cases List.mem_singleton.mp mem
      exact ih holds

end Datum
end FormLowering
