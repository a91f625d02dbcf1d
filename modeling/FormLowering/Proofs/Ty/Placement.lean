import Mathlib.Algebra.Group.Nat.Defs
import Mathlib.Order.Bounds.Basic
import FormLowering.Ty.Layout

/-!
The C rule for the fields of a record, on numbers without a bound. Every field goes to the least
multiple of its alignment that is not below the end of the field before, and the record is padded
to a multiple of the greatest alignment.
-/

namespace FormLowering

/-- Where a field of a record is stored, and the size and the alignment of its type. -/
structure Placement where
  offset : Nat
  size : Nat
  alignment : Nat
  deriving DecidableEq, Repr

namespace Placement

def finish (place : Placement) : Nat := place.offset + place.size

/-- `n` is the least multiple of an alignment that is not below an offset. -/
abbrev LeastMultiple (alignment offset n : Nat) : Prop :=
  IsLeast {m | alignment ∣ m ∧ offset ≤ m} n

/-- Placements one after another, the first from `offset` on and the last up to `finish`. -/
inductive Packed : (offset : Nat) → List Placement → (finish : Nat) → Prop
  | nil {offset : Nat} : Packed offset [] offset
  | cons {offset finish : Nat} {place : Placement} {rest : List Placement}
    (least : LeastMultiple place.alignment offset place.offset)
    (packed : Packed place.finish rest finish) : Packed offset (place :: rest) finish

/-- The greatest alignment of the placements; it is one if there are none. -/
inductive Greatest : List Placement → Nat → Prop
  | none : Greatest [] 1
  | some {places : List Placement} {alignment : Nat}
    (greatest : IsGreatest {n | ∃ place ∈ places, place.alignment = n} alignment) :
    Greatest places alignment

end Placement

namespace Layout

open Placement

theorem roundUp_le {offset alignment : Nat} : offset ≤ roundUp offset alignment :=
  Nat.le_add_right _ _

theorem dvd_roundUp {offset alignment : Nat} (pos : 0 < alignment) :
    alignment ∣ roundUp offset alignment := by
  apply Nat.dvd_of_mod_eq_zero
  rw [roundUp, Nat.add_mod_mod, ← Nat.mod_add_mod]
  have := Nat.mod_lt offset pos
  rw [Nat.add_sub_cancel' (by omega), Nat.mod_self]

theorem roundUp_isLeast {offset alignment : Nat} (pos : 0 < alignment) :
    LeastMultiple alignment offset (roundUp offset alignment) := by
  refine ⟨⟨dvd_roundUp pos, roundUp_le⟩, ?_⟩
  rintro _ ⟨⟨k, rfl⟩, above⟩
  -- two multiples of the alignment that are less than one alignment apart are the same
  obtain ⟨q, hq⟩ : alignment ∣ roundUp offset alignment := dvd_roundUp pos
  have near : roundUp offset alignment < offset + alignment := by
    have := Nat.mod_lt (alignment - offset % alignment) pos
    simp only [roundUp]
    omega
  have : alignment * q < alignment * (k + 1) := by rw [Nat.mul_succ]; omega
  have := Nat.lt_of_mul_lt_mul_left this
  rw [hq]
  exact Nat.mul_le_mul_left alignment (by omega)

theorem checked_eq_ok {ty : Ty} {n m : Nat} : checked ty n = .ok m ↔ n < 2 ^ 64 ∧ n = m := by
  unfold checked
  split
  · rename_i fits
    exact ⟨fun h => ⟨fits, Except.ok.inj h⟩, fun h => congrArg Except.ok h.2⟩
  · rename_i large
    exact ⟨nofun, fun h => absurd h.1 large⟩

theorem aligned_of_least {ty : Ty} {offset alignment n : Nat} (pos : 0 < alignment)
    (least : LeastMultiple alignment offset n) : aligned ty offset alignment = checked ty n := by
  rw [aligned, if_neg (by omega), least.unique (roundUp_isLeast pos)]

theorem aligned_eq_ok {ty : Ty} {offset alignment n : Nat} :
    aligned ty offset alignment = .ok n ↔
      0 < alignment ∧ n < 2 ^ 64 ∧ LeastMultiple alignment offset n := by
  rcases Nat.eq_zero_or_pos alignment with rfl | pos
  · simp [aligned]
  · have least : LeastMultiple alignment offset (roundUp offset alignment) := roundUp_isLeast pos
    rw [aligned_of_least pos least, checked_eq_ok]
    constructor
    · rintro ⟨fits, rfl⟩
      exact ⟨pos, fits, least⟩
    · rintro ⟨_, fits, least'⟩
      rw [least.unique least']
      exact ⟨fits, rfl⟩

end Layout

namespace Placement

variable {offset finish alignment : Nat} {place other : Placement} {places : List Placement}

theorem Packed.le (h : Packed offset places finish) : offset ≤ finish := by
  induction h with
  | nil => exact le_rfl
  | cons least _ ih => exact least.1.2.trans ((Nat.le_add_right _ _).trans ih)

theorem Packed.within (h : Packed offset places finish) (mem : place ∈ places) :
    offset ≤ place.offset ∧ place.finish ≤ finish := by
  induction h with
  | nil => cases mem
  | cons least packed ih =>
    rcases List.mem_cons.mp mem with rfl | mem
    · exact ⟨least.1.2, packed.le⟩
    · have := ih mem
      exact ⟨least.1.2.trans ((Nat.le_add_right _ _).trans this.1), this.2⟩

theorem Packed.dvd (h : Packed offset places finish) (mem : place ∈ places) :
    place.alignment ∣ place.offset := by
  induction h with
  | nil => cases mem
  | cons least _ ih =>
    rcases List.mem_cons.mp mem with rfl | mem
    · exact least.1.1
    · exact ih mem

/-- Nothing is below the first field, so it needs no padding. -/
theorem Packed.first (h : Packed 0 places finish) (found : places[0]? = some place) :
    place.offset = 0 := by
  cases h with
  | nil => cases found
  | cons least =>
    cases found
    exact Nat.le_zero.mp (least.2 ⟨Nat.dvd_zero _, le_rfl⟩)

theorem Packed.next (h : Packed offset places finish) {index : Nat}
    (found : places[index]? = some place) (found' : places[index + 1]? = some other) :
    LeastMultiple other.alignment place.finish other.offset := by
  induction h generalizing index with
  | nil => cases found
  | cons least packed ih =>
    cases index with
    | succ index => exact ih found found'
    | zero =>
      cases found
      cases packed with
      | nil => cases found'
      | cons least => cases found'; exact least

theorem Packed.ordered (h : Packed offset places finish) {index later : Nat} (lt : index < later)
    (found : places[index]? = some place) (found' : places[later]? = some other) :
    place.finish ≤ other.offset := by
  induction h generalizing index later with
  | nil => cases found
  | cons least packed ih =>
    cases later with
    | zero => cases lt
    | succ later =>
      cases index with
      | succ index => exact ih (Nat.lt_of_succ_lt_succ lt) found found'
      | zero =>
        cases found
        exact (packed.within (List.mem_of_getElem? found')).1

theorem Packed.last (h : Packed offset places finish) :
    finish = places.getLast?.elim offset Placement.finish := by
  induction h with
  | nil => rfl
  | @cons offset finish place rest least packed ih =>
    rw [ih, List.getLast?_cons]
    cases rest.getLast? <;> rfl

/-- What `places` are to a record of `size` bytes with an `alignment`. -/
structure Fill (places : List Placement) (size alignment : Nat) : Prop where
  first : ∀ {place : Placement}, places[0]? = some place → place.offset = 0
  next : ∀ {index : Nat} {place other : Placement}, places[index]? = some place →
    places[index + 1]? = some other → LeastMultiple other.alignment place.finish other.offset
  divides : ∀ place ∈ places, place.alignment ∣ alignment
  greatest : Greatest places alignment
  padded : LeastMultiple alignment (places.getLast?.elim 0 Placement.finish) size
  /-- A field is aligned in every element of an array of the record. -/
  aligned : ∀ place ∈ places, ∀ element, place.alignment ∣ element * size + place.offset
  ordered : ∀ {index later : Nat} {place other : Placement}, index < later →
    places[index]? = some place → places[later]? = some other → place.finish ≤ other.offset
  inside : ∀ place ∈ places, place.finish ≤ size

theorem Greatest.le (h : Greatest places alignment) (mem : place ∈ places) :
    place.alignment ≤ alignment := by
  cases h with
  | none => cases mem
  | some greatest => exact greatest.2 ⟨place, mem, rfl⟩

/-- One of the alignments is the greatest one, so it is a power of two if they all are. -/
theorem Greatest.isPowerOfTwo (h : Greatest places alignment)
    (powers : ∀ place ∈ places, place.alignment.isPowerOfTwo) : alignment.isPowerOfTwo := by
  cases h with
  | none => exact ⟨0, rfl⟩
  | some greatest =>
    obtain ⟨place, mem, rfl⟩ := greatest.1
    exact powers place mem

/-- Of two powers of two, the smaller one divides the greater one. -/
theorem dvd_of_isPowerOfTwo {m n : Nat} (hm : m.isPowerOfTwo) (hn : n.isPowerOfTwo) (le : m ≤ n) :
    m ∣ n := by
  obtain ⟨i, rfl⟩ := hm
  obtain ⟨j, rfl⟩ := hn
  exact Nat.pow_dvd_pow 2 ((Nat.pow_le_pow_iff_right (by decide)).mp le)

theorem Packed.fill {size : Nat} (h : Packed 0 places finish)
    (greatest : Greatest places alignment) (padded : LeastMultiple alignment finish size)
    (powers : ∀ place ∈ places, place.alignment.isPowerOfTwo) : Fill places size alignment := by
  have divides (place : Placement) (mem : place ∈ places) : place.alignment ∣ alignment :=
    dvd_of_isPowerOfTwo (powers place mem) (greatest.isPowerOfTwo powers) (greatest.le mem)
  refine ⟨h.first, h.next, divides, greatest, h.last ▸ padded, fun place mem element => ?_,
    h.ordered, fun place mem => (h.within mem).2.trans padded.1.2⟩
  have whole : place.alignment ∣ size := Nat.dvd_trans (divides place mem) padded.1.1
  exact Nat.dvd_add (Nat.dvd_mul_left_of_dvd whole element) (h.dvd mem)

/-- Alignments are positive, so it makes no difference to start from one. -/
theorem greatest_iff (pos : ∀ place ∈ places, 0 < place.alignment) :
    Greatest places alignment ↔
      IsGreatest {n | n = 1 ∨ ∃ place ∈ places, place.alignment = n} alignment := by
  constructor
  · intro h
    cases h with
    | none => exact ⟨.inl rfl, by rintro n (rfl | ⟨_, mem, _⟩); exacts [le_rfl, nomatch mem]⟩
    | some greatest =>
      obtain ⟨place, mem, rfl⟩ := greatest.1
      refine ⟨.inr ⟨place, mem, rfl⟩, ?_⟩
      rintro n (rfl | other)
      · exact pos place mem
      · exact greatest.2 other
  · rintro ⟨mem, upper⟩
    cases places with
    | nil =>
      obtain rfl | ⟨_, mem, _⟩ := mem
      · exact .none
      · cases mem
    | cons first rest =>
      refine .some ⟨?_, fun n other => upper (.inr other)⟩
      obtain rfl | mem := mem
      · have least := pos first List.mem_cons_self
        have := upper (.inr ⟨first, List.mem_cons_self, rfl⟩)
        exact ⟨first, List.mem_cons_self, by omega⟩
      · exact mem

/-- The maximum that is kept on the way through the fields. -/
theorem foldl_max_isGreatest (least : Nat) :
    IsGreatest {n | n = least ∨ ∃ place ∈ places, place.alignment = n}
      (places.foldl (fun greatest place => max greatest place.alignment) least) := by
  induction places generalizing least with
  | nil => exact ⟨.inl rfl, by rintro n (rfl | ⟨_, mem, _⟩); exacts [le_rfl, nomatch mem]⟩
  | cons place rest ih =>
    obtain ⟨mem, upper⟩ := ih (max least place.alignment)
    refine ⟨?_, ?_⟩
    · rcases mem with found | ⟨other, mem, found⟩
      · rw [List.foldl_cons, found]
        rcases le_total place.alignment least with le | le
        · exact .inl (max_eq_left le)
        · exact .inr ⟨place, List.mem_cons_self, (max_eq_right le).symm⟩
      · exact .inr ⟨other, List.mem_cons_of_mem _ mem, found⟩
    · have above := upper (.inl rfl)
      rintro n (rfl | ⟨other, mem, rfl⟩)
      · exact (le_max_left _ _).trans above
      · rcases List.mem_cons.mp mem with rfl | mem
        · exact (le_max_right _ _).trans above
        · exact upper (.inr ⟨other, mem, rfl⟩)

end Placement
end FormLowering
