import Mathlib.Data.List.Infix
import FormLowering.Form.Literal

/-!
The bytes of string literals. A literal is folded as characters and stored as bytes; both agree,
since the bytes of a backslash and of an `n` stand for nothing else.
-/

namespace FormLowering

/-- One scan from the left makes a newline of each backslash that an `n` follows and keeps every
other byte. The number counts the newlines made. -/
inductive Folds : (bytes folded : List UInt8) → (pairs : Nat) → Prop
  | nil : Folds [] [] 0
  | pair {rest folded : List UInt8} {pairs : Nat} : Folds rest folded pairs →
      Folds (92 :: 110 :: rest) (10 :: folded) (pairs + 1)
  | keep {byte : UInt8} {rest folded : List UInt8} {pairs : Nat} :
      (byte = 92 → rest.head? ≠ some 110) → Folds rest folded pairs →
      Folds (byte :: rest) (byte :: folded) pairs

namespace Folds

variable {bytes folded : List UInt8} {pairs : Nat}

theorem unique {folded' : List UInt8} {pairs' : Nat} (h : Folds bytes folded pairs)
    (h' : Folds bytes folded' pairs') : folded = folded' ∧ pairs = pairs' := by
  induction h generalizing folded' pairs' with
  | nil =>
    cases h'
    exact ⟨rfl, rfl⟩
  | pair _ ih =>
    cases h' with
    | pair rest =>
      obtain ⟨rfl, rfl⟩ := ih rest
      exact ⟨rfl, rfl⟩
    | keep unpaired => exact absurd rfl (unpaired rfl)
  | keep unpaired _ ih =>
    cases h' with
    | pair => exact absurd rfl (unpaired rfl)
    | keep _ rest =>
      obtain ⟨rfl, rfl⟩ := ih rest
      exact ⟨rfl, rfl⟩

theorem length (h : Folds bytes folded pairs) : folded.length + pairs = bytes.length := by
  induction h with
  | nil => rfl
  | pair _ ih =>
    simp only [List.length_cons]
    omega
  | keep _ _ ih =>
    simp only [List.length_cons]
    omega

/-- Only an `n` that starts the bytes can start what they are folded to. -/
theorem head (h : Folds bytes folded pairs) (starts : folded.head? = some 110) :
    bytes.head? = some 110 := by
  cases h with
  | nil => exact starts
  | pair => cases starts
  | keep => exact starts

/-- No pair is left: a backslash is kept only where no `n` comes next, and no `n` comes to it. -/
theorem no_pair (h : Folds bytes folded pairs) : ¬[92, 110] <:+: folded := by
  induction h with
  | nil => simp
  | pair _ ih =>
    rw [List.infix_cons_iff]
    rintro (starts | inside)
    · cases (List.cons_prefix_cons.mp starts).1
    · exact ih inside
  | @keep byte rest folded _ unpaired folds ih =>
    rw [List.infix_cons_iff]
    rintro (starts | inside)
    · obtain ⟨same, next⟩ := List.cons_prefix_cons.mp starts
      refine unpaired same.symm (folds.head ?_)
      obtain ⟨last, rfl⟩ := next
      rfl
    · exact ih inside

/-- What holds no backslash is kept as it is. -/
theorem append {front : List UInt8} (kept : 92 ∉ front) (h : Folds bytes folded pairs) :
    Folds (front ++ bytes) (front ++ folded) pairs := by
  induction front with
  | nil => exact h
  | cons byte front ih =>
    rw [List.mem_cons, not_or] at kept
    exact .keep (fun same => absurd same.symm kept.1) (ih kept.2)

/-- A zero after the bytes ends up after what they are folded to. -/
theorem concat_zero (h : Folds bytes folded pairs) :
    Folds (bytes ++ [0]) (folded ++ [0]) pairs := by
  induction h with
  | nil => exact .keep nofun .nil
  | pair _ ih => exact .pair ih
  | @keep byte rest _ _ unpaired _ ih =>
    apply Folds.keep _ ih
    intro same
    cases rest with
    | nil => exact nofun
    | cons next rest => exact unpaired same

end Folds

/-! ## Characters -/

/-- A byte below 128 stands for one character only. -/
theorem toNat_of_mem_utf8EncodeChar {c : Char} {byte : UInt8} (ascii : byte.toNat < 128)
    (mem : byte ∈ String.utf8EncodeChar c) : c.toNat = byte.toNat := by
  have same : c.val.toNat = c.toNat := rfl
  unfold String.utf8EncodeChar at mem
  rw [same] at mem
  dsimp only at mem
  split at mem
  · rw [List.mem_singleton] at mem
    rw [mem, UInt8.toNat_ofNat']
    omega
  -- the first byte of a longer code has its highest bit set, and so has each byte after it
  · exfalso
    split at mem
    · simp only [List.mem_cons, List.not_mem_nil, or_false] at mem
      rcases mem with rfl | rfl <;> rw [UInt8.toNat_ofNat'] at ascii <;> omega
    · split at mem
      · simp only [List.mem_cons, List.not_mem_nil, or_false] at mem
        rcases mem with rfl | rfl | rfl <;> rw [UInt8.toNat_ofNat'] at ascii <;> omega
      · simp only [List.mem_cons, List.not_mem_nil, or_false] at mem
        rcases mem with rfl | rfl | rfl | rfl <;> rw [UInt8.toNat_ofNat'] at ascii <;> omega

/-- Where an ASCII character is a byte of the code of a character, it is the character. -/
theorem eq_of_mem_utf8EncodeChar {c ascii : Char} (small : ascii.toNat < 128)
    (mem : UInt8.ofNat ascii.toNat ∈ String.utf8EncodeChar c) : c = ascii := by
  have same : (UInt8.ofNat ascii.toNat).toNat = ascii.toNat := by
    rw [UInt8.toNat_ofNat']
    omega
  have found := toNat_of_mem_utf8EncodeChar (by omega) mem
  exact Char.toNat_inj.mp (found.trans same)

theorem head?_flatMap_utf8 {chars : List Char} (h : chars.head? ≠ some 'n') :
    (chars.flatMap String.utf8EncodeChar).head? ≠ some 110 := by
  cases chars with
  | nil => exact nofun
  | cons c rest =>
    intro starts
    have full : String.utf8EncodeChar c ≠ [] := by
      apply List.ne_nil_of_length_pos
      rw [String.length_utf8EncodeChar]
      exact c.utf8Size_pos
    rw [List.flatMap_cons, List.head?_append_of_ne_nil _ full] at starts
    have first : UInt8.ofNat 'n'.toNat ∈ String.utf8EncodeChar c := List.mem_of_head? starts
    exact h (congrArg some (eq_of_mem_utf8EncodeChar (by decide) first))

theorem folds_foldNewlines (chars : List Char) : ∃ pairs,
    Folds (chars.flatMap String.utf8EncodeChar)
      ((foldNewlines chars).flatMap String.utf8EncodeChar) pairs := by
  fun_induction foldNewlines chars with
  | case1 rest ih =>
    obtain ⟨pairs, folds⟩ := ih
    exact ⟨pairs + 1, .pair folds⟩
  | case2 c rest unpaired ih =>
    obtain ⟨pairs, folds⟩ := ih
    refine ⟨pairs, ?_⟩
    rw [List.flatMap_cons, List.flatMap_cons]
    by_cases backslash : c = '\\'
    · subst backslash
      apply Folds.keep _ folds
      intro _
      apply head?_flatMap_utf8
      intro next
      obtain ⟨tail, rfl⟩ := List.head?_eq_some_iff.mp next
      exact unpaired tail rfl rfl
    · apply folds.append
      intro mem
      exact backslash (eq_of_mem_utf8EncodeChar (by decide) mem)
  | case3 => exact ⟨0, .nil⟩

/-- A literal is stored as the scan of its bytes, with a zero after them. -/
theorem stringBytes_eq_folded (text : String) : ∃ folded pairs,
    Folds text.toUTF8.data.toList folded pairs ∧ stringBytes text = folded ++ [0] := by
  obtain ⟨pairs, folds⟩ := folds_foldNewlines text.toList
  refine ⟨_, pairs, ?_, rfl⟩
  rwa [String.toUTF8_eq_toByteArray, ← String.utf8Encode_toList, List.utf8Encode,
    List.data_toByteArray, List.toList_toArray]

end FormLowering
