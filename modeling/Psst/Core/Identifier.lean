import Mathlib.Data.List.Basic
import Psst.Core.Value

/-!
# What accepted values are made of

The characters of an opaque identifier and the grammar of a text value. Every place that puts one
between separators, or checks it again with a grammar of its own, rests on them.
-/

namespace Psst

/-- The smart constructor does not change the value. -/
theorem Validated.val_of_new {α ε : Type} {check : α → Except ε Unit} {a : α}
    {v : Validated check} (h : Validated.new check a = .ok v) : v.val = a := by
  unfold Validated.new at h
  split at h
  · cases h
    rfl
  · cases h

theorem isAsciiAlphanumeric_of_lowercase {c : Char} (h : isAsciiLowercase c = true) :
    isAsciiAlphanumeric c = true := by
  simp [isAsciiAlphanumeric, h]

theorem isAsciiAlphanumeric_of_digit {c : Char} (h : isAsciiDigit c = true) :
    isAsciiAlphanumeric c = true := by
  simp [isAsciiAlphanumeric, h]

/-- The characters of a text tell whether it is empty. -/
theorem toList_isEmpty (value : String) : value.toList.isEmpty = value.isEmpty := by
  rw [Bool.eq_iff_iff, List.isEmpty_iff, String.isEmpty_iff, String.toList_eq_nil_iff]

/-- **What a text rule accepts.** -/
theorem TextRule.check_eq_ok {rule : TextRule} {value : String} :
    rule.check value = .ok () ↔ value.isEmpty = false ∧ value.utf8ByteSize ≤ rule.max
      ∧ rule.validator value = true := by
  unfold TextRule.check
  rw [toList_isEmpty]
  split_ifs with hempty hlarge hvalid
  · simp [hempty]
  · simp only [false_iff]
    omega
  · simp at hvalid
    simp [hvalid]
  · simp at hvalid hempty
    simp [hvalid, hempty]
    omega

/-- What a text rule accepted, its validator accepted. -/
theorem TextRule.validator_eq (rule : TextRule) (v : Validated rule.check) :
    rule.validator v.val = true := by
  have hvalid := v.valid
  unfold TextRule.check at hvalid
  split at hvalid
  · cases hvalid
  · split at hvalid
    · cases hvalid
    · split at hvalid
      · cases hvalid
      · rename_i hok
        simpa using hok

/-- An identifier is its prefix, an underscore, and a non-empty rest. -/
theorem OpaqueId.shape {kind : IdKind} (id : OpaqueId kind) :
    ∃ suffix, id.val.toList = kind.pre.toList ++ '_' :: suffix ∧ suffix ≠ []
      ∧ ∀ c ∈ suffix, isAsciiLowercase c = true ∨ isAsciiDigit c = true ∨ c = '-' := by
  have hvalid := id.valid
  unfold OpaqueId.check at hvalid
  split at hvalid
  · cases hvalid
  · rename_i suffix hprefix
    split at hvalid
    · cases hvalid
    · rename_i hlength
      split at hvalid
      · cases hvalid
      · rename_i hchars
        have hlist := List.isPrefixOf?_eq_some_iff_append_eq.mp hprefix
        rw [List.append_assoc] at hlist
        refine ⟨suffix, hlist.symm, ?_, ?_⟩
        · rintro rfl
          exact hlength rfl
        · intro c hc
          rw [Bool.not_eq_true', Bool.not_eq_false] at hchars
          have hchar := List.all_eq_true.mp hchars c hc
          simpa [or_assoc] using hchar

/-- Every character is a letter, a digit, a dash or an underscore. -/
theorem OpaqueId.chars {kind : IdKind} (id : OpaqueId kind) {c : Char} (hc : c ∈ id.val.toList) :
    isAsciiAlphanumeric c = true ∨ c = '-' ∨ c = '_' := by
  obtain ⟨suffix, hlist, -, hsuffix⟩ := id.shape
  rw [hlist, List.mem_append, List.mem_cons] at hc
  rcases hc with hc | rfl | hc
  · have hpre : kind.pre.toList.all isAsciiAlphanumeric = true := by
      cases kind <;> decide
    exact Or.inl (List.all_eq_true.mp hpre c hc)
  · exact Or.inr (Or.inr rfl)
  · rcases hsuffix c hc with h | h | h
    · exact Or.inl (isAsciiAlphanumeric_of_lowercase h)
    · exact Or.inl (isAsciiAlphanumeric_of_digit h)
    · exact Or.inr (Or.inl h)

theorem OpaqueId.isEmpty_eq_false {kind : IdKind} (id : OpaqueId kind) :
    id.val.isEmpty = false := by
  obtain ⟨suffix, hlist, -, -⟩ := id.shape
  rw [Bool.eq_false_iff]
  intro hempty
  rw [String.isEmpty_iff.mp hempty] at hlist
  have hmem : '_' ∈ "".toList := by
    rw [hlist]
    exact List.mem_append_right _ (List.mem_cons_self ..)
  cases hmem

end Psst
