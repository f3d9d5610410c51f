import Psst.Lib.Json

/-!
# JSON texts on a line

A protocol that sends one JSON text a line relies on two facts: a text has no line break in it,
since a string literal escapes the ones of its value, and no character but the line break has the
octet of one in its UTF-8 form. A text that is sent twice, as it is and as the content of a string
literal, costs the sum of two weights, which is a weight again.
-/

namespace Json

/-! ## Octets -/

/-- The UTF-8 form of a text. -/
def octets (t : Text) : List UInt8 := t.flatMap String.utf8EncodeChar

theorem octets_append (t u : Text) : octets (t ++ u) = octets t ++ octets u :=
  List.flatMap_append

theorem length_octets (t : Text) : (octets t).length = weight utf8 t := by
  induction t with
  | nil => rfl
  | cons c t ih =>
      rw [octets, List.flatMap_cons, List.length_append, String.length_utf8EncodeChar, weight_cons,
        ← ih]
      rfl

/-- Only a line break has the octet of a line break in it. -/
theorem newline_of_mem_utf8EncodeChar {c : Char} (h : (10 : UInt8) ∈ String.utf8EncodeChar c) :
    c = '\n' := by
  -- the octets of a longer form are 128 or more
  have hhigh : ∀ n, 128 ≤ n → n < 256 → (10 : UInt8) ≠ UInt8.ofNat n := by
    intro n hlow hsmall heq
    have hnat := congrArg UInt8.toNat heq
    rw [UInt8.toNat_ofNat', Nat.mod_eq_of_lt hsmall] at hnat
    have hten : (10 : UInt8).toNat = 10 := rfl
    omega
  unfold String.utf8EncodeChar at h
  simp only at h
  split at h
  · rename_i hsmall
    rw [List.mem_singleton] at h
    have hnat := congrArg UInt8.toNat h
    have hten : (10 : UInt8).toNat = 10 := rfl
    rw [UInt8.toNat_ofNat', hten, Nat.mod_eq_of_lt (by omega)] at hnat
    exact Char.ext (UInt32.toNat_inj.mp hnat.symm)
  · split at h
    · simp only [List.mem_cons, List.not_mem_nil, or_false] at h
      rcases h with h | h
      · exact absurd h (hhigh _ (by omega) (by omega))
      · exact absurd h (hhigh _ (by omega) (by omega))
    · split at h
      · simp only [List.mem_cons, List.not_mem_nil, or_false] at h
        rcases h with h | h | h
        · exact absurd h (hhigh _ (by omega) (by omega))
        · exact absurd h (hhigh _ (by omega) (by omega))
        · exact absurd h (hhigh _ (by omega) (by omega))
      · simp only [List.mem_cons, List.not_mem_nil, or_false] at h
        rcases h with h | h | h | h
        · exact absurd h (hhigh _ (by omega) (by omega))
        · exact absurd h (hhigh _ (by omega) (by omega))
        · exact absurd h (hhigh _ (by omega) (by omega))
        · exact absurd h (hhigh _ (by omega) (by omega))

/-! ## Texts without line breaks -/

/-- A text that stays on its line. -/
def OneLine (t : Text) : Prop := '\n' ∉ t

instance (t : Text) : Decidable (OneLine t) := inferInstanceAs (Decidable (_ ∉ _))

theorem OneLine.octets {t : Text} (h : OneLine t) : (10 : UInt8) ∉ octets t := by
  intro hmem
  obtain ⟨c, hc, hnewline⟩ := List.mem_flatMap.mp hmem
  rw [newline_of_mem_utf8EncodeChar hnewline] at hc
  exact h hc

theorem OneLine.append {t u : Text} (ht : OneLine t) (hu : OneLine u) : OneLine (t ++ u) := by
  intro hmem
  cases List.mem_append.mp hmem with
  | inl h => exact ht h
  | inr h => exact hu h

theorem OneLine.cons {c : Char} {t : Text} (hc : c ≠ '\n') (ht : OneLine t) : OneLine (c :: t) := by
  intro hmem
  cases List.mem_cons.mp hmem with
  | inl h => exact hc h.symm
  | inr h => exact ht h

theorem oneLine_escapeChar (c : Char) : OneLine (escapeChar c) := by
  have hdigit : ∀ n < 16, Nat.digitChar n ≠ '\n' := by decide
  unfold escapeChar
  split_ifs with _ _ hbreak _ _ _ _ hcontrol
  iterate 7 decide
  · have hhigh := hdigit (c.toNat / 16) (by omega)
    have hlow := hdigit (c.toNat % 16) (by omega)
    have hfixed : OneLine ['\\', 'u', '0', '0'] := by decide
    have hrest : OneLine [Nat.digitChar (c.toNat / 16), Nat.digitChar (c.toNat % 16)] :=
      .cons hhigh (.cons hlow (by decide))
    exact OneLine.append hfixed hrest
  · exact .cons hbreak (by decide)

/-- A string literal stays on its line, whatever its value. -/
@[simp] theorem oneLine_quote (t : Text) : OneLine (quote t) := by
  have hescape : OneLine (escape t) := by
    intro hmem
    obtain ⟨c, -, hc⟩ := List.mem_flatMap.mp hmem
    exact oneLine_escapeChar c hc
  exact OneLine.append (.cons (by decide) hescape) (by decide)

@[simp] theorem oneLine_str (s : String) : OneLine (str s) := oneLine_quote s.toList

@[simp] theorem oneLine_bool (b : Bool) : OneLine (bool b) := by
  cases b <;> decide

@[simp] theorem oneLine_nat (n : Nat) : OneLine (nat n) := by
  intro hmem
  have hdigit := Nat.isDigit_of_mem_toDigits (by decide) (by decide) hmem
  exact absurd hdigit (by decide)

@[simp] theorem oneLine_nullable {α : Type} {encode : α → Text} (h : ∀ a, OneLine (encode a))
    (value : Option α) : OneLine (nullable encode value) := by
  cases value with
  | none => exact (by decide : OneLine null)
  | some a => exact h a

theorem oneLine_commaSeparated {ts : List Text} (h : ∀ t ∈ ts, OneLine t) :
    OneLine (commaSeparated ts) := by
  cases ts with
  | nil => decide
  | cons t ts =>
      refine OneLine.append (h t (List.mem_cons_self ..)) ?_
      intro hmem
      obtain ⟨u, hu, hc⟩ := List.mem_flatMap.mp hmem
      exact OneLine.cons (by decide) (h u (List.mem_cons_of_mem _ hu)) hc

@[simp] theorem oneLine_field (name : String) {t : Text} (h : OneLine t) : OneLine (field name t) :=
  (oneLine_str name).append (.cons (by decide) h)

theorem oneLine_obj {ts : List Text} (h : ∀ t ∈ ts, OneLine t) : OneLine (obj ts) :=
  OneLine.append (.cons (by decide) (oneLine_commaSeparated h)) (by decide)

@[simp] theorem oneLine_arr {α : Type} {encode : α → Text} (h : ∀ a, OneLine (encode a)) (as : List α) :
    OneLine (arr (as.map encode)) := by
  refine OneLine.append (.cons (by decide) (oneLine_commaSeparated ?_)) (by decide)
  intro t ht
  obtain ⟨a, -, rfl⟩ := List.mem_map.mp ht
  exact h a

/-! ## Texts written twice -/

/-- The bytes of a character in a text that is written as it is and once more as the content of a
string literal. -/
def twice (c : Char) : Nat := utf8 c + quoted c

theorem weight_twice (t : Text) : weight twice t = weight utf8 t + weight quoted t := by
  induction t with
  | nil => rfl
  | cons c t ih =>
      rw [weight_cons, weight_cons, weight_cons, ih, twice]
      omega

/-- The escapes of a literal are escaped again: a control character costs seven bytes more. -/
theorem weight_twice_escapeChar_le (c : Char) : weight twice (escapeChar c) ≤ 13 * utf8 c := by
  have hpos : 1 ≤ utf8 c := c.utf8Size_pos
  have hdigit : ∀ n < 16, twice (Nat.digitChar n) = 2 := by decide
  have hshort : ∀ t : Text, weight twice t ≤ 13 → weight twice t ≤ 13 * utf8 c :=
    fun t ht => by omega
  by_cases hplain : Plain c
  · have hone : weight utf8 (escapeChar c) = utf8 c := by
      rw [hplain, weight_cons, weight_nil]
      rfl
    rw [hplain, weight_cons, weight_nil, twice, quoted, hone]
    omega
  · unfold Plain at hplain
    unfold escapeChar at hplain ⊢
    split_ifs at hplain ⊢ with _ _ _ _ _ _ _ hcontrol
    iterate 7
      · refine hshort _ ?_
        decide
    · have hhigh := hdigit (c.toNat / 16) (by omega)
      have hlow := hdigit (c.toNat % 16) (by omega)
      have hfixed : weight twice ['\\', 'u', '0', '0'] = 9 := by decide
      refine hshort _ ?_
      show weight twice (['\\', 'u', '0', '0'] ++ [_, _]) ≤ 13
      rw [weight_append, hfixed, weight_cons, weight_cons, weight_nil, hhigh, hlow]
    · exact absurd rfl hplain

theorem weight_twice_str_le (s : String) : weight twice (str s) ≤ 6 + 13 * s.utf8ByteSize := by
  have hbody : ∀ t : Text, weight (fun c => weight twice (escapeChar c)) t ≤ 13 * weight utf8 t := by
    intro t
    induction t with
    | nil => exact Nat.zero_le _
    | cons c t ih =>
        have hc := weight_twice_escapeChar_le c
        rw [weight_cons, weight_cons]
        omega
  have hquote : twice '"' = 3 := by decide
  have hcontent := hbody s.toList
  rw [weight_utf8_toList] at hcontent
  rw [str, weight_quote, hquote]
  omega

/-- The elements of an object or an array, each with a comma. -/
def separated (w : Char → Nat) (ts : List Text) : Nat := (ts.map fun t => weight w t + w ',').sum

@[simp] theorem separated_nil {w : Char → Nat} : separated w [] = 0 := rfl

@[simp] theorem separated_cons {w : Char → Nat} (t : Text) (ts : List Text) :
    separated w (t :: ts) = weight w t + w ',' + separated w ts := by
  simp [separated]

/-- An object of at least one field has one comma less than fields. -/
theorem weight_obj_separated {w : Char → Nat} (t : Text) (ts : List Text) :
    weight w (obj (t :: ts)) + w ',' = w '{' + w '}' + separated w (t :: ts) := by
  have hcommas := weight_commaSeparated (w := w) t ts
  rw [weight_obj, separated]
  omega

theorem weight_arr_separated {w : Char → Nat} (ts : List Text) :
    weight w (arr ts) = w '[' + w ']' + (separated w ts - w ',') := by
  rw [weight_arr, separated]
  cases ts with
  | nil => simp [commaSeparated]
  | cons t ts =>
      have hcommas := weight_commaSeparated (w := w) t ts
      omega

end Json
