import Mathlib.Algebra.BigOperators.Group.List.Basic
import Mathlib.Data.Nat.Digits.Defs

/-!
# Compact JSON texts

The texts a compact JSON serializer writes: no blanks, fields in the order of the record, a
string escaped character by character. What a text costs is a weight per character, so that the
bytes of a text and the bytes of the same text inside another string literal are two weights of
one kind and follow from the same lemmas.
-/

namespace Json

/-- A JSON text. -/
abbrev Text := List Char

/-! ## Writing -/

/-- A character of a string literal: the short escapes, `\u00XX` for the other control
characters, and every other character as it is. -/
def escapeChar (c : Char) : Text :=
  if c = '"' then ['\\', '"']
  else if c = '\\' then ['\\', '\\']
  else if c = '\n' then ['\\', 'n']
  else if c = '\r' then ['\\', 'r']
  else if c = '\t' then ['\\', 't']
  else if c.toNat = 8 then ['\\', 'b']
  else if c.toNat = 12 then ['\\', 'f']
  else if c.toNat < 32 then
    ['\\', 'u', '0', '0', Nat.digitChar (c.toNat / 16), Nat.digitChar (c.toNat % 16)]
  else [c]

def escape (t : Text) : Text := t.flatMap escapeChar

def null : Text := ['n', 'u', 'l', 'l']

def bool (b : Bool) : Text := if b then ['t', 'r', 'u', 'e'] else ['f', 'a', 'l', 's', 'e']

def nat (n : Nat) : Text := Nat.toDigits 10 n

/-- A string literal. -/
def quote (t : Text) : Text := '"' :: escape t ++ ['"']

def str (s : String) : Text := quote s.toList

def commaSeparated : List Text → Text
  | [] => []
  | t :: ts => t ++ ts.flatMap fun u => ',' :: u

def arr (elements : List Text) : Text := '[' :: commaSeparated elements ++ [']']

def field (name : String) (value : Text) : Text := str name ++ ':' :: value

def obj (fields : List Text) : Text := '{' :: commaSeparated fields ++ ['}']

/-- A field that is left out when it has no value. -/
def optional {α : Type} (name : String) (encode : α → Text) (value : Option α) : List Text :=
  (value.map fun v => field name (encode v)).toList

/-- A value that is `null` when it is absent. -/
def nullable {α : Type} (encode : α → Text) : Option α → Text
  | some v => encode v
  | none => null

example : obj [field "id" (str "a\"\n"), field "tags" (arr [nat 10, bool true])]
    = "\x7b\"id\":\"a\\\"\\n\",\"tags\":[10,true]\x7d".toList := by decide

/-! ## Weights -/

/-- The total weight of a text. -/
def weight (w : Char → Nat) (t : Text) : Nat := (t.map w).sum

/-- The bytes of a character. -/
def utf8 (c : Char) : Nat := c.utf8Size

/-- The bytes of a character as part of a string literal. -/
def quoted (c : Char) : Nat := weight utf8 (escapeChar c)

section Weight

variable {w : Char → Nat}

@[simp] theorem weight_nil : weight w [] = 0 := rfl

@[simp] theorem weight_cons (c : Char) (t : Text) : weight w (c :: t) = w c + weight w t := by
  simp [weight]

@[simp] theorem weight_append (t u : Text) : weight w (t ++ u) = weight w t + weight w u := by
  simp [weight]

theorem weight_flatMap {α : Type} (f : α → Text) (xs : List α) :
    weight w (xs.flatMap f) = (xs.map fun x => weight w (f x)).sum := by
  induction xs with
  | nil => rfl
  | cons x xs ih => simp [ih]

theorem weight_escape (t : Text) :
    weight w (escape t) = weight (fun c => weight w (escapeChar c)) t :=
  weight_flatMap escapeChar t

@[simp] theorem weight_quote (t : Text) :
    weight w (quote t) = 2 * w '"' + weight (fun c => weight w (escapeChar c)) t := by
  simp [quote, weight_escape]
  omega

@[simp] theorem weight_field (name : String) (value : Text) :
    weight w (field name value) = weight w (str name) + w ':' + weight w value := by
  simp [field]
  omega

/-- One comma more than there are: each element comes with its own. -/
theorem weight_commaSeparated (t : Text) (ts : List Text) :
    weight w (commaSeparated (t :: ts)) + w ','
      = ((t :: ts).map fun u => weight w u + w ',').sum := by
  have hrest : weight w (ts.flatMap fun u => ',' :: u)
      = (ts.map fun u => weight w u + w ',').sum := by
    rw [weight_flatMap]
    congr 1
    apply List.map_congr_left
    intro u _
    rw [weight_cons, Nat.add_comm]
  simp only [commaSeparated, weight_append, hrest, List.map_cons, List.sum_cons]
  omega

theorem weight_commaSeparated_le (ts : List Text) :
    weight w (commaSeparated ts) ≤ (ts.map fun u => weight w u + w ',').sum := by
  cases ts with
  | nil => exact Nat.zero_le _
  | cons t ts =>
      have := weight_commaSeparated (w := w) t ts
      omega

@[simp] theorem weight_obj (fields : List Text) :
    weight w (obj fields) = w '{' + w '}' + weight w (commaSeparated fields) := by
  simp [obj]
  omega

@[simp] theorem weight_arr (elements : List Text) :
    weight w (arr elements) = w '[' + w ']' + weight w (commaSeparated elements) := by
  simp [arr]
  omega

end Weight

/-! ## Bytes -/

theorem utf8ByteSize_ofList (t : Text) : (String.ofList t).utf8ByteSize = weight utf8 t := by
  induction t with
  | nil => rfl
  | cons c t ih =>
      have hone : (String.singleton c).utf8ByteSize = utf8 c := String.utf8ByteSize_singleton
      rw [weight_cons, ← ih, ← hone, ← String.utf8ByteSize_append, String.singleton_eq_ofList,
        ← String.ofList_append]
      rfl

theorem weight_utf8_toList (s : String) : weight utf8 s.toList = s.utf8ByteSize := by
  rw [← utf8ByteSize_ofList, String.ofList_toList]

/-- A string literal has two quotes around its content. -/
theorem weight_utf8_quote (t : Text) : weight utf8 (quote t) = 2 + weight quoted t :=
  weight_quote t

theorem weight_utf8_str (s : String) : weight utf8 (str s) = 2 + weight quoted s.toList :=
  weight_utf8_quote s.toList

/-- An escaped character costs at most six bytes, and any other what it costs itself. -/
theorem quoted_le (c : Char) : quoted c ≤ 6 * utf8 c := by
  have hpos : 1 ≤ utf8 c := c.utf8Size_pos
  have hdigit : ∀ n < 16, utf8 (Nat.digitChar n) = 1 := by decide
  have hback : utf8 '\\' = 1 := by decide
  have hshort : ∀ d : Char, utf8 d = 1 → weight utf8 ['\\', d] ≤ 6 * utf8 c := by
    intro d hd
    rw [weight_cons, weight_cons, weight_nil, hd, hback]
    omega
  unfold quoted escapeChar
  split_ifs with _ _ _ _ _ _ _ hcontrol
  iterate 7
    · refine hshort _ ?_
      decide
  · have hhigh := hdigit (c.toNat / 16) (by omega)
    have hlow := hdigit (c.toNat % 16) (by omega)
    have hfixed : weight utf8 ['\\', 'u', '0', '0'] = 4 := by decide
    show weight utf8 (['\\', 'u', '0', '0'] ++ [_, _]) ≤ _
    rw [weight_append, hfixed, weight_cons, weight_cons, weight_nil, hhigh, hlow]
    omega
  · rw [weight_cons, weight_nil]
    omega

theorem weight_quoted_le (t : Text) : weight quoted t ≤ 6 * weight utf8 t := by
  induction t with
  | nil => exact Nat.zero_le _
  | cons c t ih =>
      have hc := quoted_le c
      rw [weight_cons, weight_cons]
      omega

/-- A string literal costs at most six bytes for each byte of the string, and two quotes. -/
theorem weight_utf8_str_le (s : String) : weight utf8 (str s) ≤ 2 + 6 * s.utf8ByteSize := by
  have hbody := weight_quoted_le s.toList
  rw [weight_utf8_toList] at hbody
  rw [weight_utf8_str]
  omega

/-- A character that is written as it is. -/
def Plain (c : Char) : Prop := escapeChar c = [c]

instance (c : Char) : Decidable (Plain c) := inferInstanceAs (Decidable (_ = _))

theorem plain_of_toNat {c : Char} (hcontrol : 32 ≤ c.toNat) (hquote : c.toNat ≠ 34)
    (hback : c.toNat ≠ 92) : Plain c := by
  have hne : ∀ d : Char, c.toNat ≠ d.toNat → c ≠ d := fun d h heq => h (by rw [heq])
  have hlow : ∀ d : Char, d.toNat < 32 → c ≠ d := fun d hd => hne d (by omega)
  unfold Plain escapeChar
  rw [if_neg (hne '"' hquote), if_neg (hne '\\' hback), if_neg (hlow '\n' (by decide)),
    if_neg (hlow '\r' (by decide)), if_neg (hlow '\t' (by decide)), if_neg (by omega),
    if_neg (by omega), if_neg (by omega)]

/-- A literal of plain characters costs their bytes and two quotes. -/
theorem weight_utf8_str_of_plain {s : String} (h : ∀ c ∈ s.toList, Plain c) :
    weight utf8 (str s) = 2 + s.utf8ByteSize := by
  have hplain : ∀ t : Text, (∀ c ∈ t, Plain c) → weight quoted t = weight utf8 t := by
    intro t ht
    unfold weight
    congr 1
    apply List.map_congr_left
    intro c hc
    rw [quoted, ht c hc, weight_cons, weight_nil]
    rfl
  rw [weight_utf8_str, hplain _ h, weight_utf8_toList]

/-- The decimal digits of a number. -/
theorem weight_utf8_nat_le {n e : Nat} (he : 0 < e) (hn : n < 10 ^ e) :
    weight utf8 (nat n) ≤ e := by
  have hdigits : ∀ n, weight utf8 (nat n) = (nat n).length := by
    intro n
    induction n using Nat.strong_induction_on with
    | _ n ih =>
        have hdigit : ∀ d < 10, utf8 (Nat.digitChar d) = 1 := by decide
        unfold nat at ih ⊢
        rw [Nat.toDigits_eq_if (by decide)]
        split
        · rename_i hlt
          rw [weight_cons, weight_nil, hdigit n hlt]
          rfl
        · rename_i hge
          rw [weight_append, ih (n / 10) (by omega), weight_cons, weight_nil,
            hdigit (n % 10) (by omega), List.length_append]
          rfl
  rw [hdigits, nat]
  exact (Nat.length_toDigits_le_iff (by decide) he).mpr hn

end Json
