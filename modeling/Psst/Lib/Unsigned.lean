import Mathlib.Tactic.Common

/-!
# Unsigned integers

Arithmetic that stops where it would overflow or divide by zero; `FromStr` of the unsigned
integers of the standard library, and `str::split_once`: an optional plus sign, at least one
digit, nothing else, and no overflow.
-/

namespace Unsigned

/-! ## Arithmetic -/

/-- Addition in the type whose largest value is `max`. -/
def add (max a b : Nat) : Option Nat := if a + b ≤ max then some (a + b) else none

def sub (a b : Nat) : Option Nat := if b ≤ a then some (a - b) else none

def rem (a b : Nat) : Option Nat := if b = 0 then none else some (a % b)

theorem add_of_le {max a b : Nat} (h : a + b ≤ max) : add max a b = some (a + b) := if_pos h

theorem sub_of_le {a b : Nat} (h : b ≤ a) : sub a b = some (a - b) := if_pos h

theorem rem_of_pos {a b : Nat} (h : 0 < b) : rem a b = some (a % b) := if_neg (Nat.ne_of_gt h)

/-! ## Texts -/

abbrev Text := List Char

/-- The number that a row of digits stands for. -/
def ofDigits (digits : Text) : Nat := digits.foldl (fun n c => 10 * n + (c.toNat - 48)) 0

/-- The digits of a number, without its sign. -/
def unsigned : Text → Text
  | '+' :: rest => rest
  | text => text

/-- `str::parse` for the type whose largest value is `max`. -/
def parse (max : Nat) (text : Text) : Option Nat :=
  if unsigned text = [] ∨ ¬ (unsigned text).all Char.isDigit then none
  else if max < ofDigits (unsigned text) then none
  else some (ofDigits (unsigned text))

example : parse 255 "+005".toList = some 5 ∧ parse 255 "256".toList = none
    ∧ parse 255 "+".toList = none := by decide

theorem isDigit_plus : Char.isDigit '+' = false := by decide

theorem unsigned_of_not_mem {text : Text} (h : '+' ∉ text) : unsigned text = text := by
  unfold unsigned
  split
  · exact absurd (List.mem_cons_self ..) h
  · rfl

theorem unsigned_of_digits {text : Text} (h : text.all Char.isDigit = true) :
    unsigned text = text := by
  apply unsigned_of_not_mem
  intro hmem
  have hplus := List.all_eq_true.mp h _ hmem
  rw [isDigit_plus] at hplus
  cases hplus

theorem parse_le {max n : Nat} {text : Text} (h : parse max text = some n) : n ≤ max := by
  unfold parse at h
  split_ifs at h with _ hmax
  cases h
  omega

/-- What is parsed without a sign is digits. -/
theorem digits_of_parse {max n : Nat} {text : Text} (hplus : '+' ∉ text)
    (h : parse max text = some n) : text ≠ [] ∧ text.all Char.isDigit = true := by
  unfold parse at h
  rw [unsigned_of_not_mem hplus] at h
  split_ifs at h with hbad
  rw [not_or, not_not] at hbad
  exact hbad

/-- `str::split_once` -/
def splitOnce (separator : Char) (text : Text) : Option (Text × Text) :=
  if separator ∈ text then
    some (text.takeWhile (· ≠ separator), (text.dropWhile (· ≠ separator)).tail)
  else none

theorem splitOnce_eq_none {separator : Char} {text : Text} :
    splitOnce separator text = none ↔ separator ∉ text := by
  unfold splitOnce
  split_ifs with h <;> simp [h]

theorem splitOnce_append {separator : Char} {front : Text} (h : separator ∉ front) (back : Text) :
    splitOnce separator (front ++ separator :: back) = some (front, back) := by
  have hfront : ∀ c ∈ front, decide (c ≠ separator) = true := by
    intro c hc
    rw [decide_eq_true_eq]
    rintro rfl
    exact h hc
  unfold splitOnce
  rw [if_pos (List.mem_append_right _ (List.mem_cons_self ..)),
    List.takeWhile_append_of_pos hfront, List.dropWhile_append_of_pos hfront]
  simp

theorem append_of_splitOnce {separator : Char} {text front back : Text}
    (h : splitOnce separator text = some (front, back)) : text = front ++ separator :: back := by
  unfold splitOnce at h
  split_ifs at h with hmem
  cases h
  induction text with
  | nil => cases hmem
  | cons c rest ih =>
      by_cases hc : c = separator
      · simp [hc]
      · have hrest : separator ∈ rest := by
          rcases List.mem_cons.mp hmem with heq | hrest
          · exact absurd heq.symm hc
          · exact hrest
        simp only [List.takeWhile_cons, List.dropWhile_cons, decide_eq_true hc, if_true,
          List.cons_append]
        exact congrArg (c :: ·) (ih hrest)

end Unsigned
