import Mathlib.Logic.Relation

/-!
# Regular expressions

The regular expressions that the patterns of a JSON schema are made of, with the meaning that
ECMAScript gives them: which suffix of the text a match may begin at and which it may leave.
-/

namespace Regex

/-- The white space of ECMAScript, `\s`. -/
def isSpace (c : Char) : Bool :=
  let n := c.toNat
  (9 ≤ n && n ≤ 13) || n == 0x20 || n == 0xa0 || n == 0x1680 || (0x2000 ≤ n && n ≤ 0x200a)
    || n == 0x2028 || n == 0x2029 || n == 0x202f || n == 0x205f || n == 0x3000 || n == 0xfeff

/-- The line terminators, which the dot does not match. -/
def isLineTerminator (c : Char) : Bool :=
  let n := c.toNat
  n == 0x0a || n == 0x0d || n == 0x2028 || n == 0x2029

/-- A part of a character class. -/
inductive Item where
  | single (c : Char)
  | range (low high : Char)
  | space
  | nonspace

/-- What matches one character. -/
inductive Atom where
  | char (c : Char)
  | oneOf (items : List Item)
  | nonspace
  | dot

def Item.contains : Item → Char → Bool
  | .single c, x => x == c
  | .range low high, x => decide (low ≤ x) && decide (x ≤ high)
  | .space, x => isSpace x
  | .nonspace, x => !isSpace x

def Atom.contains : Atom → Char → Bool
  | .char c, x => x == c
  | .oneOf items, x => items.any fun item => item.contains x
  | .nonspace, x => !isSpace x
  | .dot, x => !isLineTerminator x

end Regex

/-- A regular expression. -/
inductive Regex where
  | atom (a : Regex.Atom)
  | seq (r q : Regex)
  | opt (r : Regex)
  | star (r : Regex)
  | plus (r : Regex)
  | start
  | stop
  | notAhead (r : Regex)

namespace Regex

/-! ## The text of an expression -/

def hexDigits (n : Nat) : List Char :=
  [4096, 256, 16, 1].map fun place => "0123456789ABCDEF".toList.getD (n / place % 16) '0'

/-- Control characters are written as escapes. -/
def charText (c : Char) : List Char :=
  if c.toNat < 0x20 ∨ c.toNat = 0x7f then '\\' :: 'u' :: hexDigits c.toNat else [c]

def Item.text : Item → List Char
  | .single c => charText c
  | .range low high => charText low ++ '-' :: charText high
  | .space => ['\\', 's']
  | .nonspace => ['\\', 'S']

def Atom.text : Atom → List Char
  | .char c => charText c
  | .oneOf items => '[' :: items.flatMap Item.text ++ [']']
  | .nonspace => ['\\', 'S']
  | .dot => ['.']

/-- A sequence is put in a group where an operator follows. -/
def text : Regex → List Char
  | atom a => a.text
  | seq r q => r.text ++ q.text
  | opt r => "(?:".toList ++ r.text ++ ")?".toList
  | star r => r.text ++ ['*']
  | plus r => r.text ++ ['+']
  | start => ['^']
  | stop => ['$']
  | notAhead r => "(?!".toList ++ r.text ++ [')']

/-! ## Matching -/

/-- The expression matches from one suffix of the text to a later one. -/
def Matches (whole : List Char) : Regex → List Char → List Char → Prop
  | atom a, s, t => ∃ c, s = c :: t ∧ a.contains c = true
  | seq r q, s, t => ∃ u, r.Matches whole s u ∧ q.Matches whole u t
  | opt r, s, t => s = t ∨ r.Matches whole s t
  | star r, s, t => Relation.ReflTransGen (r.Matches whole) s t
  | plus r, s, t => Relation.TransGen (r.Matches whole) s t
  | start, s, t => s = t ∧ s = whole
  | stop, s, t => s = t ∧ s = []
  | notAhead r, s, t => s = t ∧ ¬ ∃ u, r.Matches whole s u

/-- A match somewhere in the text. -/
def Found (r : Regex) (whole : List Char) : Prop :=
  ∃ before s t, whole = before ++ s ∧ r.Matches whole s t

variable {whole s t : List Char}

/-- **An anchored expression** matches the text from end to end. -/
theorem found_anchored {r : Regex} :
    (seq start (seq r stop)).Found whole ↔ r.Matches whole whole [] := by
  constructor
  · rintro ⟨before, s, t, -, u, ⟨rfl, rfl⟩, v, hr, rfl, rfl⟩
    exact hr
  · intro h
    exact ⟨[], whole, [], rfl, whole, ⟨rfl, rfl⟩, [], h, rfl, rfl⟩

/-- **A run of one class.** -/
theorem matches_star_atom {a : Atom} :
    (star (atom a)).Matches whole s t
      ↔ ∃ run, s = run ++ t ∧ ∀ c ∈ run, a.contains c = true := by
  constructor
  · intro h
    induction h with
    | refl => exact ⟨[], rfl, by simp⟩
    | tail _ hstep ih =>
        obtain ⟨run, hrun, hall⟩ := ih
        obtain ⟨c, hc, hcontains⟩ := hstep
        refine ⟨run ++ [c], ?_, ?_⟩
        · rw [hrun, hc, List.append_assoc]
          rfl
        · intro x hx
          rcases List.mem_append.mp hx with hx | hx
          · exact hall x hx
          · rw [List.mem_singleton.mp hx]
            exact hcontains
  · rintro ⟨run, hrun, hall⟩
    rw [hrun]
    clear hrun
    induction run with
    | nil => exact .refl
    | cons c run ih =>
        have hhead : (atom a).Matches whole (c :: (run ++ t)) (run ++ t) :=
          ⟨c, rfl, hall c List.mem_cons_self⟩
        exact .head hhead (ih fun x hx => hall x (List.mem_cons_of_mem _ hx))

theorem matches_plus_atom {a : Atom} :
    (plus (atom a)).Matches whole s t
      ↔ ∃ run, run ≠ [] ∧ s = run ++ t ∧ ∀ c ∈ run, a.contains c = true := by
  have hplus : (plus (atom a)).Matches whole s t
      ↔ ∃ u, (atom a).Matches whole s u ∧ (star (atom a)).Matches whole u t :=
    Relation.TransGen.head'_iff
  rw [hplus]
  constructor
  · rintro ⟨u, ⟨c, rfl, hc⟩, hrest⟩
    obtain ⟨run, rfl, hall⟩ := matches_star_atom.mp hrest
    exact ⟨c :: run, by simp, rfl, List.forall_mem_cons.mpr ⟨hc, hall⟩⟩
  · rintro ⟨run, hne, rfl, hall⟩
    cases run with
    | nil => exact absurd rfl hne
    | cons c run =>
        obtain ⟨hc, hrest⟩ := List.forall_mem_cons.mp hall
        exact ⟨run ++ t, ⟨c, rfl, hc⟩, matches_star_atom.mpr ⟨run, rfl, hrest⟩⟩

/-- The characters one by one, and then an expression. -/
def word (cs : List Char) (r : Regex) : Regex := cs.foldr (fun c r => seq (atom (.char c)) r) r

theorem matches_word {cs : List Char} {r : Regex} :
    (word cs r).Matches whole s t ↔ ∃ u, s = cs ++ u ∧ r.Matches whole u t := by
  induction cs generalizing s with
  | nil => simp [word]
  | cons c cs ih =>
      constructor
      · rintro ⟨u, ⟨x, rfl, hx⟩, hrest⟩
        obtain ⟨v, rfl, hr⟩ := ih.mp hrest
        have hxc : x = c := beq_iff_eq.mp hx
        exact ⟨v, by rw [hxc]; rfl, hr⟩
      · rintro ⟨u, rfl, hr⟩
        exact ⟨cs ++ u, ⟨c, rfl, beq_self_eq_true c⟩, ih.mpr ⟨u, rfl, hr⟩⟩

/-- **Looking ahead** for a character behind a run. -/
theorem matches_notAhead {a b : Atom} :
    (notAhead (seq (star (atom a)) (atom b))).Matches whole s t
      ↔ s = t ∧ ¬ ∃ run c rest, s = run ++ c :: rest ∧ (∀ x ∈ run, a.contains x = true)
          ∧ b.contains c = true := by
  have hahead : (∃ u, (seq (star (atom a)) (atom b)).Matches whole s u)
      ↔ ∃ run c rest, s = run ++ c :: rest ∧ (∀ x ∈ run, a.contains x = true)
          ∧ b.contains c = true := by
    constructor
    · rintro ⟨u, v, hrun, c, rfl, hc⟩
      obtain ⟨run, hs, hall⟩ := matches_star_atom.mp hrun
      exact ⟨run, c, u, hs, hall, hc⟩
    · rintro ⟨run, c, rest, hs, hall, hc⟩
      exact ⟨rest, c :: rest, matches_star_atom.mpr ⟨run, hs, hall⟩, c, rfl, hc⟩
  rw [← hahead]
  rfl

/-- A text in which the ends are of one class and what is between them of another. -/
def bracketed (ends inner : Atom) : Regex :=
  seq (atom ends) (opt (seq (star (atom inner)) (atom ends)))

/-- **Such a text**, where the ends may stand inside too. -/
theorem matches_bracketed {ends inner : Atom}
    (hsub : ∀ c, ends.contains c = true → inner.contains c = true) :
    (bracketed ends inner).Matches whole s []
      ↔ s.head?.any ends.contains = true ∧ s.getLast?.any ends.contains = true
        ∧ s.all inner.contains = true := by
  constructor
  · rintro ⟨u, ⟨c, hs, hc⟩, hrest⟩
    rw [hs]
    rcases hrest with rfl | ⟨v, hrun, d, rfl, hd⟩
    · exact ⟨hc, hc, by simpa using hsub c hc⟩
    · obtain ⟨run, rfl, hall⟩ := matches_star_atom.mp hrun
      refine ⟨hc, ?_, ?_⟩
      · rw [List.getLast?_cons, List.getLast?_append]
        exact hd
      · simp only [List.all_cons, List.all_append, Bool.and_eq_true, List.all_eq_true]
        exact ⟨hsub c hc, hall, hsub d hd, by simp⟩
  · rintro ⟨hhead, hlast, hall⟩
    cases s with
    | nil => cases hhead
    | cons c rest =>
        have hc : ends.contains c = true := hhead
        refine ⟨rest, ⟨c, rfl, hc⟩, ?_⟩
        rcases List.eq_nil_or_concat rest with hnil | ⟨run, d, hrun⟩
        · exact Or.inl hnil
        · right
          rw [List.concat_eq_append] at hrun
          have hd : ends.contains d = true := by
            rw [hrun, List.getLast?_cons, List.getLast?_append] at hlast
            exact hlast
          refine ⟨[d], matches_star_atom.mpr ⟨run, hrun, ?_⟩, d, rfl, hd⟩
          intro x hx
          have hmem : x ∈ c :: rest := by
            rw [hrun]
            exact List.mem_cons_of_mem _ (List.mem_append_left _ hx)
          exact List.all_eq_true.mp hall x hmem

end Regex
