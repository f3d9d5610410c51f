import Mathlib.Data.List.Basic
import Psst.Core.Identifier
import Psst.Core.Secret

/-!
# Arguments of the command line

An argument is octets, which need not be UTF-8. What the command line does with arguments: it reads
them as text, as numbers, and as pairs of a flag and its value. A function whose result is `none`
panics.
-/

namespace Psst.Cli

/-- `OsString` -/
abbrev OsString := List UInt8

/-- `OsStr::to_str` -/
def toStr (a : OsString) : Option String := String.fromUTF8? ⟨a.toArray⟩

theorem toStr_eq_some {a : OsString} {s : String} : toStr a = some s ↔ a = asBytes s := by
  unfold toStr String.fromUTF8? asBytes
  split
  next h =>
    rw [Option.some.injEq]
    constructor
    · rintro rfl
      rfl
    · rintro rfl
      rfl
  next h =>
    simp only [reduceCtorEq, false_iff]
    rintro rfl
    exact h s.isValidUTF8

@[simp] theorem toStr_asBytes (s : String) : toStr (asBytes s) = some s := toStr_eq_some.mpr rfl

theorem asBytes_inj {s t : String} : asBytes s = asBytes t ↔ s = t := by
  constructor
  · intro h
    have hs := toStr_asBytes s
    rw [h, toStr_asBytes] at hs
    exact (Option.some.inj hs).symm
  · exact fun h => by rw [h]

/-! ## Octets that are no text -/

/-- How many octets follow the first one of a character; there is no such character for the
others. -/
def followers (b : UInt8) : Option Nat :=
  if 0xc2 ≤ b ∧ b ≤ 0xdf then some 1
  else if 0xe0 ≤ b ∧ b ≤ 0xef then some 2
  else if 0xf0 ≤ b ∧ b ≤ 0xf4 then some 3
  else none

/-- Whether an octet goes on with a character that has begun. -/
def continues : List UInt8 → UInt8 → Bool
  | [0xe0], b => 0xa0 ≤ b && b ≤ 0xbf
  | [0xed], b => 0x80 ≤ b && b ≤ 0x9f
  | [0xf0], b => 0x90 ≤ b && b ≤ 0xbf
  | [0xf4], b => 0x80 ≤ b && b ≤ 0x8f
  | _, b => 0x80 ≤ b && b ≤ 0xbf

/-- The character that octets spell. -/
def spelled : List UInt8 → Char
  | [a, b] => Char.ofNat ((a.toNat - 0xc0) * 64 + (b.toNat - 0x80))
  | [a, b, c] =>
    Char.ofNat ((a.toNat - 0xe0) * 4096 + (b.toNat - 0x80) * 64 + (c.toNat - 0x80))
  | [a, b, c, d] =>
    Char.ofNat ((a.toNat - 0xf0) * 262144 + (b.toNat - 0x80) * 4096 + (c.toNat - 0x80) * 64
      + (d.toNat - 0x80))
  | _ => '\ufffd'

/-- An octet where a character begins: its text, and what it has begun. -/
def beginning (b : UInt8) : List Char × List UInt8 :=
  if b < 0x80 then ([Char.ofNat b.toNat], [])
  else if (followers b).isSome then ([], [b])
  else (['\ufffd'], [])

/-- The text of octets after those of a character that has begun; whatever is no character is
replaced. -/
def replaced : List UInt8 → List UInt8 → List Char
  | [], [] => []
  | _ :: _, [] => ['\ufffd']
  | [], b :: rest => (beginning b).1 ++ replaced (beginning b).2 rest
  | first :: others, b :: rest =>
    let begun := first :: others
    if continues begun b then
      if followers first = some begun.length then spelled (begun ++ [b]) :: replaced [] rest
      else replaced (begun ++ [b]) rest
    else '\ufffd' :: (beginning b).1 ++ replaced (beginning b).2 rest

/-- `OsStr::to_string_lossy` -/
def toStringLossy (a : OsString) : String := (toStr a).getD (String.ofList (replaced [] a))

@[simp] theorem toStringLossy_asBytes (s : String) : toStringLossy (asBytes s) = s := by
  rw [toStringLossy, toStr_asBytes]
  rfl

example : toStringLossy [0x2d, 0xe2, 0x82, 0x2d, 0xff] = "-\ufffd-\ufffd" := by decide

/-! ## Texts and numbers -/

/-- `nonempty` -/
def nonempty (value : Option OsString) : Option String :=
  (value.bind toStr).filter fun value => !value.isEmpty

theorem nonempty_eq_some {value : Option OsString} {s : String} :
    nonempty value = some s ↔ value = some (asBytes s) ∧ s ≠ "" := by
  rw [nonempty, Option.filter_eq_some_iff, Option.bind_eq_some_iff]
  constructor
  · rintro ⟨⟨a, ha, hs⟩, hne⟩
    rw [ha, toStr_eq_some.mp hs]
    exact ⟨rfl, by simpa using hne⟩
  · rintro ⟨hvalue, hne⟩
    exact ⟨⟨asBytes s, hvalue, toStr_asBytes s⟩, by simpa using hne⟩

/-- The value of decimal digits. -/
def decimal (digits : List Char) : Option Nat :=
  if digits.isEmpty || !digits.all isAsciiDigit then none
  else some (digits.foldl (fun n c => 10 * n + (c.toNat - 48)) 0)

/-- `str::parse` for an unsigned integer up to a maximum. -/
def parseUnsigned (max : Nat) (s : String) : Option Nat :=
  (decimal (if s.toList.head? = some '+' then s.toList.tail else s.toList)).filter (· ≤ max)

def parseU16 : String → Option Nat := parseUnsigned 65535

def parseU8 : String → Option Nat := parseUnsigned 255

/-- `str::parse::<i64>` -/
def parseI64 (s : String) : Option Int :=
  if s.toList.head? = some '-' then
    ((decimal s.toList.tail).filter (· ≤ 9223372036854775808)).map fun n => -(n : Int)
  else (parseUnsigned 9223372036854775807 s).map Int.ofNat

/-- A larger type reads the same number. -/
theorem parseUnsigned_mono {max max' n : Nat} {s : String} (h : parseUnsigned max s = some n)
    (hn : n ≤ max') : parseUnsigned max' s = some n := by
  rw [parseUnsigned, Option.filter_eq_some_iff] at h ⊢
  exact ⟨h.1, by simpa using hn⟩

/-- `bounded_number` -/
def boundedNumber (value : Option OsString) (min max : Nat) : Bool :=
  ((nonempty value).bind parseU16).any fun n => min ≤ n && n ≤ max

theorem boundedNumber_eq_true {value : Option OsString} {min max : Nat} :
    boundedNumber value min max = true
      ↔ ∃ s n, value = some (asBytes s) ∧ parseU16 s = some n ∧ min ≤ n ∧ n ≤ max := by
  rw [boundedNumber, Option.any_eq_true]
  constructor
  · rintro ⟨n, hn, hbounds⟩
    obtain ⟨s, hs, hparse⟩ := Option.bind_eq_some_iff.mp hn
    simp only [Bool.and_eq_true, decide_eq_true_eq] at hbounds
    exact ⟨s, n, (nonempty_eq_some.mp hs).1, hparse, hbounds.1, hbounds.2⟩
  · rintro ⟨s, n, rfl, hparse, hmin, hmax⟩
    have hne : s ≠ "" := by
      rintro rfl
      cases hparse
    refine ⟨n, ?_, by simp [hmin, hmax]⟩
    rw [nonempty_eq_some.mpr ⟨rfl, hne⟩]
    exact hparse

/-- `&args[n..]`, which panics behind the end. -/
def slice (n : Nat) (args : List OsString) : Option (List OsString) :=
  if n ≤ args.length then some (args.drop n) else none

theorem slice_eq_some {n : Nat} {args : List OsString} (h : n ≤ args.length) :
    slice n args = some (args.drop n) := if_pos h

theorem eq_drop_of_slice {n : Nat} {args rest : List OsString} (h : slice n args = some rest) :
    rest = args.drop n := by
  unfold slice at h
  split_ifs at h
  exact (Option.some.inj h).symm

/-! ## Pairs of a flag and its value -/

/-- The loop of `parse_option_pairs`. The values are those of a map, so only lookups matter. -/
def optionPairsFrom (allowed : List String) (values : List (String × String)) :
    List OsString → Option (List (String × String))
  | flag :: value :: rest =>
    match toStr flag, nonempty (some value) with
    | some flag, some value =>
      if !allowed.contains flag || (values.lookup flag).isSome then none
      else optionPairsFrom allowed (values ++ [(flag, value)]) rest
    | _, _ => none
  | _ => some values

/-- `parse_option_pairs` -/
def parseOptionPairs (args : List OsString) (allowed : List String) :
    Option (List (String × String)) :=
  if args.length % 2 ≠ 0 then none else optionPairsFrom allowed [] args

/-- The arguments of a pair. -/
def pairTokens (pair : String × String) : List OsString := [asBytes pair.1, asBytes pair.2]

/-- **What is read as pairs.** -/
structure OptionPairs (args : List OsString) (allowed : List String)
    (values : List (String × String)) : Prop where
  tokens : args = values.flatMap pairTokens
  allowed : ∀ pair ∈ values, pair.1 ∈ allowed
  nonempty : ∀ pair ∈ values, pair.2 ≠ ""
  distinct : (values.map Prod.fst).Nodup

theorem lookup_isSome_iff {values : List (String × String)} {key : String} :
    (values.lookup key).isSome = true ↔ key ∈ values.map Prod.fst := by
  induction values with
  | nil => simp
  | cons pair values ih =>
      rw [List.lookup_cons, List.map_cons, List.mem_cons]
      by_cases hkey : key = pair.1
      · simp [hkey]
      · have hbeq : (key == pair.1) = false := beq_eq_false_iff_ne.mpr hkey
        rw [hbeq, ← ih]
        simp [hkey]

theorem optionPairsFrom_eq_some {allowed : List String} {values result : List (String × String)}
    {args before : List OsString} (hbefore : OptionPairs before allowed values)
    (heven : args.length % 2 = 0) (h : optionPairsFrom allowed values args = some result) :
    OptionPairs (before ++ args) allowed result := by
  fun_induction optionPairsFrom allowed values args generalizing before with
  | case1 values flag value rest key text hkey htext hrefused => cases h
  | case2 values flag value rest key text htext htoStr hrefused ih =>
      have hflag := toStr_eq_some.mp htoStr
      obtain ⟨hvalue, hne⟩ := nonempty_eq_some.mp htext
      simp only [Bool.or_eq_true, Bool.not_eq_true', not_or, Bool.not_eq_false,
        List.contains_eq_mem, decide_eq_true_eq] at hrefused
      obtain ⟨hallowed, hfresh⟩ := hrefused
      -- the pair joins those read before it
      have hread : OptionPairs (before ++ [flag, value]) allowed (values ++ [(key, text)]) := by
        constructor
        · rw [List.flatMap_append, List.flatMap_singleton, ← hbefore.tokens, hflag,
            Option.some.inj hvalue]
          rfl
        · intro pair hpair
          rcases List.mem_append.mp hpair with hold | hnew
          · exact hbefore.allowed pair hold
          · rw [List.mem_singleton.mp hnew]
            exact hallowed
        · intro pair hpair
          rcases List.mem_append.mp hpair with hold | hnew
          · exact hbefore.nonempty pair hold
          · rw [List.mem_singleton.mp hnew]
            exact hne
        · rw [lookup_isSome_iff] at hfresh
          rw [List.map_append, List.map_singleton, List.nodup_append]
          refine ⟨hbefore.distinct, by simp, ?_⟩
          intro x hx y hy hxy
          rw [hxy, List.mem_singleton.mp hy] at hx
          exact hfresh hx
      have hrest : rest.length % 2 = 0 := by
        simp only [List.length_cons] at heven
        omega
      have hall := ih hread hrest h
      rw [List.append_assoc] at hall
      exact hall
  | case3 values flag value rest hnot => cases h
  | case4 args values hshort =>
      have heq := Option.some.inj h
      rw [← heq]
      have hnil : args = [] := by
        cases args with
        | nil => rfl
        | cons a args =>
            cases args with
            | nil => simp at heven
            | cons b rest => exact absurd rfl (hshort a b rest)
      rw [hnil, List.append_nil]
      exact hbefore

/-- **The pairs that are read are the arguments**, and no flag is there twice. -/
theorem parseOptionPairs_eq_some {args : List OsString} {allowed : List String}
    {values : List (String × String)} (h : parseOptionPairs args allowed = some values) :
    OptionPairs args allowed values := by
  unfold parseOptionPairs at h
  split_ifs at h with heven
  have hnone : OptionPairs [] allowed [] := by
    constructor
    · rfl
    · simp
    · simp
    · exact List.nodup_nil
  exact optionPairsFrom_eq_some hnone (not_not.mp heven) h

end Psst.Cli
