import Psst.Core.Identifier
import Psst.Lib.Directory
import Psst.Lib.JsonValue
import Psst.Lib.Octets
import Psst.Protocol.Size

/-!
# Records as octets

The leave journal and the session credential are JSON objects in files of their own. What they
are made of is text, so every text is checked again when a record is read, and what the checks
rest on are three crates: `url` for the origin of the relay, `serde_json` for the octets and `time`
for the timestamps.
-/

namespace Psst.Durable

open Json

/-! ## The crates -/

/-- What the accessors of a parsed URL return. -/
structure Url where
  scheme : String
  username : String
  password : Option String
  host : Option String
  port : Option Nat
  path : String
  query : Option String
  fragment : Option String
  deriving DecidableEq

/-- The functions of the three crates. A JSON object keeps its members in the order of the text,
repeated keys included. -/
class Crates where
  parseUrl : String → Option Url
  urlText : Url → String
  parseJson : List UInt8 → Option Value
  parseRfc3339 : String → Option ApiTimestamp

/-- What `io::Error` says: the errors the two stores make themselves, and those of the system. -/
inductive Failure where
  | invalidInput
  | invalidData
  | substitution
  | unsafePermissions
  | bindingMismatch
  | injected
  | os (e : Directory.Errno)
  deriving DecidableEq

/-! ## Origins and names -/

/-- `str::trim_end_matches('/')`. -/
def trimEndSlashes (s : String) : String :=
  String.ofList (s.toList.reverse.dropWhile (· == '/')).reverse

/-- A slash after a text that does not end in one is what is trimmed. -/
theorem trimEndSlashes_slash {s : String} (h : s.toList.reverse.head? ≠ some '/') :
    trimEndSlashes (s ++ "/") = s := by
  have hslash : (s ++ "/").toList.reverse = '/' :: s.toList.reverse := by
    rw [String.toList_append, List.reverse_append]
    rfl
  have hkept : s.toList.reverse.dropWhile (· == '/') = s.toList.reverse := by
    cases hlist : s.toList.reverse with
    | nil => rfl
    | cons c cs =>
        rw [hlist, List.head?_cons] at h
        have hne : (c == '/') = false := by
          rw [beq_eq_false_iff_ne]
          rintro rfl
          exact h rfl
        rw [List.dropWhile_cons, hne]
        rfl
  unfold trimEndSlashes
  rw [hslash, List.dropWhile_cons_of_pos rfl, hkept, List.reverse_reverse, String.ofList_toList]

/-- `canonical_relay_origin`; the client crate has the same function as `canonical_origin`. -/
def canonicalRelayOrigin [Crates] (raw : String) : Option String :=
  match Crates.parseUrl raw with
  | none => none
  | some u =>
    if (u.scheme ≠ "http" ∧ u.scheme ≠ "https") ∨ u.host = none ∨ u.username ≠ "" ∨ u.password ≠ none
        ∨ u.query ≠ none ∨ u.fragment ≠ none ∨ u.path ≠ "/" then
      none
    else
      let default' := if u.scheme = "http" then 80 else 443
      let u := if u.port = some default' then { u with port := none } else u
      -- an empty path is written as a slash again
      some (trimEndSlashes (Crates.urlText { u with path := "/" }))

/-- `validate_profile_name`; a character outside ASCII has bytes that are not in the grammar. -/
def validProfileName (v : String) : Bool :=
  !v.toList.isEmpty && decide (v.utf8ByteSize ≤ 64)
    && v.toList.all fun c => isAsciiAlphanumeric c || c == '-' || c == '_'

/-! ## Objects of texts and numbers -/

/-- The members of a record. -/
inductive Scalar where
  | null
  | number (n : UInt32)
  | string (s : String)
  deriving DecidableEq

def Scalar.text : Scalar → Text
  | .null => Json.null
  | .number n => nat n.toNat
  | .string s => str s

def Scalar.value : Scalar → Value
  | .null => .null
  | .number n => .number (.posInt n.toUInt64)
  | .string s => .string s

abbrev Members := List (String × Scalar)

/-- `serde_json::to_vec`. -/
def Members.toVec (members : Members) : List UInt8 :=
  octets (obj (members.map fun m => field m.1 m.2.text))

def Members.value (members : Members) : Value := .object (members.map fun m => (m.1, m.2.value))

/-- `serde_json` reads what it wrote. -/
def Members.ReadsBack [Crates] (members : Members) : Prop :=
  Crates.parseJson members.toVec = some members.value

theorem Members.toVec_ne_nil (members : Members) : members.toVec ≠ [] := by
  intro hnil
  have hlength := congrArg List.length hnil
  have hbrace : utf8 '{' = 1 := by decide
  rw [Members.toVec, length_octets, weight_obj, hbrace] at hlength
  simp at hlength

/-- A record is at least as long as each of its values. -/
theorem Members.le_length_toVec {members : Members} {m : String × Scalar} (h : m ∈ members) :
    weight utf8 m.2.text ≤ members.toVec.length := by
  obtain ⟨before, after, rfl⟩ := List.append_of_mem h
  rw [Members.toVec, length_octets, List.map_append, List.map_cons, weight_obj]
  have hfield : weight utf8 m.2.text ≤ weight utf8 (field m.1 m.2.text) := by
    rw [weight_field]
    omega
  refine hfield.trans ?_
  cases before with
  | nil =>
      simp only [List.map_nil, List.nil_append, commaSeparated, weight_append]
      omega
  | cons n before =>
      simp only [List.map_cons, List.cons_append, commaSeparated, List.flatMap_append,
        List.flatMap_cons, weight_append, weight_cons]
      omega

/-! ### Reading -/

/-- The members a derived `Deserialize` with `deny_unknown_fields` looks at: those of an object
with known and distinct keys, or the elements of an array in the order of the struct. -/
def structMembers (fields : List String) : Value → Option (List (String × Value))
  | .object members =>
    if (members.map Prod.fst).Nodup ∧ ∀ key ∈ members.map Prod.fst, key ∈ fields then some members
    else none
  | .array elements =>
    if elements.length = fields.length then some (fields.zip elements) else none
  | _ => none

/-- `u32::deserialize`. -/
def asU32 (v : Value) : Option UInt32 :=
  v.asU64.bind fun n => if n.toNat < 2 ^ 32 then some n.toUInt32 else none

/-- `ApiTimestamp::deserialize`. -/
def timestamp [Crates] (v : Value) : Option ApiTimestamp :=
  match v.asStr with
  | none => none
  | some input =>
    if input.utf8ByteSize ≠ 24 ∨ input.toList.getLast? ≠ some 'Z'
        ∨ (octets input.toList)[19]? ≠ some 46 then none
    else Crates.parseRfc3339 input

theorem structMembers_value {fields : List String} {members : Members}
    (h : members.map Prod.fst = fields) (hnodup : fields.Nodup) :
    structMembers fields members.value = some (members.map fun m => (m.1, m.2.value)) := by
  have hkeys : (members.map fun m => (m.1, m.2.value)).map Prod.fst = fields := by
    rw [List.map_map, ← h]
    rfl
  unfold Members.value structMembers
  simp only [hkeys]
  exact if_pos ⟨hnodup, fun _ hkey => hkey⟩

theorem lookup_value {members : Members} {key : String} {v : Scalar}
    (h : members.lookup key = some v) :
    List.lookup key (members.map fun m => (m.1, m.2.value)) = some v.value := by
  induction members with
  | nil => cases h
  | cons m members ih =>
      rw [List.map_cons, List.lookup_cons]
      rw [List.lookup_cons] at h
      cases hkey : key == m.1 with
      | true =>
          rw [hkey] at h
          cases h
          rfl
      | false =>
          rw [hkey] at h
          exact ih h

/-- One member of a record after the other. -/
theorem bind_eq_some {α β : Type} {x : Option α} {f : α → Option β} {a : α} {r : Option β}
    (hx : x = some a) (hrest : f a = r) : (x >>= f) = r := by
  rw [hx]
  exact hrest

theorem asStr_string (s : String) : (Scalar.string s).value.asStr = some s := rfl

theorem asU32_number (n : UInt32) : asU32 (Scalar.number n).value = some n := by
  show (if n.toUInt64.toNat < 2 ^ 32 then some n.toUInt64.toUInt32 else none) = some n
  have hlt := n.toNat_lt
  rw [UInt32.toNat_toUInt64, if_pos hlt, UInt32.toUInt32_toUInt64]

/-- A displayed timestamp is nineteen characters of date and time, a dot, and the milliseconds. -/
theorem displayBy_split (calendar : Nat → Nat × Nat × Nat) (t : ApiTimestamp) :
    ∃ front millis, t.displayBy calendar = front ++ '.' :: (millis ++ ['Z'])
      ∧ weight utf8 front = 19 := by
  have hdigit : ∀ d < 10, utf8 (Nat.digitChar d) = 1 := by decide
  have hmarks : utf8 '-' = 1 ∧ utf8 'T' = 1 ∧ utf8 ':' = 1 := by decide
  rw [ApiTimestamp.displayBy]
  obtain ⟨year, month, day⟩ := calendar (t.value.asI64 / 86400000)
  refine ⟨fixedDigits 4 year ++ '-' :: fixedDigits 2 month ++ '-' :: fixedDigits 2 day
    ++ 'T' :: fixedDigits 2 (t.value.asI64 / 3600000 % 24)
    ++ ':' :: fixedDigits 2 (t.value.asI64 / 60000 % 60)
    ++ ':' :: fixedDigits 2 (t.value.asI64 / 1000 % 60), fixedDigits 3 (t.value.asI64 % 1000),
    by simp, ?_⟩
  simp only [weight_append, weight_cons, weight_fixedDigits hdigit, hmarks]

/-- The shape `deserialize` asks for is the one `Display` gives. -/
theorem timestamp_display [Crates] {t : ApiTimestamp}
    (h : Crates.parseRfc3339 (String.ofList t.display) = some t) :
    timestamp (.string (String.ofList t.display)) = some t := by
  have hsize : (String.ofList t.display).utf8ByteSize = 24 := by
    rw [utf8ByteSize_ofList, t.weight_display (by decide) (by decide)]
  obtain ⟨front, millis, hsplit, hfront⟩ := displayBy_split civilFromDays t
  rw [← ApiTimestamp.display_eq] at hsplit
  have hlast : t.display.getLast? = some 'Z' := by
    rw [hsplit, List.getLast?_append, List.getLast?_cons, List.getLast?_append]
    rfl
  have hdot : (octets t.display)[19]? = some 46 := by
    rw [hsplit, octets_append, List.getElem?_append_right (by rw [length_octets, hfront]),
      length_octets, hfront]
    rfl
  show (if _ then none else _) = some t
  rw [String.toList_ofList, if_neg, h]
  simp only [hsize, hlast, hdot]
  simp

/-! ## Files -/

abbrev Io (α : Type) : Type := Directory.Io Failure α

/-- A call whose failure is the program's. -/
abbrev call {α : Type} (a : Directory.Action) (k : a.Answer → Io α) : Io α :=
  Directory.call Failure.os a k

/-- The permission bits both stores ask for: `mode & 0o777 == 0o600`. -/
def restricted (mode : Nat) : Prop := mode % 0o1000 = 0o600

instance (mode : Nat) : Decidable (restricted mode) := inferInstanceAs (Decidable (_ = _))

/-- What a program that reads returns on a volume that answers. -/
def answer {α : Type} (p : Io α) (d : Directory.Volume) : Except Failure α :=
  (p.run (Directory.handle fun _ _ => 0) d).1

end Psst.Durable
