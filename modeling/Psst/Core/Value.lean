import Mathlib.Algebra.GroupWithZero.Nat
import Mathlib.Order.Lattice
import Mathlib.Order.Nat
import Mathlib.Tactic.Common
import Psst.Lib.Validated

/-!
# Domain vocabulary: errors, time, identifiers and text values

The I/O-free values of `psst-core`. Each validated newtype of the source is a
`Validated` over the source's own sequence of checks, so the field name and the reason
of the first failing check are part of the model, and no later module re-proves that an
identifier, a name or a body is well formed.
-/

namespace Psst

/-- A rejected value: the field it was meant for and the reason. -/
structure InvalidValue where
  field : String
  reason : String
  deriving DecidableEq, Repr

/-! ## Time

Timestamps are non-negative `i64` milliseconds; durations are the standard library's,
counted in nanoseconds below `2^64` seconds. -/

/-- `UnixMillis`: a non-negative `i64`. -/
@[ext]
structure UnixMillis where
  asI64 : Nat
  isLt : asI64 < 2 ^ 63
  deriving DecidableEq, Repr

namespace UnixMillis

def new (value : Int64) : Except InvalidValue UnixMillis :=
  if value.toInt < 0 then
    .error ⟨"timestamp", "must not precede the Unix epoch"⟩
  else
    .ok ⟨value.toInt.toNat, by have := value.toInt_lt; omega⟩

theorem asI64_injective : Function.Injective UnixMillis.asI64 := fun _ _ h =>
  UnixMillis.ext h

instance : LinearOrder UnixMillis := LinearOrder.lift' UnixMillis.asI64 asI64_injective

theorem le_iff {a b : UnixMillis} : a ≤ b ↔ a.asI64 ≤ b.asI64 := Iff.rfl

theorem lt_iff {a b : UnixMillis} : a < b ↔ a.asI64 < b.asI64 := Iff.rfl

end UnixMillis

/-- `std::time::Duration`. -/
@[ext]
structure Duration where
  asNanos : Nat
  isLt : asNanos < 2 ^ 64 * 10 ^ 9
  deriving DecidableEq, Repr

namespace Duration

def fromSecs (secs : UInt64) : Duration :=
  ⟨secs.toNat * 10 ^ 9, by have := secs.toNat_lt; omega⟩

def fromMillis (millis : UInt64) : Duration :=
  ⟨millis.toNat * 10 ^ 6, by have := millis.toNat_lt; omega⟩

def fromNanos (nanos : UInt64) : Duration :=
  ⟨nanos.toNat, by have := nanos.toNat_lt; omega⟩

def isZero (d : Duration) : Bool := d.asNanos == 0

/-- `as_millis` drops the sub-millisecond part. -/
def asMillis (d : Duration) : Nat := d.asNanos / 10 ^ 6

/-- `as_secs` drops the sub-second part. -/
def asSecs (d : Duration) : Nat := d.asNanos / 10 ^ 9

end Duration

/-- `UnixMillis::checked_add`: the duration must fit an `i64`, and so must the sum. -/
def UnixMillis.checkedAdd (t : UnixMillis) (d : Duration) : Option UnixMillis :=
  if d.asMillis < 2 ^ 63 then
    if h : t.asI64 + d.asMillis < 2 ^ 63 then some ⟨t.asI64 + d.asMillis, h⟩ else none
  else none

theorem UnixMillis.checkedAdd_eq_some {t u : UnixMillis} {d : Duration}
    (h : t.checkedAdd d = some u) : u.asI64 = t.asI64 + d.asMillis := by
  unfold UnixMillis.checkedAdd at h
  split at h
  · split at h
    · cases h
      rfl
    · cases h
  · cases h

/-! ## Opaque identifiers

`opaque_id!` builds five types that differ in their name and prefix only. -/

/-- The five instances of the `opaque_id!` macro. -/
inductive IdKind where
  | squad
  | agent
  | membership
  | «instance»
  | message
  deriving DecidableEq, Repr

namespace IdKind

/-- The type name the errors report (`stringify!($name)`). -/
def typeName : IdKind → String
  | .squad => "SquadId"
  | .agent => "AgentId"
  | .membership => "MembershipId"
  | .instance => "InstanceId"
  | .message => "MessageId"

/-- The macro's `$prefix`. -/
def pre : IdKind → String
  | .squad => "sqd"
  | .agent => "agt"
  | .membership => "mem"
  | .instance => "ins"
  | .message => "msg"

end IdKind

def isAsciiLowercase (c : Char) : Bool := decide ('a' ≤ c) && decide (c ≤ 'z')

def isAsciiDigit (c : Char) : Bool := decide ('0' ≤ c) && decide (c ≤ '9')

def isAsciiAlphanumeric (c : Char) : Bool :=
  isAsciiLowercase c || isAsciiDigit c || (decide ('A' ≤ c) && decide (c ≤ 'Z'))

/-- The checks of `opaque_id!`'s `new`, in order. `len()` counts UTF-8 bytes. -/
def OpaqueId.check (kind : IdKind) (value : String) : Except InvalidValue Unit :=
  match (kind.pre.toList ++ ['_']).isPrefixOf? value.toList with
  | none => .error ⟨kind.typeName, "has the wrong prefix"⟩
  | some suffix =>
    if suffix.isEmpty || decide (128 < value.utf8ByteSize) then
      .error ⟨kind.typeName, "has an invalid length"⟩
    else if !suffix.all fun c => isAsciiLowercase c || isAsciiDigit c || c == '-' then
      .error ⟨kind.typeName, "contains invalid characters"⟩
    else .ok ()

abbrev OpaqueId (kind : IdKind) := Validated (OpaqueId.check kind)

/-- An accepted identifier is at most 128 bytes long. -/
theorem OpaqueId.size_le {kind : IdKind} (id : OpaqueId kind) : id.val.utf8ByteSize ≤ 128 := by
  have hvalid := id.valid
  unfold OpaqueId.check at hvalid
  split at hvalid
  · cases hvalid
  · split at hvalid
    · cases hvalid
    · rename_i hlength
      simp at hlength
      exact hlength.2

abbrev SquadId := OpaqueId .squad
abbrev AgentId := OpaqueId .agent
abbrev MembershipId := OpaqueId .membership
abbrev InstanceId := OpaqueId .instance
abbrev MessageId := OpaqueId .message

/-! ## Text values

`text_value!` builds six types from a field name, a byte limit, a validator and the
validator's reason. -/

/-- Unicode `White_Space`, the set `str::trim` removes. -/
def isWhitespace (c : Char) : Bool :=
  let n := c.toNat
  (9 ≤ n && n ≤ 13) || n == 0x20 || n == 0x85 || n == 0xa0 || n == 0x1680
    || (0x2000 ≤ n && n ≤ 0x200a) || n == 0x2028 || n == 0x2029 || n == 0x202f
    || n == 0x205f || n == 0x3000

/-- Unicode general category `Cc` (`char::is_control`). -/
def isControl (c : Char) : Bool :=
  let n := c.toNat
  n ≤ 0x1f || (0x7f ≤ n && n ≤ 0x9f)

/-- `str::trim` on the characters of the string. -/
def trim (cs : List Char) : List Char :=
  ((cs.dropWhile isWhitespace).reverse.dropWhile isWhitespace).reverse

/-- The shape both routing-name validators share: alphanumeric ends, allowed characters. -/
def validRoutingName (allowed : Char → Bool) (value : String) : Bool :=
  value.toList.head?.any isAsciiAlphanumeric
    && value.toList.getLast?.any isAsciiAlphanumeric
    && value.toList.all fun c => isAsciiLowercase c || isAsciiDigit c || allowed c

def validSquadName (value : String) : Bool := validRoutingName (· == '-') value

def validMemberName (value : String) : Bool :=
  validRoutingName (fun c => c == '-' || c == '_' || c == '.') value

def trimmedNonempty (value : String) : Bool :=
  trim value.toList == value.toList && !(trim value.toList).isEmpty

def printable (value : String) : Bool :=
  trimmedNonempty value && !value.toList.any isControl

/-- The parameters of one `text_value!` invocation. -/
structure TextRule where
  field : String
  max : Nat
  validator : String → Bool
  reason : String

/-- The checks of `text_value!`'s `new`, in order. -/
def TextRule.check (rule : TextRule) (value : String) : Except InvalidValue Unit :=
  if value.toList.isEmpty then .error ⟨rule.field, "must not be empty"⟩
  else if rule.max < value.utf8ByteSize then .error ⟨rule.field, "is too large"⟩
  else if !rule.validator value then .error ⟨rule.field, rule.reason⟩
  else .ok ()

def SquadName.rule : TextRule :=
  ⟨"squad_name", 64, validSquadName, "must be a lowercase ASCII routing name"⟩

def MemberName.rule : TextRule :=
  ⟨"member_name", 64, validMemberName, "must be a lowercase ASCII routing name"⟩

def Mission.rule : TextRule :=
  ⟨"mission", 4096, trimmedNonempty, "must not have surrounding whitespace"⟩

def Role.rule : TextRule :=
  ⟨"role", 256, trimmedNonempty, "must not have surrounding whitespace"⟩

def DedupeKey.rule : TextRule :=
  ⟨"dedupe_key", 256, printable,
    "must contain printable text without surrounding whitespace"⟩

def CorrelationId.rule : TextRule :=
  ⟨"correlation_id", 256, printable,
    "must contain printable text without surrounding whitespace"⟩

abbrev SquadName := Validated SquadName.rule.check
abbrev MemberName := Validated MemberName.rule.check
abbrev Mission := Validated Mission.rule.check
abbrev Role := Validated Role.rule.check
abbrev DedupeKey := Validated DedupeKey.rule.check
abbrev CorrelationId := Validated CorrelationId.rule.check

/-- A message body has no validator of its own: any non-empty text up to 64 KiB. -/
def MessageBody.rule : TextRule :=
  ⟨"message_body", 64 * 1024, fun _ => true, ""⟩

abbrev MessageBody := Validated MessageBody.rule.check

/-- An accepted text is within its type's byte limit. -/
theorem TextRule.size_le (rule : TextRule) (v : Validated rule.check) :
    v.val.utf8ByteSize ≤ rule.max := by
  have hvalid := v.valid
  unfold TextRule.check at hvalid
  split at hvalid
  · cases hvalid
  · split at hvalid
    · cases hvalid
    · omega

example : (OpaqueId.check .squad "msg_01ab").isOk = false := by decide

example : (Validated.new MemberName.rule.check "critic_2.eu").isOk = true := by decide

end Psst
