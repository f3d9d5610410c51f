import Psst.Core.Identifier
import Psst.Protocol.Wire

/-!
# How large a body can be

Bounds on the encoded bodies from the limits of the values in them. Names and identifiers are
written as they are; a free text costs up to six bytes for each of its own.
-/

namespace Psst

open Json

/-! ## Names and identifiers -/

theorem plain_of_lowercase {c : Char} (h : isAsciiLowercase c = true) : Plain c := by
  simp only [isAsciiLowercase, Bool.and_eq_true, decide_eq_true_eq] at h
  have hlow : 97 ≤ c.toNat := h.1
  exact plain_of_toNat (by omega) (by omega) (by omega)

theorem plain_of_digit {c : Char} (h : isAsciiDigit c = true) : Plain c := by
  simp only [isAsciiDigit, Bool.and_eq_true, decide_eq_true_eq] at h
  have hlow : 48 ≤ c.toNat := h.1
  have hhigh : c.toNat ≤ 57 := h.2
  exact plain_of_toNat (by omega) (by omega) (by omega)

theorem plain_of_routingName {allowed : Char → Bool} {value : String}
    (hallowed : ∀ c, allowed c = true → Plain c) (h : validRoutingName allowed value = true) :
    ∀ c ∈ value.toList, Plain c := by
  intro c hc
  simp only [validRoutingName, Bool.and_eq_true, List.all_eq_true, Bool.or_eq_true] at h
  rcases h.2 c hc with (hlower | hdigit) | hother
  · exact plain_of_lowercase hlower
  · exact plain_of_digit hdigit
  · exact hallowed c hother

theorem SquadName.str_le (name : SquadName) : weight utf8 (str name.val) ≤ 66 := by
  have hallowed : ∀ c : Char, (c == '-') = true → Plain c := by
    intro c hc
    rw [beq_iff_eq.mp hc]
    decide
  have hplain := plain_of_routingName hallowed (TextRule.validator_eq _ name)
  have hsize : name.val.utf8ByteSize ≤ 64 := TextRule.size_le _ name
  rw [weight_utf8_str_of_plain hplain]
  omega

theorem MemberName.str_le (name : MemberName) : weight utf8 (str name.val) ≤ 66 := by
  have hallowed : ∀ c, (c == '-' || c == '_' || c == '.') = true → Plain c := by
    intro c hc
    simp only [Bool.or_eq_true, beq_iff_eq] at hc
    rcases hc with (rfl | rfl) | rfl <;> decide
  have hplain := plain_of_routingName hallowed (TextRule.validator_eq _ name)
  have hsize : name.val.utf8ByteSize ≤ 64 := TextRule.size_le _ name
  rw [weight_utf8_str_of_plain hplain]
  omega

/-- The characters of an identifier, and that there are some after its mark. -/
theorem OpaqueId.parts {kind : IdKind} (id : OpaqueId kind) :
    ∃ suffix, id.val.toList = kind.pre.toList ++ '_' :: suffix ∧ suffix ≠ []
      ∧ ∀ c ∈ suffix, Plain c := by
  obtain ⟨suffix, hlist, hne, hsuffix⟩ := id.shape
  refine ⟨suffix, hlist, hne, fun c hc => ?_⟩
  rcases hsuffix c hc with hlower | hdigit | rfl
  · exact plain_of_lowercase hlower
  · exact plain_of_digit hdigit
  · decide

theorem OpaqueId.str_eq {kind : IdKind} (id : OpaqueId kind) :
    weight utf8 (str id.val) = 2 + id.val.utf8ByteSize := by
  obtain ⟨suffix, hchars, -, hplain⟩ := id.parts
  refine weight_utf8_str_of_plain fun c hc => ?_
  rw [hchars] at hc
  rcases List.mem_append.mp hc with hc | hc
  · have hall : ∀ kind : IdKind, kind.pre.toList.map escapeChar = kind.pre.toList.map ([·]) := by
      intro kind
      cases kind <;> decide
    exact List.map_inj_left.mp (hall kind) c hc
  · rcases List.mem_cons.mp hc with rfl | hc
    · decide
    · exact hplain c hc

theorem OpaqueId.str_le {kind : IdKind} (id : OpaqueId kind) : weight utf8 (str id.val) ≤ 130 := by
  have hsize := id.size_le
  rw [id.str_eq]
  omega

/-- Three letters, the mark and at least one character more. -/
theorem OpaqueId.size_ge {kind : IdKind} (id : OpaqueId kind) : 5 ≤ id.val.utf8ByteSize := by
  obtain ⟨suffix, hchars, hne, -⟩ := id.parts
  have hpre : ∀ kind : IdKind, weight utf8 (kind.pre.toList ++ ['_']) = 4 := by
    intro kind
    cases kind <;> decide
  cases suffix with
  | nil => exact absurd rfl hne
  | cons c suffix =>
      have hpos : 1 ≤ utf8 c := c.utf8Size_pos
      have htotal : weight utf8 id.val.toList
          = weight utf8 (kind.pre.toList ++ ['_']) + weight utf8 (c :: suffix) := by
        rw [hchars, ← weight_append, List.append_assoc]
        rfl
      rw [← weight_utf8_toList, htotal, hpre, weight_cons]
      omega

/-- A text is not empty. -/
theorem TextRule.size_pos (rule : TextRule) (v : Validated rule.check) :
    1 ≤ v.val.utf8ByteSize := by
  have hvalid := v.valid
  unfold TextRule.check at hvalid
  split at hvalid
  · cases hvalid
  · rename_i hempty
    cases hchars : v.val.toList with
    | nil => simp [hchars] at hempty
    | cons c rest =>
        have hpos : 1 ≤ utf8 c := c.utf8Size_pos
        rw [← weight_utf8_toList, hchars, weight_cons]
        omega

/-! ## Timestamps -/

theorem digitChar_utf8 {n : Nat} (h : n < 10) : utf8 (Nat.digitChar n) = 1
    ∧ Plain (Nat.digitChar n) := by
  have hall : ∀ m < 10, utf8 (Nat.digitChar m) = 1 ∧ Plain (Nat.digitChar m) := by decide
  exact hall n h

theorem weight_fixedDigits {w : Char → Nat} (hw : ∀ d < 10, w (Nat.digitChar d) = 1)
    (width : Nat) : ∀ n, weight w (fixedDigits width n) = width := by
  induction width with
  | zero => exact fun _ => rfl
  | succ width ih =>
      intro n
      rw [fixedDigits, weight_append, ih, weight_cons, weight_nil, hw _ (Nat.mod_lt _ (by decide))]

/-- `display` over any calendar. -/
def ApiTimestamp.displayBy (calendar : Nat → Nat × Nat × Nat) (t : ApiTimestamp) : Text :=
  let millis := t.value.asI64
  let (year, month, day) := calendar (millis / 86400000)
  fixedDigits 4 year ++ '-' :: fixedDigits 2 month ++ '-' :: fixedDigits 2 day
    ++ 'T' :: fixedDigits 2 (millis / 3600000 % 24) ++ ':' :: fixedDigits 2 (millis / 60000 % 60)
    ++ ':' :: fixedDigits 2 (millis / 1000 % 60) ++ '.' :: fixedDigits 3 (millis % 1000) ++ ['Z']

/-- Stated of the functions, not of their values: so the kernel compares two bodies and never
evaluates the calendar. -/
theorem ApiTimestamp.display_eq : ApiTimestamp.display = ApiTimestamp.displayBy civilFromDays :=
  rfl

/-- A timestamp is twenty-four characters, digits and marks. -/
theorem ApiTimestamp.weight_displayBy {w : Char → Nat} (calendar : Nat → Nat × Nat × Nat)
    (hdigit : ∀ d < 10, w (Nat.digitChar d) = 1)
    (hmarks : ['-', 'T', ':', '.', 'Z'].map w = [1, 1, 1, 1, 1]) (t : ApiTimestamp) :
    weight w (t.displayBy calendar) = 24 := by
  simp only [List.map_cons, List.cons.injEq] at hmarks
  obtain ⟨hdash, hT, hcolon, hdot, hZ, -⟩ := hmarks
  rw [ApiTimestamp.displayBy]
  obtain ⟨year, month, day⟩ := calendar (t.value.asI64 / 86400000)
  simp only [weight_append, weight_cons, weight_nil, weight_fixedDigits hdigit, hdash, hT,
    hcolon, hdot, hZ]

theorem ApiTimestamp.weight_display {w : Char → Nat} (hdigit : ∀ d < 10, w (Nat.digitChar d) = 1)
    (hmarks : ['-', 'T', ':', '.', 'Z'].map w = [1, 1, 1, 1, 1]) (t : ApiTimestamp) :
    weight w t.display = 24 := by
  rw [ApiTimestamp.display_eq]
  exact ApiTimestamp.weight_displayBy civilFromDays hdigit hmarks t

theorem ApiTimestamp.json_size (t : ApiTimestamp) : weight utf8 t.json = 26 := by
  rw [ApiTimestamp.json, weight_utf8_quote, t.weight_display (by decide) (by decide)]

/-! ## Records -/

/-- The bytes of the fields of an object, each with its comma. -/
def fieldBytes (fields : List Text) : Nat := (fields.map fun u => weight utf8 u + 1).sum

@[simp] theorem fieldBytes_nil : fieldBytes [] = 0 := rfl

@[simp] theorem fieldBytes_cons (t : Text) (ts : List Text) :
    fieldBytes (t :: ts) = weight utf8 t + 1 + fieldBytes ts := by
  simp [fieldBytes]

@[simp] theorem fieldBytes_append (ts us : List Text) :
    fieldBytes (ts ++ us) = fieldBytes ts + fieldBytes us := by
  simp [fieldBytes]

theorem weight_obj_le (fields : List Text) : weight utf8 (obj fields) ≤ 2 + fieldBytes fields := by
  have hcommas := weight_commaSeparated_le (w := utf8) fields
  have hbraces : utf8 '{' = 1 ∧ utf8 '}' = 1 := by decide
  rw [weight_obj, hbraces.1, hbraces.2]
  exact Nat.add_le_add_left hcommas _

theorem weight_arr_le (elements : List Text) :
    weight utf8 (arr elements) ≤ 2 + fieldBytes elements := by
  have hcommas := weight_commaSeparated_le (w := utf8) elements
  have hbrackets : utf8 '[' = 1 ∧ utf8 ']' = 1 := by decide
  rw [weight_arr, hbrackets.1, hbrackets.2]
  exact Nat.add_le_add_left hcommas _

theorem weight_utf8_field (name : String) (value : Text) :
    weight utf8 (field name value) = weight utf8 (str name) + 1 + weight utf8 value :=
  weight_field name value

/-- An optional field costs nothing when it is absent. -/
theorem fieldBytes_optional_le {α : Type} (name : String) {encode : α → Text} (size : α → Nat)
    {c : Nat} (h : ∀ v, weight utf8 (encode v) ≤ c + size v) (value : Option α) :
    fieldBytes (optional name encode value)
      ≤ weight utf8 (str name) + 2 + c + (value.map size).getD 0 := by
  cases value with
  | none => exact Nat.zero_le _
  | some v =>
      have := h v
      simp only [Json.optional, Option.map_some, Option.toList_some, fieldBytes_cons, fieldBytes_nil,
        weight_utf8_field, Option.getD_some]
      omega

/-- The free texts of a message, in bytes. -/
def MessageDto.textBytes (m : MessageDto) : Nat :=
  m.id.val.utf8ByteSize + m.body.val.utf8ByteSize
    + (m.replyTo.map fun v => v.val.utf8ByteSize).getD 0
    + (m.correlationId.map fun v => v.val.utf8ByteSize).getD 0

theorem six_mul_getD {α : Type} (size : α → Nat) (value : Option α) :
    (value.map fun v => 6 * size v).getD 0 = 6 * (value.map size).getD 0 := by
  cases value <;> rfl

theorem MessagePriority.wire_le (p : MessagePriority) : weight utf8 (str p.wire) ≤ 8 := by
  cases p <;> decide

/-- **The size of a message**, from its free texts. -/
theorem MessageDto.json_le (m : MessageDto) (hsequence : m.sequence < 2 ^ 63) :
    weight utf8 m.json
      ≤ 375 + 6 * m.textBytes + (if m.acknowledgedAt.isSome then 45 else 0) := by
  have hdigits : weight utf8 (nat m.sequence) ≤ 19 :=
    weight_utf8_nat_le (by decide) (by omega)
  have hid := weight_utf8_str_le m.id.val
  have hsquad := m.squad.str_le
  have hsender := m.sender.str_le
  have hrecipient := m.recipient.str_le
  have hbody := weight_utf8_str_le m.body.val
  have hpriority := m.priority.wire_le
  have hcreated := m.createdAt.json_size
  have hreply := fieldBytes_optional_le "reply_to" (fun id : MessageId =>
    6 * id.val.utf8ByteSize) (fun id => weight_utf8_str_le id.val) m.replyTo
  have hcorrelation := fieldBytes_optional_le "correlation_id"
    (fun id : CorrelationId => 6 * id.val.utf8ByteSize) (fun id => weight_utf8_str_le id.val)
    m.correlationId
  have hacknowledged : fieldBytes (optional "acknowledged_at" ApiTimestamp.json m.acknowledgedAt)
      ≤ if m.acknowledgedAt.isSome then 45 else 0 := by
    cases hack : m.acknowledgedAt with
    | none => exact Nat.le_refl _
    | some t =>
        have hsize := t.json_size
        have hname : weight utf8 (str "acknowledged_at") = 17 := by decide
        simp only [Json.optional, Option.map_some, Option.toList_some, fieldBytes_cons,
          fieldBytes_nil, weight_utf8_field, hname, Option.isSome_some, if_true]
        omega
  have hnames : weight utf8 (str "sequence") = 10 ∧ weight utf8 (str "id") = 4
      ∧ weight utf8 (str "squad") = 7 ∧ weight utf8 (str "sender") = 8
      ∧ weight utf8 (str "recipient") = 11 ∧ weight utf8 (str "body") = 6
      ∧ weight utf8 (str "priority") = 10 ∧ weight utf8 (str "reply_to") = 10
      ∧ weight utf8 (str "correlation_id") = 16 ∧ weight utf8 (str "created_at") = 12 := by
    decide
  obtain ⟨h1, h2, h3, h4, h5, h6, h7, h8, h9, h10⟩ := hnames
  rw [six_mul_getD] at hreply hcorrelation
  refine (weight_obj_le _).trans ?_
  simp only [fieldBytes_append, fieldBytes_cons, fieldBytes_nil, weight_utf8_field, h1, h2, h3,
    h4, h5, h6, h7, h10, MessageDto.textBytes]
  omega

end Psst
