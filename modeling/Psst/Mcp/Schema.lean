import Psst.Lib.Regex
import Psst.Mcp.Agreement

/-!
# The published schema

Every text among the tool arguments is constrained twice: by the published schema, for clients,
and by a helper of the server. The patterns follow ECMAScript. The helpers agree with them on
names and identifiers; on roles and missions they trim another white space, and the pattern of a
correlation identifier does not look past a line separator.
-/

namespace Psst

open Regex

/-! ## Patterns -/

def lowerOrDigit : List Item := [.range 'a' 'z', .range '0' '9']

def squadPattern : Regex :=
  .seq .start (.seq (bracketed (.oneOf lowerOrDigit) (.oneOf (lowerOrDigit ++ [.single '-']))) .stop)

def memberPattern : Regex :=
  .seq .start (.seq (bracketed (.oneOf lowerOrDigit)
    (.oneOf (lowerOrDigit ++ [.single '_', .single '.', .single '-']))) .stop)

def trimmedPattern : Regex :=
  .seq .start (.seq (bracketed .nonspace (.oneOf [.space, .nonspace])) .stop)

def messageIdPattern : Regex :=
  .seq .start (.seq (word "msg_".toList
    (.plus (.atom (.oneOf (lowerOrDigit ++ [.single '-']))))) .stop)

/-- The control characters of the pattern. -/
def controlClass : Atom := .oneOf [.range '\x00' '\x1f', .single '\x7f']

def correlationIdPattern : Regex :=
  .seq .start (.seq (.seq (.notAhead (.seq (.star (.atom .dot)) (.atom controlClass)))
    (bracketed .nonspace (.oneOf [.space, .nonspace]))) .stop)

/-- The patterns as they are published. -/
example : squadPattern.text = "^[a-z0-9](?:[a-z0-9-]*[a-z0-9])?$".toList
    ∧ memberPattern.text = "^[a-z0-9](?:[a-z0-9_.-]*[a-z0-9])?$".toList
    ∧ trimmedPattern.text = "^\\S(?:[\\s\\S]*\\S)?$".toList
    ∧ messageIdPattern.text = "^msg_[a-z0-9-]+$".toList
    ∧ correlationIdPattern.text
      = "^(?!.*[\\u0000-\\u001F\\u007F])\\S(?:[\\s\\S]*\\S)?$".toList := by
  decide

/-! ## Schemas -/

/-- The keywords that constrain a string. -/
structure StringSchema where
  minLength : Option Nat
  maxLength : Option Nat
  /-- `x-psst-max-utf8-bytes` -/
  maxUtf8Bytes : Option Nat
  pattern : Option Regex

namespace StringSchema

/-- `#[schemars(length(min = …, max = …))]` -/
def length (min max : Nat) : StringSchema := ⟨some min, some max, none, none⟩

def any : StringSchema := ⟨none, none, none, none⟩

def setByteBound (bound : Nat) (s : StringSchema) : StringSchema :=
  { s with maxUtf8Bytes := some bound }

def setStringRules (property : String) (pattern : Regex) (s : StringSchema) : StringSchema :=
  if property = "reply_to" then
    { s with pattern := some pattern, maxLength := some 128, maxUtf8Bytes := some 128 }
  else { s with pattern := some pattern }

/-- What `set_unique_items` puts on the items. -/
def setUniqueItems (s : StringSchema) : StringSchema :=
  { s with
    minLength := some 5
    maxLength := some 128
    pattern := some messageIdPattern
    maxUtf8Bytes := some 128 }

/-- Lengths count characters, but for the last bound. -/
def Accepts (s : StringSchema) (value : String) : Prop :=
  (∀ n, s.minLength = some n → n ≤ value.toList.length)
    ∧ (∀ n, s.maxLength = some n → value.toList.length ≤ n)
    ∧ (∀ n, s.maxUtf8Bytes = some n → value.utf8ByteSize ≤ n)
    ∧ ∀ pattern, s.pattern = some pattern → pattern.Found value.toList

end StringSchema

/-- The texts among the tool arguments. -/
inductive TextArgument where
  | squad
  | name
  | role
  | mission
  | recipient
  | replyTo
  | correlationId
  | acknowledgedId

namespace TextArgument

/-- `add_utf8_byte_extensions` -/
def schema : TextArgument → StringSchema
  | squad => ((StringSchema.length 1 64).setByteBound 64).setStringRules "squad" squadPattern
  | name => ((StringSchema.length 1 64).setByteBound 64).setStringRules "name" memberPattern
  | role => ((StringSchema.length 1 256).setByteBound 256).setStringRules "role" trimmedPattern
  | mission =>
    ((StringSchema.length 1 4096).setByteBound 4096).setStringRules "mission" trimmedPattern
  | recipient =>
    ((StringSchema.length 1 64).setByteBound 64).setStringRules "recipient" memberPattern
  | replyTo => StringSchema.any.setStringRules "reply_to" messageIdPattern
  | correlationId =>
    ((StringSchema.length 1 256).setByteBound 256).setStringRules "correlation_id"
      correlationIdPattern
  | acknowledgedId => StringSchema.any.setUniqueItems

/-- The helper that checks the argument. -/
def valid : TextArgument → String → Bool
  | squad => validSquad
  | name | recipient => validMember
  | role => fun value => validTrimmed value 256
  | mission => fun value => validTrimmed value 4096
  | replyTo | acknowledgedId => validMessageId
  | correlationId => validCorrelationId

end TextArgument

/-! ## Lengths -/

/-- A text has no more characters than octets. -/
theorem length_le_utf8ByteSize (value : String) : value.toList.length ≤ value.utf8ByteSize := by
  have hweight : ∀ cs : List Char, cs.length ≤ Json.weight Json.utf8 cs := by
    intro cs
    induction cs with
    | nil => simp
    | cons c cs ih =>
        have hc : 0 < Json.utf8 c := c.utf8Size_pos
        rw [Json.weight_cons, List.length_cons]
        omega
  have hvalue := hweight value.toList
  rwa [Json.weight_utf8_toList] at hvalue

theorem isEmpty_iff_length {value : String} : value.isEmpty = false ↔ 1 ≤ value.toList.length := by
  rw [← toList_isEmpty]
  cases value.toList with
  | nil => simp
  | cons c cs => simp

/-- **A schema with a length, a byte bound and a pattern**: the length in characters adds only
that the text is not empty. -/
theorem accepts_bounded {max : Nat} {pattern : Regex} {value : String} :
    StringSchema.Accepts ⟨some 1, some max, some max, some pattern⟩ value
      ↔ value.isEmpty = false ∧ value.utf8ByteSize ≤ max ∧ pattern.Found value.toList := by
  have hlength := length_le_utf8ByteSize value
  rw [isEmpty_iff_length]
  constructor
  · rintro ⟨hmin, -, hbytes, hpattern⟩
    exact ⟨hmin 1 rfl, hbytes max rfl, hpattern pattern rfl⟩
  · rintro ⟨hmin, hbytes, hpattern⟩
    refine ⟨?_, ?_, ?_, ?_⟩
    · rintro n ⟨⟩
      exact hmin
    · rintro n ⟨⟩
      omega
    · rintro n ⟨⟩
      exact hbytes
    · rintro r ⟨⟩
      exact hpattern

/-! ## Names and identifiers -/

theorem lowerOrDigit_contains (c : Char) :
    (Atom.oneOf lowerOrDigit).contains c = (isAsciiLowercase c || isAsciiDigit c) := by
  show (isAsciiLowercase c || (isAsciiDigit c || false)) = _
  rw [Bool.or_false]

/-- **Routing names**, for a pattern whose inner class adds the separators. -/
theorem accepts_routing {member : Bool} {inner : Atom} {value : String}
    (hinner : ∀ c, inner.contains c
      = (isAsciiLowercase c || isAsciiDigit c || separator member c)) :
    StringSchema.Accepts ⟨some 1, some 64, some 64,
        some (.seq .start (.seq (bracketed (.oneOf lowerOrDigit) inner) .stop))⟩ value
      ↔ validRouting value 64 member = true := by
  have hends : (Atom.oneOf lowerOrDigit).contains = fun c => isAsciiLowercase c || isAsciiDigit c :=
    funext lowerOrDigit_contains
  have hsub : ∀ c, (Atom.oneOf lowerOrDigit).contains c = true → inner.contains c = true := by
    intro c hc
    rw [lowerOrDigit_contains] at hc
    rw [hinner, hc]
    rfl
  rw [accepts_bounded, found_anchored, matches_bracketed hsub, validRouting_ends, hends,
    funext hinner]

theorem accepts_squad {value : String} :
    TextArgument.squad.schema.Accepts value ↔ validSquad value = true := by
  refine accepts_routing fun c => ?_
  show (isAsciiLowercase c || (isAsciiDigit c || (c == '-' || false))) = _
  simp [separator, Bool.or_assoc]

theorem accepts_member {value : String} :
    TextArgument.name.schema.Accepts value ↔ validMember value = true := by
  refine accepts_routing fun c => ?_
  show (isAsciiLowercase c || (isAsciiDigit c
    || (c == '_' || (c == '.' || (c == '-' || false))))) = _
  simp only [separator, Bool.true_and, Bool.or_false, Bool.or_assoc]
  cases c == '-' <;> simp

/-- **Message identifiers**, with or without a lower bound on the length. -/
theorem accepts_messageId {min : Option Nat} (hmin : ∀ n, min = some n → n ≤ 5) {value : String} :
    StringSchema.Accepts ⟨min, some 128, some 128, some messageIdPattern⟩ value
      ↔ validMessageId value = true := by
  have hclass : ∀ c, (Atom.oneOf (lowerOrDigit ++ [.single '-'])).contains c
      = (isAsciiLowercase c || isAsciiDigit c || c == '-') := by
    intro c
    show (isAsciiLowercase c || (isAsciiDigit c || (c == '-' || false))) = _
    rw [Bool.or_false, Bool.or_assoc]
  have hfound : messageIdPattern.Found value.toList
      ↔ ∃ suffix, value.toList = "msg_".toList ++ suffix ∧ suffix ≠ []
          ∧ (suffix.all fun c => isAsciiLowercase c || isAsciiDigit c || c == '-') = true := by
    rw [messageIdPattern, found_anchored, matches_word]
    constructor
    · rintro ⟨suffix, hvalue, hplus⟩
      obtain ⟨run, hne, hrun, hall⟩ := matches_plus_atom.mp hplus
      rw [List.append_nil] at hrun
      refine ⟨suffix, hvalue, by rwa [hrun], List.all_eq_true.mpr fun c hc => ?_⟩
      rw [← hclass]
      exact hall c (by rwa [← hrun])
    · rintro ⟨suffix, hvalue, hne, hall⟩
      refine ⟨suffix, hvalue, matches_plus_atom.mpr ⟨suffix, hne, (List.append_nil _).symm, ?_⟩⟩
      intro c hc
      rw [hclass]
      exact List.all_eq_true.mp hall c hc
  have hlength := length_le_utf8ByteSize value
  have hprefixLength : "msg_".toList.length = 4 := by decide
  simp only [validMessageId, Bool.and_eq_true, decide_eq_true_eq, List.isPrefixOf_iff_prefix]
  constructor
  · rintro ⟨-, -, hbytes, hpattern⟩
    obtain ⟨suffix, hvalue, hne, hall⟩ := hfound.mp (hpattern _ rfl)
    have hpos := List.length_pos_iff.mpr hne
    have hdrop : value.toList.drop 4 = suffix := by
      rw [hvalue]
      rfl
    rw [hvalue, List.length_append, hprefixLength] at hlength
    exact ⟨⟨⟨by omega, hbytes 128 rfl⟩, suffix, hvalue.symm⟩, by rwa [hdrop]⟩
  · rintro ⟨⟨⟨hfive, hbytes⟩, suffix, hvalue⟩, hall⟩
    have hdrop : value.toList.drop 4 = suffix := by
      rw [← hvalue]
      rfl
    have hne : suffix ≠ [] := by
      rintro rfl
      rw [List.append_nil] at hvalue
      rw [← String.toList_inj.mp hvalue] at hfive
      exact absurd hfive (by decide)
    have hpos := List.length_pos_iff.mpr hne
    have hsum : value.toList.length = 4 + suffix.length := by
      rw [← hvalue, List.length_append, hprefixLength]
    refine ⟨?_, ?_, ?_, ?_⟩
    · intro n hn
      have hn := hmin n hn
      omega
    · rintro n ⟨⟩
      omega
    · rintro n ⟨⟩
      exact hbytes
    · rintro pattern ⟨⟩
      exact hfound.mpr ⟨suffix, hvalue.symm, hne, by rwa [← hdrop]⟩

/-! ## Trimmed texts -/

/-- White space of both tables. -/
def commonWhitespace (c : Char) : Bool := isWhitespace c && ecmascriptWhitespace c

/-- A character that stands first or last. -/
def AtEnd (value : String) (c : Char) : Prop :=
  value.toList.head? = some c ∨ value.toList.getLast? = some c

theorem isWhitespace_iff {c : Char} :
    isWhitespace c = true ↔ commonWhitespace c = true ∨ c = '\u0085' := by
  have hchar : c = '\u0085' ↔ c.toNat = 0x85 := by
    constructor
    · rintro rfl
      rfl
    · exact fun h => Char.toNat_inj.mp h
  rw [hchar]
  simp only [commonWhitespace, isWhitespace, ecmascriptWhitespace, Bool.and_eq_true,
    Bool.or_eq_true, decide_eq_true_eq, beq_iff_eq]
  omega

theorem ecmascriptWhitespace_iff {c : Char} :
    ecmascriptWhitespace c = true ↔ commonWhitespace c = true ∨ c = '\ufeff' := by
  have hchar : c = '\ufeff' ↔ c.toNat = 0xfeff := by
    constructor
    · rintro rfl
      rfl
    · exact fun h => Char.toNat_inj.mp h
  rw [hchar]
  simp only [commonWhitespace, isWhitespace, ecmascriptWhitespace, Bool.and_eq_true,
    Bool.or_eq_true, decide_eq_true_eq, beq_iff_eq]
  omega

theorem any_not_iff {edge : Option Char} {space : Char → Bool} (h : edge ≠ none) :
    edge.any (fun c => !space c) = true ↔ ∀ c, edge = some c → space c = false := by
  cases edge with
  | none => exact absurd rfl h
  | some c => simp

/-- The two ends that a pattern and a helper look at. -/
theorem any_ends_iff {value : String} {space : Char → Bool} (hempty : value.isEmpty = false) :
    (value.toList.head?.any (fun c => !space c) = true
        ∧ value.toList.getLast?.any (fun c => !space c) = true)
      ↔ ∀ c, AtEnd value c → space c = false := by
  have hne : value.toList ≠ [] := by
    intro hnil
    rw [← toList_isEmpty, hnil] at hempty
    cases hempty
  rw [any_not_iff (by simpa using hne), any_not_iff (by simpa using hne)]
  constructor
  · rintro ⟨hhead, hlast⟩ c (hc | hc)
    · exact hhead c hc
    · exact hlast c hc
  · exact fun h => ⟨fun c hc => h c (Or.inl hc), fun c hc => h c (Or.inr hc)⟩

/-- The body of the patterns that exclude white space at the ends. -/
theorem matches_unspaced {whole : List Char} {value : String} (hempty : value.isEmpty = false) :
    (bracketed .nonspace (.oneOf [.space, .nonspace])).Matches whole value.toList []
      ↔ ∀ c, AtEnd value c → ecmascriptWhitespace c = false := by
  have hinner : ∀ c, (Atom.oneOf [.space, .nonspace]).contains c = true := by
    intro c
    show (isSpace c || (!isSpace c || false)) = true
    cases isSpace c <;> rfl
  have hall : value.toList.all (Atom.oneOf [.space, .nonspace]).contains = true :=
    List.all_eq_true.mpr fun c _ => hinner c
  rw [matches_bracketed fun c _ => hinner c, and_iff_left hall]
  exact any_ends_iff hempty

theorem accepts_trimmed {max : Nat} {value : String} :
    StringSchema.Accepts ⟨some 1, some max, some max, some trimmedPattern⟩ value
      ↔ value.isEmpty = false ∧ value.utf8ByteSize ≤ max
        ∧ ∀ c, AtEnd value c → ecmascriptWhitespace c = false := by
  rw [accepts_bounded]
  apply and_congr_right
  intro hempty
  rw [trimmedPattern, found_anchored, matches_unspaced hempty]

theorem validTrimmed_ends {max : Nat} {value : String} :
    validTrimmed value max = true ↔ value.isEmpty = false ∧ value.utf8ByteSize ≤ max
      ∧ ∀ c, AtEnd value c → isWhitespace c = false := by
  rw [validTrimmed, Bool.and_eq_true, Bool.and_eq_true, decide_eq_true_eq, and_assoc,
    Bool.not_eq_true', beq_iff_eq, trim_eq_self_iff]
  constructor
  · rintro ⟨hempty, hbytes, hhead, hlast⟩
    refine ⟨hempty, hbytes, ?_⟩
    rintro c (hc | hc)
    · exact hhead c hc
    · exact hlast c hc
  · rintro ⟨hempty, hbytes, hends⟩
    exact ⟨hempty, hbytes, fun c hc => hends c (Or.inl hc), fun c hc => hends c (Or.inr hc)⟩

/-- When the tables of white space do not matter to a trimmed text. -/
def TrimsAlike (max : Nat) (value : String) : Prop :=
  value.isEmpty = false → value.utf8ByteSize ≤ max →
    (∀ c, AtEnd value c → commonWhitespace c = false) →
    (AtEnd value '\u0085' ↔ AtEnd value '\ufeff')

/-- **The pattern and the helper of a trimmed text** agree on exactly these texts. -/
theorem trimmed_agree_iff {max : Nat} {value : String} :
    (StringSchema.Accepts ⟨some 1, some max, some max, some trimmedPattern⟩ value
        ↔ validTrimmed value max = true) ↔ TrimsAlike max value := by
  rw [accepts_trimmed, validTrimmed_ends]
  -- apart from white space of both tables, each side refuses one character at the ends
  have hsplit : ∀ (space : Char → Bool) (odd : Char),
      (∀ c, space c = true ↔ commonWhitespace c = true ∨ c = odd) →
      ((∀ c, AtEnd value c → space c = false)
        ↔ (∀ c, AtEnd value c → commonWhitespace c = false) ∧ ¬ AtEnd value odd) := by
    intro space odd hspace
    constructor
    · intro h
      refine ⟨fun c hc => ?_, fun hodd => ?_⟩
      · have hnot := h c hc
        rw [Bool.eq_false_iff, ne_eq, hspace, not_or] at hnot
        exact Bool.eq_false_iff.mpr hnot.1
      · have hnot := h odd hodd
        rw [Bool.eq_false_iff, ne_eq, hspace, not_or] at hnot
        exact hnot.2 rfl
    · rintro ⟨hcommon, hodd⟩ c hc
      rw [Bool.eq_false_iff, ne_eq, hspace, not_or]
      refine ⟨Bool.eq_false_iff.mp (hcommon c hc), ?_⟩
      rintro rfl
      exact hodd hc
  rw [hsplit _ _ fun c => ecmascriptWhitespace_iff, hsplit _ _ fun c => isWhitespace_iff,
    TrimsAlike]
  constructor
  · intro hiff hempty hbytes hcommon
    apply not_iff_not.mp
    constructor
    · exact fun hnot => (hiff.mpr ⟨hempty, hbytes, hcommon, hnot⟩).2.2.2
    · exact fun hnot => (hiff.mp ⟨hempty, hbytes, hcommon, hnot⟩).2.2.2
  · intro halike
    constructor
    · rintro ⟨hempty, hbytes, hcommon, hnot⟩
      exact ⟨hempty, hbytes, hcommon, fun h => hnot ((halike hempty hbytes hcommon).mp h)⟩
    · rintro ⟨hempty, hbytes, hcommon, hnot⟩
      exact ⟨hempty, hbytes, hcommon, fun h => hnot ((halike hempty hbytes hcommon).mpr h)⟩

/-! ## Correlation identifiers -/

def isLineSeparator (c : Char) : Bool := c == '\u2028' || c == '\u2029'

def isControlCharacter (c : Char) : Bool := decide (c.toNat ≤ 0x1f) || c.toNat == 0x7f

theorem controlClass_contains (c : Char) : controlClass.contains c = isControlCharacter c := by
  show ((decide ('\x00' ≤ c) && decide (c ≤ '\x1f')) || (c == '\x7f' || false)) = _
  rw [Bool.eq_iff_iff]
  simp only [isControlCharacter, Bool.or_false, Bool.or_eq_true, Bool.and_eq_true,
    decide_eq_true_eq, beq_iff_eq]
  have hlow : '\x00' ≤ c := Nat.zero_le _
  have hhigh : c ≤ '\x1f' ↔ c.toNat ≤ 0x1f := Iff.rfl
  have hdelete : c = '\x7f' ↔ c.toNat = 0x7f := by
    constructor
    · rintro rfl
      rfl
    · exact fun h => Char.toNat_inj.mp h
  rw [hhigh, hdelete]
  simp [hlow]

/-- A line terminator is a control character or a line separator. -/
theorem dot_contains {c : Char} (hc : isControlCharacter c = false) :
    Atom.dot.contains c = !isLineSeparator c := by
  show (!isLineTerminator c) = _
  have h2028 : c = '\u2028' ↔ c.toNat = 0x2028 := by
    constructor
    · rintro rfl
      rfl
    · exact fun h => Char.toNat_inj.mp h
  have h2029 : c = '\u2029' ↔ c.toNat = 0x2029 := by
    constructor
    · rintro rfl
      rfl
    · exact fun h => Char.toNat_inj.mp h
  simp only [isControlCharacter, Bool.or_eq_false_iff, decide_eq_false_iff_not, beq_eq_false_iff_ne]
    at hc
  apply congrArg
  rw [Bool.eq_iff_iff]
  simp only [isLineTerminator, isLineSeparator, Bool.or_eq_true, beq_iff_eq, h2028, h2029]
  omega

/-- **What the look-ahead sees**: control characters before the first line separator. -/
theorem lookAhead_iff {cs : List Char} :
    (∃ run c rest, cs = run ++ c :: rest ∧ (∀ x ∈ run, Atom.dot.contains x = true)
        ∧ controlClass.contains c = true)
      ↔ ((cs.takeWhile fun c => !isLineSeparator c).any isControlCharacter) = true := by
  induction cs with
  | nil => simp
  | cons d cs ih =>
      have hhead : (∃ run c rest, d :: cs = run ++ c :: rest
            ∧ (∀ x ∈ run, Atom.dot.contains x = true) ∧ controlClass.contains c = true)
          ↔ controlClass.contains d = true ∨ (Atom.dot.contains d = true
            ∧ ∃ run c rest, cs = run ++ c :: rest ∧ (∀ x ∈ run, Atom.dot.contains x = true)
              ∧ controlClass.contains c = true) := by
        constructor
        · rintro ⟨run, c, rest, heq, hall, hc⟩
          cases run with
          | nil =>
              cases heq
              exact Or.inl hc
          | cons x run =>
              cases heq
              obtain ⟨hx, hrun⟩ := List.forall_mem_cons.mp hall
              exact Or.inr ⟨hx, run, c, rest, rfl, hrun, hc⟩
        · rintro (hd | ⟨hd, run, c, rest, rfl, hall, hc⟩)
          · exact ⟨[], d, cs, rfl, by simp, hd⟩
          · exact ⟨d :: run, c, rest, rfl, List.forall_mem_cons.mpr ⟨hd, hall⟩, hc⟩
      rw [hhead, ih, controlClass_contains, List.takeWhile_cons]
      cases hcontrol : isControlCharacter d with
      | true =>
          -- a control character is seen, and is no line separator
          have hseparator : isLineSeparator d = false := by
            simp only [isControlCharacter, Bool.or_eq_true, decide_eq_true_eq, beq_iff_eq] at hcontrol
            simp only [isLineSeparator, Bool.or_eq_false_iff, beq_eq_false_iff_ne]
            constructor
            · rintro rfl
              revert hcontrol
              decide
            · rintro rfl
              revert hcontrol
              decide
          simp [hseparator, hcontrol]
      | false =>
          rw [dot_contains hcontrol]
          cases isLineSeparator d <;> simp [hcontrol]

/-- When the look-ahead misses no control character of an identifier. -/
def SeesControls (value : String) : Prop :=
  value.isEmpty = false → value.utf8ByteSize ≤ 256 →
    (∀ c, AtEnd value c → ecmascriptWhitespace c = false) →
    value.toList.any isControlCharacter = true →
    ((value.toList.takeWhile fun c => !isLineSeparator c).any isControlCharacter) = true

theorem accepts_correlationId {value : String} :
    TextArgument.correlationId.schema.Accepts value
      ↔ value.isEmpty = false ∧ value.utf8ByteSize ≤ 256
        ∧ (∀ c, AtEnd value c → ecmascriptWhitespace c = false)
        ∧ ¬ ((value.toList.takeWhile fun c => !isLineSeparator c).any isControlCharacter) = true := by
  show StringSchema.Accepts ⟨some 1, some 256, some 256, some correlationIdPattern⟩ value ↔ _
  rw [accepts_bounded]
  apply and_congr_right
  intro hempty
  apply and_congr_right
  intro _
  rw [correlationIdPattern, found_anchored, ← lookAhead_iff, ← matches_unspaced hempty]
  constructor
  · rintro ⟨u, hahead, hbody⟩
    obtain ⟨rfl, hnone⟩ := matches_notAhead.mp hahead
    exact ⟨hbody, hnone⟩
  · rintro ⟨hbody, hnone⟩
    exact ⟨value.toList, matches_notAhead.mpr ⟨rfl, hnone⟩, hbody⟩

theorem validCorrelationId_ends {value : String} :
    validCorrelationId value = true ↔ value.isEmpty = false ∧ value.utf8ByteSize ≤ 256
      ∧ (∀ c, AtEnd value c → ecmascriptWhitespace c = false)
      ∧ ¬ value.toList.any isControlCharacter = true := by
  have hcontrol : (value.toList.all fun c => !(decide (c.toNat ≤ 0x1f) || c.toNat == 0x7f)) = true
      ↔ ¬ value.toList.any isControlCharacter = true := by
    rw [Bool.not_eq_true, List.any_eq_false, List.all_eq_true]
    simp [isControlCharacter]
  rw [validCorrelationId]
  simp only [Bool.and_eq_true, decide_eq_true_eq, Bool.not_eq_true', and_assoc]
  apply and_congr_right
  intro hempty
  rw [hcontrol, any_ends_iff hempty]
  apply and_congr_right
  intro _
  exact and_comm

theorem correlationId_agree_iff {value : String} :
    (TextArgument.correlationId.schema.Accepts value ↔ validCorrelationId value = true)
      ↔ SeesControls value := by
  -- what the look-ahead sees is in the identifier
  have hseen : ((value.toList.takeWhile fun c => !isLineSeparator c).any isControlCharacter) = true →
      value.toList.any isControlCharacter = true := by
    rw [List.any_eq_true, List.any_eq_true]
    rintro ⟨c, hc, hcontrol⟩
    exact ⟨c, (List.takeWhile_sublist _).mem hc, hcontrol⟩
  rw [accepts_correlationId, validCorrelationId_ends, SeesControls]
  constructor
  · intro hiff hempty hbytes hends hcontrol
    by_contra hnone
    exact (hiff.mp ⟨hempty, hbytes, hends, hnone⟩).2.2.2 hcontrol
  · intro hsees
    constructor
    · rintro ⟨hempty, hbytes, hends, hnone⟩
      exact ⟨hempty, hbytes, hends, fun h => hnone (hsees hempty hbytes hends h)⟩
    · rintro ⟨hempty, hbytes, hends, hnone⟩
      exact ⟨hempty, hbytes, hends, fun h => hnone (hseen h)⟩

/-! ## Every argument -/

/-- The texts on which schema and helper agree. -/
def TextArgument.Alike : TextArgument → String → Prop
  | .role => TrimsAlike 256
  | .mission => TrimsAlike 4096
  | .correlationId => SeesControls
  | _ => fun _ => True

/-- **The published schema and the helpers**: names and identifiers are constrained alike. A role
and a mission are unless U+0085 or U+FEFF stands at one end, and a correlation identifier unless
its only control characters are behind a line separator. -/
theorem schema_agrees_iff (argument : TextArgument) (value : String) :
    (argument.schema.Accepts value ↔ argument.valid value = true) ↔ argument.Alike value := by
  cases argument with
  | squad => exact iff_of_true accepts_squad trivial
  | name => exact iff_of_true accepts_member trivial
  | role => exact trimmed_agree_iff
  | mission => exact trimmed_agree_iff
  | recipient => exact iff_of_true accepts_member trivial
  | replyTo => exact iff_of_true (accepts_messageId fun n h => by cases h) trivial
  | correlationId => exact correlationId_agree_iff
  | acknowledgedId =>
      refine iff_of_true (accepts_messageId fun n h => ?_) trivial
      cases h
      exact Nat.le_refl 5

/-- **A role that the schema accepts and the server refuses** begins with U+0085. -/
theorem schema_disagrees :
    ¬ ∀ (argument : TextArgument) (value : String),
      argument.schema.Accepts value ↔ argument.valid value = true := by
  intro hclaim
  have halike := trimmed_agree_iff.mp (hclaim .role "\u0085x")
  have hend : AtEnd "\u0085x" '\ufeff' := by
    refine (halike (by decide) (by decide) ?_).mp (Or.inl rfl)
    rintro c (hc | hc)
    · cases hc
      decide
    · cases hc
      decide
  rcases hend with h | h
  · exact absurd h (by decide)
  · exact absurd h (by decide)

end Psst
