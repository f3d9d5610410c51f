import Mathlib.Data.List.Basic
import Psst.Lib.Json
import Psst.Mcp.Arguments

/-!
# The server's checks and the protocol's

What the dispatch makes of the arguments, and how its rules compare with the server's. They are
the same texts for every field but the correlation identifier, which the server holds to the white
space and the control characters of the published pattern.
-/

namespace Psst

open Json

/-! ## Routing names -/

/-- The characters that stand at the ends are plain, and all are plain or allowed. -/
theorem all_zipIdx_ends (plain allowed : Char → Bool) {cs : List Char} (hne : cs ≠ []) :
    (cs.zipIdx.all fun p =>
        plain p.1 || (decide (0 < p.2) && decide (p.2 + 1 < cs.length) && allowed p.1)) = true
      ↔ cs.head?.any plain = true ∧ cs.getLast?.any plain = true
        ∧ (cs.all fun c => plain c || allowed c) = true := by
  have hlen : 0 < cs.length := List.length_pos_iff.mpr hne
  simp only [List.all_eq_true, Prod.forall, List.mem_zipIdx_iff_getElem?, Bool.or_eq_true, Bool.and_eq_true, decide_eq_true_eq]
  rw [List.head?_eq_getElem?, List.getLast?_eq_getElem?]
  constructor
  · intro h
    refine ⟨?_, ?_, ?_⟩
    · rw [List.getElem?_eq_getElem hlen]
      rcases h cs[0] 0 (List.getElem?_eq_getElem hlen) with hplain | ⟨⟨hpos, -⟩, -⟩
      · exact hplain
      · omega
    · have hlast : cs.length - 1 < cs.length := by omega
      rw [List.getElem?_eq_getElem hlast]
      rcases h cs[cs.length - 1] (cs.length - 1) (List.getElem?_eq_getElem hlast) with
        hplain | ⟨⟨-, hinner⟩, -⟩
      · exact hplain
      · omega
    · intro c hc
      obtain ⟨i, hi⟩ := List.mem_iff_getElem?.mp hc
      rcases h c i hi with hplain | ⟨-, hallowed⟩
      · exact Or.inl hplain
      · exact Or.inr hallowed
  · rintro ⟨hhead, hlast, hall⟩ c i hi
    by_cases hfirst : i = 0
    · left
      rw [hfirst] at hi
      rw [hi] at hhead
      exact hhead
    · by_cases hend : i = cs.length - 1
      · left
        rw [hend] at hi
        rw [hi] at hlast
        exact hlast
      · -- inside, every allowed character may stand
        obtain ⟨hlt, -⟩ := List.getElem?_eq_some_iff.mp hi
        rcases hall c (List.mem_of_getElem? hi) with hplain | hallowed
        · exact Or.inl hplain
        · exact Or.inr ⟨⟨by omega, by omega⟩, hallowed⟩
/-- An end that is alphanumeric is no separator. -/
theorem any_plain_iff {plain separator : Char → Bool} {edge : Option Char}
    (hplain : ∀ c, plain c = true → isAsciiAlphanumeric c = true)
    (hseparator : ∀ c, separator c = true → isAsciiAlphanumeric c = false)
    (hend : ∀ c, edge = some c → plain c = true ∨ separator c = true) :
    edge.any plain = true ↔ edge.any isAsciiAlphanumeric = true := by
  cases edge with
  | none => simp
  | some c =>
      show plain c = true ↔ isAsciiAlphanumeric c = true
      constructor
      · exact hplain c
      · intro halphanumeric
        rcases hend c rfl with h | h
        · exact h
        · rw [hseparator c h] at halphanumeric
          cases halphanumeric

/-- The separators of routing names. -/
def separator (member : Bool) (c : Char) : Bool := c == '-' || (member && (c == '_' || c == '.'))

theorem not_alphanumeric_of_separator {member : Bool} {c : Char}
    (h : separator member c = true) : isAsciiAlphanumeric c = false := by
  simp only [separator, Bool.or_eq_true, Bool.and_eq_true, beq_iff_eq] at h
  rcases h with rfl | ⟨-, rfl | rfl⟩ <;> decide

/-- **A routing name** has plain ends, and nothing but plain characters and separators. -/
theorem validRouting_ends {value : String} {max : Nat} {member : Bool} :
    validRouting value max member = true ↔ value.isEmpty = false ∧ value.utf8ByteSize ≤ max
      ∧ value.toList.head?.any (fun c => isAsciiLowercase c || isAsciiDigit c) = true
      ∧ value.toList.getLast?.any (fun c => isAsciiLowercase c || isAsciiDigit c) = true
      ∧ (value.toList.all fun c => isAsciiLowercase c || isAsciiDigit c || separator member c)
        = true := by
  by_cases hempty : value.toList = []
  · have hvalue : value.isEmpty = true := by
      rw [← toList_isEmpty, hempty]
      rfl
    simp [validRouting, hvalue]
  · rw [← all_zipIdx_ends _ (separator member) hempty, validRouting, Bool.and_eq_true,
      Bool.and_eq_true, decide_eq_true_eq, and_assoc, Bool.not_eq_true']
    rfl

/-- The ends may as well be tested for any alphanumeric character. -/
theorem validRouting_iff {value : String} {max : Nat} {member : Bool} :
    validRouting value max member = true ↔ value.isEmpty = false ∧ value.utf8ByteSize ≤ max
      ∧ validRoutingName (separator member) value = true := by
  let plain : Char → Bool := fun c => isAsciiLowercase c || isAsciiDigit c
  have hplain : ∀ c, plain c = true → isAsciiAlphanumeric c = true := by
    intro c hc
    rcases Bool.or_eq_true_iff.mp hc with h | h
    · exact isAsciiAlphanumeric_of_lowercase h
    · exact isAsciiAlphanumeric_of_digit h
  have hseparator : ∀ c, separator member c = true → isAsciiAlphanumeric c = false :=
    fun c => not_alphanumeric_of_separator
  have hends : (value.toList.all fun c => plain c || separator member c) = true →
      (value.toList.head?.any plain = true ↔ value.toList.head?.any isAsciiAlphanumeric = true)
      ∧ (value.toList.getLast?.any plain = true
        ↔ value.toList.getLast?.any isAsciiAlphanumeric = true) := by
    intro hall
    have hmem : ∀ c ∈ value.toList, plain c = true ∨ separator member c = true := fun c hc =>
      Bool.or_eq_true_iff.mp (List.all_eq_true.mp hall c hc)
    exact ⟨any_plain_iff hplain hseparator fun c hc => hmem c (List.mem_of_head? hc),
      any_plain_iff hplain hseparator fun c hc => hmem c (List.mem_of_getLast? hc)⟩
  rw [validRouting_ends, validRoutingName, Bool.and_eq_true, Bool.and_eq_true, and_assoc]
  apply and_congr_right
  intro _
  apply and_congr_right
  intro _
  constructor
  · rintro ⟨hhead, hlast, hall⟩
    exact ⟨(hends hall).1.mp hhead, (hends hall).2.mp hlast, hall⟩
  · rintro ⟨hhead, hlast, hall⟩
    exact ⟨(hends hall).1.mpr hhead, (hends hall).2.mpr hlast, hall⟩

theorem validSquad_iff {value : String} :
    validSquad value = true ↔ SquadName.rule.check value = .ok () := by
  have hseparator : (fun c => c == '-') = separator false := by
    funext c
    simp [separator]
  rw [validSquad, validRouting_iff, TextRule.check_eq_ok, ← hseparator]
  rfl

theorem validMember_iff {value : String} :
    validMember value = true ↔ MemberName.rule.check value = .ok () := by
  have hseparator : (fun c => c == '-' || c == '_' || c == '.') = separator true := by
    funext c
    simp [separator, Bool.or_assoc]
  rw [validMember, validRouting_iff, TextRule.check_eq_ok, ← hseparator]
  rfl

/-! ## Texts -/

theorem validTrimmed_iff (rule : TextRule) (hrule : rule.validator = trimmedNonempty)
    {value : String} : validTrimmed value rule.max = true ↔ rule.check value = .ok () := by
  rw [TextRule.check_eq_ok, hrule, validTrimmed, Bool.and_eq_true, Bool.and_eq_true,
    decide_eq_true_eq, and_assoc, Bool.not_eq_true']
  apply and_congr_right
  intro hempty
  apply and_congr_right
  intro _
  rw [trimmedNonempty, Bool.and_eq_true]
  constructor
  · intro htrim
    rw [beq_iff_eq.mp htrim, toList_isEmpty, hempty]
    exact ⟨beq_self_eq_true _, rfl⟩
  · exact fun h => h.1

/-- **A message identifier is judged the same way on both sides.** -/
theorem validMessageId_iff {value : String} :
    validMessageId value = true ↔ OpaqueId.check .message value = .ok () := by
  have hpre : IdKind.message.pre.toList ++ ['_'] = "msg_".toList := by decide
  have hsome := List.isSome_isPrefixOf?_eq_isPrefixOf "msg_".toList value.toList
  unfold validMessageId OpaqueId.check
  rw [hpre, ← hsome]
  cases hprefix : "msg_".toList.isPrefixOf? value.toList with
  | none => simp
  | some suffix =>
      have hlist : "msg_".toList ++ suffix = value.toList :=
        List.isPrefixOf?_eq_some_iff_append_eq.mp hprefix
      have hvalue : value = "msg_" ++ String.ofList suffix := by
        have hsuffix : (String.ofList suffix).toList = suffix := String.toList_ofList
        rw [← String.toList_inj, String.toList_append, hsuffix, hlist]
      have hsize : value.utf8ByteSize = 4 + (String.ofList suffix).utf8ByteSize := by
        rw [hvalue, String.utf8ByteSize_append]
        rfl
      have hdrop : value.toList.drop 4 = suffix := by
        rw [← hlist]
        rfl
      have hempty : (String.ofList suffix).utf8ByteSize = 0 ↔ suffix = [] := by
        rw [String.utf8ByteSize_eq_zero_iff, ← String.toList_eq_nil_iff, String.toList_ofList]
      rw [hdrop, hsize]
      dsimp only
      generalize (suffix.all fun c => isAsciiLowercase c || isAsciiDigit c || c == '-') = plain
      by_cases hnil : suffix = []
      · simp [hnil]
      · have hpos : (String.ofList suffix).utf8ByteSize ≠ 0 := fun h => hnil (hempty.mp h)
        have hfive : 5 ≤ 4 + (String.ofList suffix).utf8ByteSize := by omega
        by_cases hlong : 128 < 4 + (String.ofList suffix).utf8ByteSize
        · have hover : ¬ 4 + (String.ofList suffix).utf8ByteSize ≤ 128 := by omega
          simp [hlong, hover]
        · have hwithin : 4 + (String.ofList suffix).utf8ByteSize ≤ 128 := by omega
          cases plain with
          | false => simp [hnil, hlong]
          | true => simp [hnil, hlong, hfive, hwithin]

/-! ## Correlation identifiers -/

/-- What `trim` leaves as it is. -/
theorem trim_eq_self_iff {cs : List Char} :
    trim cs = cs ↔ (∀ c, cs.head? = some c → isWhitespace c = false)
      ∧ ∀ c, cs.getLast? = some c → isWhitespace c = false := by
  have hhead : ∀ cs : List Char, cs.dropWhile isWhitespace = cs
      ↔ ∀ c, cs.head? = some c → isWhitespace c = false := by
    intro cs
    cases cs with
    | nil => simp
    | cons c cs =>
        rw [List.dropWhile_cons]
        split_ifs with hc
        · constructor
          · intro heq
            have hlength := (List.dropWhile_sublist (l := cs) isWhitespace).length_le
            rw [heq, List.length_cons] at hlength
            omega
          · intro h
            rw [h c rfl] at hc
            cases hc
        · simpa using hc
  have hlast := hhead cs.reverse
  rw [List.head?_reverse] at hlast
  rw [← hhead, ← hlast, trim]
  constructor
  · intro heq
    have hlength := congrArg List.length heq
    rw [List.length_reverse] at hlength
    have hshort := (List.dropWhile_sublist (l := (cs.dropWhile isWhitespace).reverse)
      isWhitespace).length_le
    rw [List.length_reverse] at hshort
    have hfirst : cs.dropWhile isWhitespace = cs :=
      (List.dropWhile_sublist isWhitespace).eq_of_length_le (by omega)
    rw [hfirst] at heq
    refine ⟨hfirst, ?_⟩
    rw [← List.reverse_inj, List.reverse_reverse]
    exact heq
  · rintro ⟨hfirst, hrest⟩
    rw [hfirst, hrest, List.reverse_reverse]

/-- The control characters beyond ASCII. -/
def isC1Control (c : Char) : Bool := 0x80 ≤ c.toNat && c.toNat ≤ 0x9f

/-- No control character beyond ASCII, and no byte order mark at an end: the two sides differ on
nothing else. -/
def unmarked (value : String) : Bool :=
  value.toList.all (fun c => !isC1Control c)
    && value.toList.head?.all (fun c => c.toNat != 0xfeff)
    && value.toList.getLast?.all fun c => c.toNat != 0xfeff

theorem isControl_iff {c : Char} (hc : isC1Control c = false) :
    isControl c = (decide (c.toNat ≤ 0x1f) || c.toNat == 0x7f) := by
  simp only [isC1Control, Bool.and_eq_false_iff, decide_eq_false_iff_not] at hc
  rw [Bool.eq_iff_iff]
  simp only [isControl, Bool.or_eq_true, Bool.and_eq_true, decide_eq_true_eq, beq_iff_eq]
  omega

theorem ecmascriptWhitespace_eq {c : Char} (hc : isC1Control c = false)
    (hmark : (c.toNat != 0xfeff) = true) : ecmascriptWhitespace c = isWhitespace c := by
  simp only [isC1Control, Bool.and_eq_false_iff, decide_eq_false_iff_not] at hc
  simp only [bne_iff_ne, ne_eq] at hmark
  rw [Bool.eq_iff_iff]
  simp only [ecmascriptWhitespace, isWhitespace, Bool.or_eq_true, Bool.and_eq_true,
    decide_eq_true_eq, beq_iff_eq]
  omega

/-- **Without these characters the two sides agree.** -/
theorem validCorrelationId_iff {value : String} (hunmarked : unmarked value = true) :
    validCorrelationId value = true ↔ CorrelationId.rule.check value = .ok () := by
  simp only [unmarked, Bool.and_eq_true, List.all_eq_true, Bool.not_eq_true'] at hunmarked
  obtain ⟨⟨hplain, hfirst⟩, hlast⟩ := hunmarked
  have hends : ∀ edge : Option Char, (∀ c, edge = some c → c ∈ value.toList) →
      edge.all (fun c => c.toNat != 0xfeff) = true → edge ≠ none →
      (edge.any (fun c => !ecmascriptWhitespace c) = true
        ↔ ∀ c, edge = some c → isWhitespace c = false) := by
    intro edge hmem hmark hsome
    cases edge with
    | none => exact absurd rfl hsome
    | some c =>
        have hspace := ecmascriptWhitespace_eq (hplain c (hmem c rfl)) hmark
        simp [hspace]
  rw [TextRule.check_eq_ok]
  show _ ↔ _ ∧ _ ∧ printable value = true
  rw [validCorrelationId]
  simp only [Bool.and_eq_true, Bool.not_eq_true', decide_eq_true_eq, and_assoc]
  apply and_congr_right
  intro hempty
  apply and_congr_right
  intro _
  have hne : value.toList ≠ [] := by
    intro hnil
    rw [← toList_isEmpty, hnil] at hempty
    cases hempty
  have htrimmed : trimmedNonempty value = true ↔ trim value.toList = value.toList := by
    rw [trimmedNonempty, Bool.and_eq_true, beq_iff_eq]
    constructor
    · exact fun h => h.1
    · intro htrim
      rw [htrim, toList_isEmpty, hempty]
      exact ⟨rfl, rfl⟩
  have hcontrol : (value.toList.all fun c => !(decide (c.toNat ≤ 0x1f) || c.toNat == 0x7f)) = true
      ↔ (value.toList.any isControl) = false := by
    rw [List.all_eq_true, List.any_eq_false]
    constructor
    · intro h c hc
      rw [isControl_iff (hplain c hc)]
      simpa using h c hc
    · intro h c hc
      have hnot := h c hc
      rw [isControl_iff (hplain c hc)] at hnot
      simpa using hnot
  rw [printable, Bool.and_eq_true, Bool.not_eq_true', htrimmed, trim_eq_self_iff, hcontrol,
    hends _ (fun c => List.mem_of_head? ) hfirst (by simpa using hne),
    hends _ (fun c => List.mem_of_getLast?) hlast (by simpa using hne)]
  constructor
  · rintro ⟨hno, hhead, hlast⟩
    exact ⟨⟨hhead, hlast⟩, hno⟩
  · rintro ⟨⟨hhead, hlast⟩, hno⟩
    exact ⟨hno, hhead, hlast⟩

/-! ## Requests -/

/-- `mcp_metadata` -/
def mcpMetadata : Protocol.ClientMetadata := ⟨"mcp", none, some "0.1.0-alpha.2"⟩

def lowerHexDigit (n : Nat) : Char := if n < 10 then Char.ofNat (48 + n) else Char.ofNat (87 + n)

/-- `dedupe_key`, from the octets drawn for it. -/
def dedupeKey (random : Vector UInt8 16) : String :=
  "sdk-" ++ String.ofList (random.toList.flatMap fun byte =>
    [lowerHexDigit (byte.toNat / 16), lowerHexDigit (byte.toNat % 16)])

/-- What the dispatch asks the protocol for. The tools without a text of the caller's in their
request are one case. -/
inductive ToolRequest where
  | join (squad : String) (request : Protocol.JoinSquadRequest)
  | describe (squad : String)
  | send (request : Protocol.SendMessageRequest)
  | receive (acknowledgement : Option Protocol.AckMessagesRequest) (query : Protocol.InboxQuery)
  | acknowledge (request : Protocol.AckMessagesRequest)
  | plain

def SquadJoinInput.request (mode : AgentMode) (input : SquadJoinInput) : ToolRequest :=
  .join input.squad ⟨input.name, input.role, mode, mcpMetadata, input.mission⟩

/-- `prepare_send` -/
def MessageSendInput.request (random : Vector UInt8 16) (input : MessageSendInput) : ToolRequest :=
  .send ⟨none, input.recipient, input.body, input.priority, dedupeKey random, input.replyTo,
    input.correlationId⟩

def MessageReceiveInput.request (input : MessageReceiveInput) : ToolRequest :=
  .receive (if input.acknowledgeIds.isEmpty then none else some ⟨input.acknowledgeIds⟩)
    ⟨input.limit, input.waitSeconds⟩

def MessageAcknowledgeInput.request (input : MessageAcknowledgeInput) : ToolRequest :=
  .acknowledge ⟨input.messageIds⟩

/-- The request that the dispatch builds from the arguments, if they decode. -/
def toolRequest (mode : AgentMode) (random : Vector UInt8 16) (name : String)
    (arguments : Arguments) : Option ToolRequest :=
  match name with
  | "squad_join" => (SquadJoinInput.decode arguments).map (SquadJoinInput.request mode)
  | "squad_leave" | "squad_list" | "squad_roster" =>
    (EmptyInput.decode arguments).map fun _ => .plain
  | "squad_describe" => (SquadDescribeInput.decode arguments).map fun input => .describe input.squad
  | "message_send" => (MessageSendInput.decode arguments).map (MessageSendInput.request random)
  | "message_receive" => (MessageReceiveInput.decode arguments).map MessageReceiveInput.request
  | "message_acknowledge" =>
    (MessageAcknowledgeInput.decode arguments).map MessageAcknowledgeInput.request
  | "agent_status" => (AgentStatusInput.decode arguments).map fun _ => .plain
  | _ => none

namespace ToolRequest

/-- The protocol's rules. -/
def validate : ToolRequest → Except InvalidValue Unit
  | .join squad request => do
    SquadName.rule.check squad
    request.validate
  | .describe squad => SquadName.rule.check squad
  | .send request => request.validate
  | .receive none query => query.validate
  | .receive (some request) query => do
    request.validate
    query.validate
  | .acknowledge request => request.validate
  | .plain => .ok ()

/-- The identifiers to acknowledge. -/
def acknowledged : ToolRequest → List String
  | .receive (some request) _ | .acknowledge request => request.messageIds
  | _ => []

def correlationId : ToolRequest → Option String
  | .send request => request.correlationId
  | _ => none

/-- The same request without a correlation identifier. -/
def uncorrelated : ToolRequest → ToolRequest
  | .send request => .send { request with correlationId := none }
  | request => request

end ToolRequest

/-- Whatever octets are drawn, the key is a valid one. -/
theorem dedupeKey_valid (random : Vector UInt8 16) :
    DedupeKey.rule.check (dedupeKey random) = .ok () := by
  have hdigit : ∀ n < 16, isControl (lowerHexDigit n) = false ∧ isWhitespace (lowerHexDigit n) = false := by
    decide
  let digits := random.toList.flatMap fun byte =>
    [lowerHexDigit (byte.toNat / 16), lowerHexDigit (byte.toNat % 16)]
  have hdigits : (String.ofList digits).toList = digits := String.toList_ofList
  have htext : (dedupeKey random).toList = ['s', 'd', 'k', '-'] ++ digits := by
    rw [dedupeKey, String.toList_append, hdigits]
    rfl
  have hlength : (dedupeKey random).toList.length = 36 := by
    rw [htext, List.length_append, List.length_flatMap]
    simp
  have hchars : ∀ c ∈ (dedupeKey random).toList, isControl c = false ∧ isWhitespace c = false := by
    intro c hc
    rw [htext] at hc
    rcases List.mem_append.mp hc with hc | hc
    · have hprefix : (['s', 'd', 'k', '-'].all fun c => !isControl c && !isWhitespace c) = true := by
        decide
      simpa using List.all_eq_true.mp hprefix c hc
    · obtain ⟨byte, -, hc⟩ := List.mem_flatMap.mp hc
      have hbyte := byte.toNat_lt
      rcases List.mem_pair.mp hc with rfl | rfl
      · exact hdigit _ (by omega)
      · exact hdigit _ (by omega)
  have hempty : (dedupeKey random).isEmpty = false := by
    rw [← toList_isEmpty, htext]
    rfl
  have htrim : trim (dedupeKey random).toList = (dedupeKey random).toList :=
    trim_eq_self_iff.mpr ⟨fun c hc => (hchars c (List.mem_of_head? hc)).2,
      fun c hc => (hchars c (List.mem_of_getLast? hc)).2⟩
  rw [TextRule.check_eq_ok]
  refine ⟨hempty, ?_, ?_⟩
  · -- no character takes more than four octets
    have hweight : ∀ cs : List Char, weight utf8 cs ≤ 4 * cs.length := by
      intro cs
      induction cs with
      | nil => simp
      | cons c cs ih =>
          have hc : utf8 c ≤ 4 := c.utf8Size_le_four
          rw [weight_cons, List.length_cons]
          omega
    have hsize := hweight (dedupeKey random).toList
    rw [weight_utf8_toList, hlength] at hsize
    show _ ≤ 256
    omega
  · show printable (dedupeKey random) = true
    rw [printable, trimmedNonempty, htrim, toList_isEmpty, hempty]
    simpa using fun c hc => (hchars c hc).1

/-! ## Agreement -/

/-- The rules the server holds a request to: the protocol's, but for the correlation identifier,
which is judged by the published pattern; and no identifier is acknowledged twice. -/
def ToolRequest.Passes (r : ToolRequest) : Prop :=
  r.uncorrelated.validate = .ok () ∧ r.acknowledged.Nodup
    ∧ ∀ id, r.correlationId = some id → validCorrelationId id = true

theorem all_eq_true_iff {p : String → Bool} {value : Option String} :
    value.all p = true ↔ ∀ v, value = some v → p v = true := by
  cases value <;> simp

theorem validJoin_iff {mode : AgentMode} {input : SquadJoinInput} :
    validJoin input = true ↔ (input.request mode).Passes := by
  have hclient : Protocol.validateClient mcpMetadata = .ok () := by decide
  have hrole : validTrimmed input.role 256 = true ↔ Role.rule.check input.role = .ok () :=
    validTrimmed_iff Role.rule rfl
  have hmission : ∀ mission,
      validTrimmed mission 4096 = true ↔ Mission.rule.check mission = .ok () :=
    fun _ => validTrimmed_iff Mission.rule rfl
  have hrequest : (input.request mode).uncorrelated.validate = .ok ()
      ↔ SquadName.rule.check input.squad = .ok ()
        ∧ Protocol.JoinSquadRequest.validate
          ⟨input.name, input.role, mode, mcpMetadata, input.mission⟩ = .ok () :=
    Protocol.bind_eq_ok
  rw [Protocol.JoinSquadRequest.validate_eq_ok] at hrequest
  have hpasses : (input.request mode).Passes ↔ (input.request mode).uncorrelated.validate = .ok () := by
    constructor
    · exact fun h => h.1
    · exact fun h => ⟨h, List.nodup_nil, fun id hid => by cases hid⟩
  rw [hpasses, hrequest, validJoin]
  simp only [Bool.and_eq_true, validSquad_iff, validMember_iff, hrole, all_eq_true_iff, hmission,
    and_assoc, hclient, and_true]

theorem validSend_iff {random : Vector UInt8 16} {input : MessageSendInput} :
    validSend input = true ↔ (input.request random).Passes := by
  have hbody : (1 ≤ input.body.utf8ByteSize ∧ input.body.utf8ByteSize ≤ 65536)
      ↔ MessageBody.rule.check input.body = .ok () := by
    have hempty : input.body.isEmpty = false ↔ 1 ≤ input.body.utf8ByteSize := by
      rw [Bool.eq_false_iff, ne_eq, String.isEmpty_iff, ← String.utf8ByteSize_eq_zero_iff]
      omega
    rw [TextRule.check_eq_ok, hempty]
    show _ ↔ _ ∧ _ ≤ 65536 ∧ true = true
    rw [and_iff_left rfl]
  have hpasses : (input.request random).Passes
      ↔ Protocol.SendMessageRequest.validate ⟨none, input.recipient, input.body, input.priority,
          dedupeKey random, input.replyTo, none⟩ = .ok ()
        ∧ ∀ id, input.correlationId = some id → validCorrelationId id = true := by
    constructor
    · exact fun h => ⟨h.1, h.2.2⟩
    · exact fun h => ⟨h.1, List.nodup_nil, h.2⟩
  rw [hpasses, Protocol.SendMessageRequest.validate_eq_ok, validSend]
  simp only [Bool.and_eq_true, decide_eq_true_eq, validMember_iff, all_eq_true_iff, and_assoc,
    validMessageId_iff, dedupeKey_valid, reduceCtorEq, false_implies, implies_true, true_and]
  rw [← hbody, and_assoc]

/-- The identifiers that a request acknowledges, within the protocol's rules. -/
theorem validAcknowledged_iff {ids : List String} :
    (1 ≤ ids.length ∧ ids.length ≤ 100 ∧ ids.all validMessageId = true)
      ↔ Protocol.AckMessagesRequest.validate ⟨ids⟩ = .ok () := by
  rw [Protocol.AckMessagesRequest.validate_eq_ok, List.all_eq_true]
  simp only [validMessageId_iff]
  rfl

theorem validAcknowledge_iff {input : MessageAcknowledgeInput} :
    validAcknowledge input = true ↔ input.request.Passes := by
  have hpasses : input.request.Passes
      ↔ Protocol.AckMessagesRequest.validate ⟨input.messageIds⟩ = .ok ()
        ∧ input.messageIds.Nodup := by
    constructor
    · exact fun h => ⟨h.1, h.2.1⟩
    · exact fun h => ⟨h.1, h.2, fun id hid => by cases hid⟩
  rw [hpasses, ← validAcknowledged_iff, validAcknowledge]
  simp only [Bool.and_eq_true, decide_eq_true_eq, and_assoc]

theorem validReceive_iff {input : MessageReceiveInput} :
    validReceive input = true ↔ input.request.Passes := by
  have hquery := Protocol.InboxQuery.validate_eq_ok (q := ⟨input.limit, input.waitSeconds⟩)
  have hnothing : ∀ id, input.request.correlationId = some id → validCorrelationId id = true := by
    intro id hid
    cases hid
  rw [validReceive]
  simp only [Bool.and_eq_true, decide_eq_true_eq, and_assoc]
  by_cases hempty : input.acknowledgeIds = []
  · -- nothing is acknowledged, and only the query is checked
    have hrequest : input.request = .receive none ⟨input.limit, input.waitSeconds⟩ := by
      rw [MessageReceiveInput.request, hempty]
      rfl
    have hpasses : input.request.Passes
        ↔ Protocol.InboxQuery.validate ⟨input.limit, input.waitSeconds⟩ = .ok () := by
      rw [hrequest] at hnothing ⊢
      constructor
      · exact fun h => h.1
      · exact fun h => ⟨h, List.nodup_nil, hnothing⟩
    rw [hpasses, hquery, hempty]
    simp
  · have hrequest : input.request
        = .receive (some ⟨input.acknowledgeIds⟩) ⟨input.limit, input.waitSeconds⟩ := by
      rw [MessageReceiveInput.request, if_neg (by simpa using hempty)]
    have hpasses : input.request.Passes
        ↔ (Protocol.AckMessagesRequest.validate ⟨input.acknowledgeIds⟩ = .ok ()
            ∧ Protocol.InboxQuery.validate ⟨input.limit, input.waitSeconds⟩ = .ok ())
          ∧ input.acknowledgeIds.Nodup := by
      rw [hrequest] at hnothing ⊢
      constructor
      · exact fun h => ⟨Protocol.bind_eq_ok.mp h.1, h.2.1⟩
      · exact fun h => ⟨Protocol.bind_eq_ok.mpr h.1, h.2, hnothing⟩
    have hpos : 1 ≤ input.acknowledgeIds.length := List.length_pos_iff.mpr hempty
    rw [hpasses, hquery, ← validAcknowledged_iff]
    constructor
    · rintro ⟨hmin, hmax, hwait, hlength, hids, hnodup⟩
      exact ⟨⟨⟨hpos, hlength, hids⟩, hmin, hmax, hwait⟩, hnodup⟩
    · rintro ⟨⟨⟨-, hlength, hids⟩, hmin, hmax, hwait⟩, hnodup⟩
      exact ⟨hmin, hmax, hwait, hlength, hids, hnodup⟩

/-- A decoder and its check, against the request that is built. -/
theorem any_iff_exists_map {α : Type} {decoded : Option α} {check : α → Bool}
    {build : α → ToolRequest} (h : ∀ input, check input = true ↔ (build input).Passes) :
    decoded.any check = true ↔ ∃ r, decoded.map build = some r ∧ r.Passes := by
  cases decoded with
  | none => simp
  | some input => simp [h]

theorem plain_passes : ToolRequest.plain.Passes :=
  ⟨rfl, List.nodup_nil, fun id h => by cases h⟩

theorem isSome_iff_exists_map {α : Type} {decoded : Option α} :
    decoded.isSome = true ↔ ∃ r, (decoded.map fun _ => ToolRequest.plain) = some r ∧ r.Passes := by
  cases decoded with
  | none => simp
  | some input => simp [plain_passes]

theorem validFor_iff (mode : AgentMode) (random : Vector UInt8 16) (name : String)
    (arguments : Arguments) :
    validFor name arguments = true
      ↔ ∃ r, toolRequest mode random name arguments = some r ∧ r.Passes := by
  have hdescribe : ∀ input : SquadDescribeInput,
      validSquad input.squad = true ↔ (ToolRequest.describe input.squad).Passes := by
    intro input
    rw [validSquad_iff]
    constructor
    · exact fun h => ⟨h, List.nodup_nil, fun id hid => by cases hid⟩
    · exact fun h => h.1
  unfold validFor toolRequest
  split
  · exact any_iff_exists_map fun _ => validJoin_iff
  · exact isSome_iff_exists_map
  · exact isSome_iff_exists_map
  · exact isSome_iff_exists_map
  · exact any_iff_exists_map hdescribe
  · exact any_iff_exists_map fun _ => validSend_iff
  · exact any_iff_exists_map fun _ => validReceive_iff
  · exact any_iff_exists_map fun _ => validAcknowledge_iff
  · exact isSome_iff_exists_map
  · simp

/-- Without the characters on which the grammars differ, the rules are the protocol's. -/
theorem passes_iff_valid {r : ToolRequest}
    (h : ∀ id, r.correlationId = some id → unmarked id = true) :
    r.Passes ↔ r.validate = .ok () ∧ r.acknowledged.Nodup := by
  have hother : r.correlationId = none → r.uncorrelated = r →
      (r.Passes ↔ r.validate = .ok () ∧ r.acknowledged.Nodup) := by
    intro hnone hsame
    rw [ToolRequest.Passes, hsame, hnone]
    simp
  cases r with
  | send request =>
      have hcorrelation : (∀ id, request.correlationId = some id → validCorrelationId id = true)
          ↔ ∀ id, request.correlationId = some id → CorrelationId.rule.check id = .ok () := by
        constructor
        · exact fun hvalid id hid => (validCorrelationId_iff (h id hid)).mp (hvalid id hid)
        · exact fun hvalid id hid => (validCorrelationId_iff (h id hid)).mpr (hvalid id hid)
      show Protocol.SendMessageRequest.validate _ = .ok () ∧ List.Nodup [] ∧ _
        ↔ request.validate = .ok () ∧ List.Nodup []
      rw [Protocol.SendMessageRequest.validate_eq_ok, Protocol.SendMessageRequest.validate_eq_ok]
      show _ ∧ _ ∧ (∀ id, request.correlationId = some id → validCorrelationId id = true) ↔ _
      rw [hcorrelation]
      simp [and_assoc]
  | receive acknowledgement query =>
      cases acknowledgement with
      | none => exact hother rfl rfl
      | some request => exact hother rfl rfl
  | join squad request => exact hother rfl rfl
  | describe squad => exact hother rfl rfl
  | acknowledge request => exact hother rfl rfl
  | plain => exact hother rfl rfl

/-- **The server's check and the protocol's**: the arguments are accepted exactly when they decode
and the request that is built passes, with the correlation identifier judged by the published
pattern. On identifiers without a control character beyond ASCII and without a byte order mark at
an end that is the protocol's own rule. -/
theorem arguments_agree (mode : AgentMode) (random : Vector UInt8 16) (name : String)
    (arguments : Arguments) :
    (validateArguments name arguments = .ok ()
        ↔ ∃ r, toolRequest mode random name arguments = some r ∧ r.uncorrelated.validate = .ok ()
          ∧ r.acknowledged.Nodup ∧ ∀ id, r.correlationId = some id → validCorrelationId id = true)
      ∧ ∀ r, toolRequest mode random name arguments = some r →
          (∀ id, r.correlationId = some id → unmarked id = true) →
          (validateArguments name arguments = .ok () ↔ r.validate = .ok () ∧ r.acknowledged.Nodup) := by
  have haccepted : validateArguments name arguments = .ok () ↔ validFor name arguments = true := by
    rw [validateArguments]
    split_ifs with hvalid
    · simp [hvalid]
    · simp [hvalid]
  rw [haccepted, validFor_iff mode random]
  constructor
  · rfl
  · intro r hr hunmarked
    rw [hr]
    constructor
    · rintro ⟨r', hr', hpasses⟩
      cases hr'
      exact (passes_iff_valid hunmarked).mp hpasses
    · exact fun hvalid => ⟨r, rfl, (passes_iff_valid hunmarked).mpr hvalid⟩

namespace Sample

/-- A message whose correlation identifier holds U+0080. -/
def controlArguments : Arguments :=
  [("recipient", .string "one"), ("body", .string "x"),
    ("correlation_id", .string (String.ofList ['a', Char.ofNat 0x80, 'b']))]

end Sample

open Sample in
/-- **The two grammars part on control characters beyond ASCII.** -/
theorem arguments_disagree :
    ¬ ∀ mode random name arguments,
      validateArguments name arguments = .ok ()
        ↔ ∃ r, toolRequest mode random name arguments = some r ∧ r.validate = .ok ()
          ∧ r.acknowledged.Nodup := by
  intro hclaim
  have hvalid : validFor "message_send" controlArguments = true := by decide
  have haccepted : validateArguments "message_send" controlArguments = .ok () := if_pos hvalid
  obtain ⟨r, hr, hvalid, -⟩ :=
    (hclaim .cooperative (Vector.replicate 16 0) "message_send" controlArguments).mp haccepted
  cases hr
  have hinvalid := (Protocol.SendMessageRequest.validate_eq_ok.mp hvalid).2.2.2.2.2 _ rfl
  have hrefused : CorrelationId.rule.check (String.ofList ['a', Char.ofNat 0x80, 'b']) ≠ .ok () := by
    decide
  exact hrefused hinvalid

end Psst
