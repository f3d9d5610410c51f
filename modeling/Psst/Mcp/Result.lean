import Psst.Mcp.Framing
import Psst.Relay.Extent

/-!
# Which results fit their line

The bytes a result costs, as it is and inside the text block, as a sum over the response it was
built from. Only a list of squads, of members or of messages can be too long: any other result
leaves a hundred thousand bytes for the envelope.
-/

namespace Psst

open Json

namespace Tool

/-! ## Sizes -/

/-- The bytes a string costs a result, as a literal and as a literal within a literal. -/
def cost (s : String) : Nat := weight twice (str s)

/-- The bytes a number costs a result. -/
def costNat (n : Nat) : Nat := weight twice (nat n)

theorem weight_twice_obj (t : Text) (ts : List Text) :
    weight twice (obj (t :: ts)) = 2 + separated twice (t :: ts) := by
  have hobj := weight_obj_separated (w := twice) t ts
  have hmarks : twice '{' = 2 ∧ twice '}' = 2 ∧ twice ',' = 2 := by decide
  rw [hmarks.1, hmarks.2.1, hmarks.2.2] at hobj
  omega

theorem separated_twice_cons (name : String) (value : Text) (ts : List Text) :
    separated twice (field name value :: ts)
      = cost name + 4 + weight twice value + separated twice ts := by
  have hmarks : twice ':' = 2 ∧ twice ',' = 2 := by decide
  rw [separated_cons, weight_field, hmarks.1, hmarks.2, cost]
  omega

/-- An array costs its elements, each with a comma, and the two brackets. -/
theorem weight_twice_arr {α : Type} (encode : α → Text) (size : α → Nat)
    (h : ∀ a, weight twice (encode a) + 2 = size a) (as : List α) :
    weight twice (arr (as.map encode)) = 4 + ((as.map size).sum - 2) := by
  have hmarks : twice '[' = 2 ∧ twice ']' = 2 ∧ twice ',' = 2 := by decide
  have hsum : separated twice (as.map encode) = (as.map size).sum := by
    induction as with
    | nil => rfl
    | cons a as ih =>
        rw [List.map_cons, separated_cons, ih, List.map_cons, List.sum_cons, hmarks.2.2, h a]
  rw [weight_arr_separated, hmarks.1, hmarks.2.1, hmarks.2.2, hsum]

theorem weight_nullable {α : Type} {encode : α → Text} {size : α → Nat}
    (h : ∀ a, weight twice (encode a) = size a) (value : Option α) :
    weight twice (nullable encode value) = (value.map size).getD 8 := by
  cases value with
  | none => exact (by decide : weight twice null = 8)
  | some a => exact h a

theorem weight_timestamp (t : ApiTimestamp) : weight twice t.json = 54 := by
  have hdigit : ∀ d < 10, weight quoted (escapeChar (Nat.digitChar d)) = 1 := by decide
  have hcontent : weight (fun c => weight quoted (escapeChar c)) t.display = 24 :=
    t.weight_display hdigit (by decide)
  have hquoted : weight quoted t.json = 28 := by
    rw [ApiTimestamp.json, weight_quote, hcontent, (by decide : quoted '"' = 2)]
  rw [weight_twice, t.json_size, hquoted]

theorem weight_trustLabel : weight twice trustLabel = 64 := by decide

theorem weight_participant (value : String) :
    weight twice (participant value) = 106 + cost value := by
  have hnames : cost "trust" = 16 ∧ cost "value" = 16 := by decide
  rw [participant, weight_twice_obj, separated_twice_cons, separated_twice_cons, separated_nil,
    hnames.1, hnames.2, weight_trustLabel]
  show _ = 106 + weight twice (str value)
  omega

/-! ## Views -/

def squadExtent (squad : SquadSummary) : Nat :=
  406 + cost squad.id.val + cost squad.mission.val + cost squad.name.val + cost squad.state.wire
    + (squad.archivedAt.map fun _ => 54).getD 8

theorem squadView_size (squad : SquadSummary) :
    weight twice (squadView squad) = squadExtent squad := by
  have hnames : cost "archived_at" = 28 ∧ cost "created_at" = 26 ∧ cost "id" = 10
      ∧ cost "mission" = 20 ∧ cost "name" = 14 ∧ cost "state" = 16 := by decide
  obtain ⟨h1, h2, h3, h4, h5, h6⟩ := hnames
  rw [squadView, weight_twice_obj]
  simp only [separated_twice_cons, separated_nil, h1, h2, h3, h4, h5, h6,
    weight_nullable weight_timestamp, weight_timestamp, weight_participant]
  unfold squadExtent
  have hid : weight twice (str squad.id.val) = cost squad.id.val := rfl
  have hstate : weight twice (str squad.state.wire) = cost squad.state.wire := rfl
  omega

def sessionExtent (session : SessionResponse) : Nat :=
  478 + costNat session.heartbeatIntervalSeconds.toNat + costNat session.leaseSeconds.toNat
    + cost session.memberName.val + cost session.role.val + squadExtent session.squad

theorem sessionView_size (session : SessionResponse) :
    weight twice (sessionView session) = sessionExtent session := by
  have hnames : cost "heartbeat_interval_seconds" = 58 ∧ cost "lease_expires_at" = 38
      ∧ cost "lease_seconds" = 32 ∧ cost "member_name" = 28 ∧ cost "role" = 14
      ∧ cost "squad" = 16 := by decide
  obtain ⟨h1, h2, h3, h4, h5, h6⟩ := hnames
  rw [sessionView, weight_twice_obj]
  simp only [separated_twice_cons, separated_nil, h1, h2, h3, h4, h5, h6, weight_timestamp,
    weight_participant, squadView_size]
  unfold sessionExtent
  have hinterval : weight twice (nat session.heartbeatIntervalSeconds.toNat)
      = costNat session.heartbeatIntervalSeconds.toNat := rfl
  have hlease : weight twice (nat session.leaseSeconds.toNat)
      = costNat session.leaseSeconds.toNat := rfl
  omega

def rosterMemberExtent (member : RosterMemberDto) : Nat :=
  812 + cost member.availability.wire + cost member.availabilitySource.wire
    + cost member.membershipId.val + cost member.membershipState.wire + cost member.name.val
    + cost member.presence.wire + cost member.role.val
    + (member.lastSeenAt.map fun _ => 54).getD 8
    + (member.mode.map fun mode => 106 + cost (AgentMode.wire mode)).getD 8

theorem rosterMemberView_size (member : RosterMemberDto) :
    weight twice (rosterMemberView member) = rosterMemberExtent member := by
  have hnames : cost "availability" = 30 ∧ cost "availability_observed_at" = 54
      ∧ cost "availability_source" = 44 ∧ cost "last_seen_at" = 30 ∧ cost "membership_id" = 32
      ∧ cost "membership_state" = 38 ∧ cost "mode" = 14 ∧ cost "name" = 14 ∧ cost "presence" = 22
      ∧ cost "role" = 14 := by decide
  obtain ⟨h1, h2, h3, h4, h5, h6, h7, h8, h9, h10⟩ := hnames
  rw [rosterMemberView, weight_twice_obj]
  simp only [separated_twice_cons, separated_nil, h1, h2, h3, h4, h5, h6, h7, h8, h9, h10,
    weight_nullable weight_timestamp, weight_nullable (fun _ => weight_participant _),
    weight_timestamp, weight_participant]
  unfold rosterMemberExtent
  have hid : weight twice (str member.membershipId.val) = cost member.membershipId.val := rfl
  have hstate : weight twice (str member.membershipState.wire) = cost member.membershipState.wire :=
    rfl
  have hpresence : weight twice (str member.presence.wire) = cost member.presence.wire := rfl
  clear h1 h2 h3 h4 h5 h6 h7 h8 h9 h10
  omega

def messageExtent (message : MessageDto) : Nat :=
  872 + cost message.id.val + cost message.priority.wire + cost message.recipient.val
    + cost message.sender.val + costNat message.sequence + cost message.squad.val
    + cost message.body.val
    + (message.acknowledgedAt.map fun _ => 54).getD 8
    + (message.correlationId.map fun id => 106 + cost id.val).getD 8
    + (message.replyTo.map fun id => 106 + cost id.val).getD 8

theorem messageView_size (message : MessageDto) :
    weight twice (messageView message) = messageExtent message := by
  have hnames : cost "acknowledged_at" = 36 ∧ cost "correlation_id" = 34 ∧ cost "created_at" = 26
      ∧ cost "id" = 10 ∧ cost "priority" = 22 ∧ cost "recipient" = 24 ∧ cost "reply_to" = 22
      ∧ cost "sender" = 18 ∧ cost "sequence" = 22 ∧ cost "squad" = 16 ∧ cost "trust" = 16
      ∧ cost "untrusted_body" = 34 := by decide
  obtain ⟨h1, h2, h3, h4, h5, h6, h7, h8, h9, h10, h11, h12⟩ := hnames
  have hpriority : weight twice
      (obj [field "trust" trustLabel, field "value" (str message.priority.wire)])
        = 106 + cost message.priority.wire := weight_participant message.priority.wire
  rw [messageView, weight_twice_obj]
  simp only [separated_twice_cons, separated_nil, hpriority, h1, h2, h3, h4, h5, h6, h7, h8, h9,
    h10, h11, h12, weight_nullable weight_timestamp, weight_nullable (fun _ => weight_participant _),
    weight_timestamp, weight_participant, weight_trustLabel]
  unfold messageExtent
  have hid : weight twice (str message.id.val) = cost message.id.val := rfl
  have hbody : weight twice (str message.body.val) = cost message.body.val := rfl
  have hsequence : weight twice (nat message.sequence) = costNat message.sequence := rfl
  clear h1 h2 h3 h4 h5 h6 h7 h8 h9 h10 h11 h12 hpriority
  omega

end Tool

open Tool

/-- The bytes a value costs the line of its result. -/
def ToolOutput.extent : ToolOutput → Nat
  | .joined session => 26 + sessionExtent session
  | .left _ => 106
  | .squads list => 520 + ((list.map fun squad => squadExtent squad + 2).sum - 2)
  | .described squad => 514 + squadExtent squad
  | .roster response =>
    648 + cost response.squad.val
      + ((response.members.map fun member => rosterMemberExtent member + 2).sum - 2)
  | .sent response =>
    562 + (if response.idempotentReplay then 8 else 10) + messageExtent response.message
  | .received ids inbox =>
    606 + costNat inbox.pendingCount + ((ids.map fun id => cost id.val + 2).sum - 2)
      + ((inbox.messages.map fun message => messageExtent message + 2).sum - 2)
  | .acknowledged response =>
    48 + ((response.acknowledgedIds.map fun id => cost id.val + 2).sum - 2)
  | .status report =>
    218 + cost report.availability.wire + cost report.profile
      + (if report.connected then 8 else 10) + (if report.degraded then 8 else 10)
      + (report.heartbeatIntervalSeconds.map fun n => costNat n.toNat).getD 8
      + (report.leaseExpiresAt.map fun _ => 54).getD 8

theorem weight_twice_bool (b : Bool) : weight twice (bool b) = if b then 8 else 10 := by
  cases b <;> decide

theorem str_ofList (t : Text) : str (String.ofList t) = quote t := by
  rw [str, String.toList_ofList]

set_option maxRecDepth 4000 in
theorem cost_securityNotice : weight twice (str securityNotice) = 452 := by
  -- the characters of the literal, without decoding its bytes
  have hstr : str securityNotice = quote _ := str_ofList _
  rw [hstr]
  decide

theorem ToolOutput.size (output : ToolOutput) : weight twice output.json = output.extent := by
  have hnotice := cost_securityNotice
  have hnames : cost "session" = 20 ∧ cost "left" = 14 ∧ cost "left_at" = 20
      ∧ cost "security_notice" = 36 ∧ cost "squads" = 18 ∧ cost "squad" = 16 ∧ cost "members" = 20
      ∧ cost "idempotent_replay" = 40 ∧ cost "message" = 20 ∧ cost "acknowledged_ids" = 38
      ∧ cost "messages" = 22 ∧ cost "pending_count" = 32 ∧ cost "availability" = 30
      ∧ cost "connected" = 24 ∧ cost "degraded" = 22 ∧ cost "heartbeat_interval_seconds" = 58
      ∧ cost "lease_expires_at" = 38 ∧ cost "profile" = 20 := by decide
  obtain ⟨h1, h2, h3, h4, h5, h6, h7, h8, h9, h10, h11, h12, h13, h14, h15, h16, h17, h18⟩ := hnames
  have hids : ∀ ids : List MessageId, weight twice (arr (ids.map fun id => str id.val))
      = 4 + ((ids.map fun id => cost id.val + 2).sum - 2) :=
    weight_twice_arr _ _ fun _ => rfl
  cases output with
  | joined session =>
      rw [ToolOutput.json, weight_twice_obj, separated_twice_cons, separated_nil, h1,
        sessionView_size, ToolOutput.extent]
      omega
  | left response =>
      rw [ToolOutput.json, weight_twice_obj, separated_twice_cons, separated_twice_cons,
        separated_nil, h2, h3, weight_timestamp, weight_twice_bool, ToolOutput.extent]
      rfl
  | squads list =>
      have harr := weight_twice_arr squadView (fun squad => squadExtent squad + 2)
        (fun squad => by rw [squadView_size]) list
      rw [ToolOutput.json, weight_twice_obj, separated_twice_cons, separated_twice_cons,
        separated_nil, h4, h5, hnotice, harr, ToolOutput.extent]
      omega
  | described squad =>
      rw [ToolOutput.json, weight_twice_obj, separated_twice_cons, separated_twice_cons,
        separated_nil, h4, h6, hnotice, squadView_size, ToolOutput.extent]
      omega
  | roster response =>
      have harr := weight_twice_arr rosterMemberView (fun member => rosterMemberExtent member + 2)
        (fun member => by rw [rosterMemberView_size]) response.members
      rw [ToolOutput.json, weight_twice_obj, separated_twice_cons, separated_twice_cons,
        separated_twice_cons, separated_nil, h4, h6, h7, hnotice, harr, weight_participant,
        ToolOutput.extent]
      omega
  | sent response =>
      rw [ToolOutput.json, weight_twice_obj, separated_twice_cons, separated_twice_cons,
        separated_twice_cons, separated_nil, h4, h8, h9, hnotice, messageView_size,
        weight_twice_bool, ToolOutput.extent]
      omega
  | received ids inbox =>
      have harr := weight_twice_arr messageView (fun message => messageExtent message + 2)
        (fun message => by rw [messageView_size]) inbox.messages
      have hcount : weight twice (nat inbox.pendingCount) = costNat inbox.pendingCount := rfl
      rw [ToolOutput.json, weight_twice_obj, separated_twice_cons, separated_twice_cons,
        separated_twice_cons, separated_twice_cons, separated_nil, h4, h10, h11, h12, hnotice, harr,
        hids, hcount, ToolOutput.extent]
      omega
  | acknowledged response =>
      rw [ToolOutput.json, weight_twice_obj, separated_twice_cons, separated_nil, h10, hids,
        ToolOutput.extent]
      omega
  | status report =>
      have havailability : weight twice (str report.availability.wire)
          = cost report.availability.wire := rfl
      have hprofile : weight twice (str report.profile) = cost report.profile := rfl
      have hinterval : weight twice (nullable (fun n : UInt32 => nat n.toNat)
          report.heartbeatIntervalSeconds)
            = (report.heartbeatIntervalSeconds.map fun n => costNat n.toNat).getD 8 :=
        weight_nullable (fun _ => rfl) _
      rw [ToolOutput.json, weight_twice_obj]
      simp only [separated_twice_cons, separated_nil, h13, h14, h15, h16, h17, h18, havailability,
        hprofile, hinterval, weight_nullable weight_timestamp, weight_twice_bool]
      rw [ToolOutput.extent]
      omega

/-! ## Results that are always short enough -/

/-- Nothing is listed but at most one row and a batch of identifiers; numbers are those of the
source's integer types. -/
def ToolOutput.Short : ToolOutput → Prop
  | .squads list => list.length ≤ 1
  | .roster response => response.members.length ≤ 1
  | .sent response => response.message.sequence < 2 ^ 63
  | .received ids inbox =>
    ids.length ≤ 100 ∧ inbox.messages.length ≤ 1 ∧ inbox.pendingCount < 2 ^ 64
      ∧ ∀ message ∈ inbox.messages, message.sequence < 2 ^ 63
  | .acknowledged response => response.acknowledgedIds.length ≤ 100
  | .status report => report.profile.utf8ByteSize ≤ 64
  | _ => True

namespace Tool

theorem cost_le_of_text (rule : TextRule) (v : Validated rule.check) :
    cost v.val ≤ 6 + 13 * rule.max :=
  (weight_twice_str_le v.val).trans (by
    have hsize := TextRule.size_le rule v
    omega)

theorem cost_id_le {kind : IdKind} (id : OpaqueId kind) : cost id.val ≤ 910 := by
  have hliteral := OpaqueId.str_le id
  have hquoted := weight_quoted_le (str id.val)
  rw [cost, weight_twice]
  omega

theorem costNat_le {n : Nat} (h : n < 2 ^ 64) : costNat n ≤ 140 := by
  have hdigits : weight utf8 (nat n) ≤ 20 :=
    weight_utf8_nat_le (by decide) (Nat.lt_trans h (by decide))
  have hquoted := weight_quoted_le (nat n)
  rw [costNat, weight_twice]
  omega

theorem costNat_toNat_le (n : UInt32) : costNat n.toNat ≤ 140 :=
  costNat_le (Nat.lt_trans n.toNat_lt (by decide))

theorem getD_le {α : Type} (size : α → Nat) (bound : Nat) (hnone : 8 ≤ bound)
    (h : ∀ a, size a ≤ bound) (value : Option α) : (value.map size).getD 8 ≤ bound := by
  cases value with
  | none => exact hnone
  | some a => exact h a

theorem sum_map_le {α : Type} (size : α → Nat) (bound : Nat) (as : List α)
    (h : ∀ a ∈ as, size a ≤ bound) : (as.map size).sum ≤ as.length * bound := by
  induction as with
  | nil => exact Nat.zero_le _
  | cons a as ih =>
      have hfirst := h a (List.mem_cons_self ..)
      have hrest := ih fun b hb => h b (List.mem_cons_of_mem _ hb)
      rw [List.map_cons, List.sum_cons, List.length_cons, Nat.succ_mul]
      omega

theorem squadExtent_le (squad : SquadSummary) : squadExtent squad ≤ 60000 := by
  have hid := cost_id_le squad.id
  have hmission : cost squad.mission.val ≤ 6 + 13 * 4096 := cost_le_of_text Mission.rule _
  have hname : cost squad.name.val ≤ 6 + 13 * 64 := cost_le_of_text SquadName.rule _
  have hstate : cost squad.state.wire ≤ 30 := by cases squad.state <;> decide
  have harchived := getD_le (fun _ : ApiTimestamp => 54) 54 (by decide)
    (fun _ => Nat.le_refl _) squad.archivedAt
  unfold squadExtent
  omega

theorem sessionExtent_le (session : SessionResponse) : sessionExtent session ≤ 70000 := by
  have hinterval := costNat_toNat_le session.heartbeatIntervalSeconds
  have hlease := costNat_toNat_le session.leaseSeconds
  have hname : cost session.memberName.val ≤ 6 + 13 * 64 := cost_le_of_text MemberName.rule _
  have hrole : cost session.role.val ≤ 6 + 13 * 256 := cost_le_of_text Role.rule _
  have hsquad := squadExtent_le session.squad
  unfold sessionExtent
  omega

theorem rosterMemberExtent_le (member : RosterMemberDto) :
    rosterMemberExtent member ≤ 10000 := by
  have havailability : cost member.availability.wire ≤ 60 := by
    cases member.availability <;> decide
  have hsource : cost member.availabilitySource.wire ≤ 60 := by
    cases member.availabilitySource <;> decide
  have hid := cost_id_le member.membershipId
  have hstate : cost member.membershipState.wire ≤ 60 := by
    cases member.membershipState <;> decide
  have hname : cost member.name.val ≤ 6 + 13 * 64 := cost_le_of_text MemberName.rule _
  have hpresence : cost member.presence.wire ≤ 60 := by
    cases member.presence <;> decide
  have hrole : cost member.role.val ≤ 6 + 13 * 256 := cost_le_of_text Role.rule _
  have hseen := getD_le (fun _ : ApiTimestamp => 54) 54 (by decide)
    (fun _ => Nat.le_refl _) member.lastSeenAt
  have hmode := getD_le (fun mode => 106 + cost (AgentMode.wire mode)) 166
    (by decide) (fun mode => by cases mode <;> decide) member.mode
  unfold rosterMemberExtent
  omega

/-- One message, however its body is escaped, is under 870,000 bytes. -/
theorem messageExtent_le (message : MessageDto) (h : message.sequence < 2 ^ 63) :
    messageExtent message ≤ 870000 := by
  have hid := cost_id_le message.id
  have hpriority : cost message.priority.wire ≤ 60 := by cases message.priority <;> decide
  have hrecipient : cost message.recipient.val ≤ 6 + 13 * 64 := cost_le_of_text MemberName.rule _
  have hsender : cost message.sender.val ≤ 6 + 13 * 64 := cost_le_of_text MemberName.rule _
  have hsequence := costNat_le (Nat.lt_trans h (by decide : 2 ^ 63 < 2 ^ 64))
  have hsquad : cost message.squad.val ≤ 6 + 13 * 64 := cost_le_of_text SquadName.rule _
  have hbody : cost message.body.val ≤ 6 + 13 * 65536 := cost_le_of_text MessageBody.rule _
  have hacknowledged := getD_le (fun _ : ApiTimestamp => 54) 54 (by decide)
    (fun _ => Nat.le_refl _) message.acknowledgedAt
  have hcorrelation := getD_le (fun id : CorrelationId => 106 + cost id.val)
    3440 (by decide) (fun id => by
      have hcost : cost id.val ≤ 6 + 13 * 256 := cost_le_of_text CorrelationId.rule id
      omega) message.correlationId
  have hreply := getD_le (fun id : MessageId => 106 + cost id.val) 1016
    (by decide) (fun id => by
      have hcost := cost_id_le id
      omega) message.replyTo
  unfold messageExtent
  omega

theorem idsExtent_le {ids : List MessageId} (h : ids.length ≤ 100) :
    (ids.map fun id => cost id.val + 2).sum ≤ 91200 := by
  have hsum := sum_map_le (fun id : MessageId => cost id.val + 2) 912 ids
    fun id _ => by
      have hcost := cost_id_le id
      omega
  omega

end Tool

theorem ToolOutput.Short.extent_le {output : ToolOutput} (h : output.Short) :
    output.extent ≤ 983040 := by
  cases output with
  | joined session =>
      have hsession := sessionExtent_le session
      rw [ToolOutput.extent]
      omega
  | left response => exact (by decide : 106 ≤ 983040)
  | squads list =>
      have hsum := sum_map_le (fun squad => squadExtent squad + 2) 60002 list
        fun squad _ => Nat.add_le_add_right (squadExtent_le squad) 2
      have hone : list.length ≤ 1 := h
      rw [ToolOutput.extent]
      omega
  | described squad =>
      have hsquad := squadExtent_le squad
      rw [ToolOutput.extent]
      omega
  | roster response =>
      have hsum := sum_map_le (fun member => rosterMemberExtent member + 2)
        10002 response.members
        fun member _ => Nat.add_le_add_right (rosterMemberExtent_le member) 2
      have hname : cost response.squad.val ≤ 6 + 13 * 64 := cost_le_of_text SquadName.rule _
      have hone : response.members.length ≤ 1 := h
      rw [ToolOutput.extent]
      omega
  | sent response =>
      have hmessage := messageExtent_le response.message h
      have hreplay : (if response.idempotentReplay then 8 else 10) ≤ 10 := by split <;> omega
      rw [ToolOutput.extent]
      omega
  | received ids inbox =>
      obtain ⟨hids, hone, hcount, hsequence⟩ := h
      have hidsum := idsExtent_le hids
      have hsum := sum_map_le (fun message => messageExtent message + 2)
        870002 inbox.messages
        fun message hm => Nat.add_le_add_right (messageExtent_le message (hsequence message hm)) 2
      have hpending := costNat_le hcount
      rw [ToolOutput.extent]
      omega
  | acknowledged response =>
      have hidsum := idsExtent_le (show response.acknowledgedIds.length ≤ 100 from h)
      rw [ToolOutput.extent]
      omega
  | status report =>
      have hsize : report.profile.utf8ByteSize ≤ 64 := h
      have hprofile := weight_twice_str_le report.profile
      have havailability : cost report.availability.wire ≤ 60 := by
        cases report.availability <;> decide
      have hconnected : (if report.connected then 8 else 10) ≤ 10 := by split <;> omega
      have hdegraded : (if report.degraded then 8 else 10) ≤ 10 := by split <;> omega
      have hinterval := getD_le (fun n : UInt32 => costNat n.toNat) 140
        (by decide) costNat_toNat_le report.heartbeatIntervalSeconds
      have hlease := getD_le (fun _ : ApiTimestamp => 54) 54 (by decide)
        (fun _ => Nat.le_refl _) report.leaseExpiresAt
      have hcost : cost report.profile = weight twice (str report.profile) := rfl
      rw [ToolOutput.extent]
      omega

/-! ## Runs of results -/

/-- A result and what is written around it. -/
structure ToolLine where
  envelope : Envelope
  output : ToolOutput

def ToolLine.octets (l : ToolLine) : List UInt8 := l.envelope.line l.output

/-- **Which results the output pump lets through.** A line is at most as long as the pump takes
exactly if the envelope and the value, whose bytes are a sum over the response it was built from,
leave room for each other; whatever chunks a run of results arrives in, the pump gives the session
up exactly if one of them does not; and a result that lists at most one row fits in every envelope
of up to 65,536 bytes. -/
theorem tool_results_fit_iff (line : ToolLine) :
    (line.octets.length ≤ maxOutboundLineBytes
      ↔ line.envelope.size + line.output.extent ≤ maxOutboundLineBytes)
    ∧ (∀ (lines : List ToolLine) (chunks : List (List UInt8)),
      chunks.flatten = (lines.map ToolLine.octets).flatten →
        ((pumpLines maxOutboundLineBytes chunks).failed = none
          ↔ ∀ l ∈ lines, l.envelope.size + l.output.extent ≤ maxOutboundLineBytes))
    ∧ (line.output.Short → line.envelope.size ≤ 65536 →
        line.octets.length ≤ maxOutboundLineBytes) := by
  have hlength : ∀ l : ToolLine, l.octets.length = l.envelope.size + l.output.extent := by
    intro l
    rw [ToolLine.octets, Envelope.length_line, ToolOutput.size]
  refine ⟨by rw [hlength], ?_, ?_⟩
  · intro lines chunks hchunks
    have hlines : ∀ line ∈ lines.map ToolLine.octets, IsLine line := by
      intro line hline
      obtain ⟨l, -, rfl⟩ := List.mem_map.mp hline
      exact l.envelope.isLine l.output
    rw [pumpLines_eq_none hlines hchunks, List.forall_mem_map]
    constructor
    · intro h l hl
      rw [← hlength]
      exact h l hl
    · intro h l hl
      rw [hlength]
      exact h l hl
  · intro hshort henvelope
    have hextent := hshort.extent_le
    have hlimit : maxOutboundLineBytes = 1048576 := rfl
    rw [hlength]
    omega

namespace Sample

/-- The envelope of a successful response to the request 1. -/
def plainEnvelope : Envelope where
  before := "\x7b\"jsonrpc\":\"2.0\",\"id\":1,\"result\":\x7b\"content\":[\x7b\"type\":\"text\",\"text\":".toList
  between := "\x7d],\"structuredContent\":".toList
  after := ",\"isError\":false\x7d\x7d".toList
  oneLine := by decide

theorem controlBody_valid {n : Nat} (h : n < 65536) :
    MessageBody.rule.check (String.ofList (List.replicate (n + 1) '\x01')) = .ok () := by
  have hsize : (String.ofList (List.replicate (n + 1) '\x01')).utf8ByteSize = n + 1 := by
    rw [utf8ByteSize_ofList, weight_replicate]
    exact Nat.mul_one _
  unfold TextRule.check
  rw [String.toList_ofList, hsize, if_neg (by simp), if_neg (by show ¬ 65536 < n + 1; omega),
    if_neg (by show ¬ (!true) = true; decide)]

/-- A body of control characters. -/
def controlBody (n : Nat) (h : n < 65536) : MessageBody where
  val := String.ofList (List.replicate (n + 1) '\x01')
  valid := controlBody_valid h

theorem controlBody_cost (n : Nat) (h : n < 65536) :
    Tool.cost (controlBody n h).val = 6 + (n + 1) * 13 := by
  have hescaped : weight twice (escapeChar '\x01') = 13 := by decide
  have hquote : twice '"' = 3 := by decide
  unfold controlBody
  rw [Tool.cost, str, weight_quote, String.toList_ofList, weight_replicate, hescaped, hquote]

/-- Alice's `n`-th message to Bob. -/
def hostile (body : MessageBody) (n : Nat) (id : MessageId) : MessageDto where
  sequence := n
  id := id
  squad := alpha
  sender := aliceName
  recipient := bobName
  body := body
  priority := .normal
  replyTo := none
  correlationId := none
  createdAt := ⟨instant 200, by decide⟩
  acknowledgedAt := none

/-- Two messages are waiting for Bob. -/
def hostilePage (body : MessageBody) : InboxResponse where
  messages := [hostile body 1 ⟨"msg_a", by decide⟩, hostile body 2 ⟨"msg_b", by decide⟩]
  pendingCount := 2
  highestPriority := some .normal
  oldestMessageId := some ⟨"msg_a", by decide⟩

/-- The client takes the page, whatever the messages say. -/
theorem hostilePage_accepted (body : MessageBody) :
    (hostilePage body).validate = true
      ∧ weight utf8 (hostilePage body).json ≤ maxResponseBytes := by
  refine ⟨rfl, ?_⟩
  have hpage := (hostilePage body).json_le (by decide : 2 ≤ 2 ^ 63)
  have hsize : body.val.utf8ByteSize ≤ 65536 := TextRule.size_le MessageBody.rule body
  have hmessage : ∀ (n : Nat) (id : MessageId), n < 2 ^ 63 → id.val.utf8ByteSize ≤ 128 →
      weight utf8 (hostile body n id).json ≤ 500000 := by
    intro n id hn hid
    have hjson := (hostile body n id).json_le hn
    have htext : (hostile body n id).textBytes
        = id.val.utf8ByteSize + body.val.utf8ByteSize + 0 + 0 := rfl
    have hack : (if (hostile body n id).acknowledgedAt.isSome then 45 else 0) = 0 := rfl
    omega
  have hfirst := hmessage 1 ⟨"msg_a", by decide⟩ (by decide) (by decide)
  have hsecond := hmessage 2 ⟨"msg_b", by decide⟩ (by decide) (by decide)
  have hmessages : fieldBytes ((hostilePage body).messages.map MessageDto.json)
      = weight utf8 (hostile body 1 ⟨"msg_a", by decide⟩).json + 1
        + (weight utf8 (hostile body 2 ⟨"msg_b", by decide⟩).json + 1 + 0) := by
    rw [hostilePage, List.map_cons, List.map_cons, List.map_nil, fieldBytes_cons, fieldBytes_cons,
      fieldBytes_nil]
  have hlimit : maxResponseBytes = 1048576 := rfl
  omega

/-- The body is in the result twice, and escaped twice the second time. -/
theorem hostilePage_extent (body : MessageBody) :
    2 * Tool.cost body.val ≤ (ToolOutput.received [] (hostilePage body)).extent := by
  have hmessage : ∀ n id, Tool.cost body.val ≤ Tool.messageExtent (hostile body n id) := by
    intro n id
    have hbody : (hostile body n id).body = body := rfl
    unfold Tool.messageExtent
    rw [hbody]
    omega
  have hfirst := hmessage 1 ⟨"msg_a", by decide⟩
  have hsecond := hmessage 2 ⟨"msg_b", by decide⟩
  rw [ToolOutput.extent, hostilePage]
  simp only [List.map_cons, List.map_nil, List.sum_cons, List.sum_nil]
  omega

end Sample

namespace Sample

/-- The longest body there is, escaped the worst. -/
def worstBody : MessageBody := controlBody 65535 (by decide)

theorem worstBody_cost : Tool.cost worstBody.val = 851974 := controlBody_cost 65535 (by decide)

/-- One such message on a page of its own. -/
def loneLine : ToolLine where
  envelope := plainEnvelope
  output := .received []
    { hostilePage worstBody with messages := [hostile worstBody 1 ⟨"msg_a", by decide⟩] }

/-- The two of them on a page. -/
def hostileLine : ToolLine := ⟨plainEnvelope, .received [] (hostilePage worstBody)⟩

theorem plainEnvelope_size : plainEnvelope.size ≤ 65536 := by decide

end Sample

open Sample in
/-- A message alone gets through, however it is escaped. -/
theorem tool_results_fit_iff_lone :
    loneLine.octets.length ≤ maxOutboundLineBytes
      ∧ (pumpLines maxOutboundLineBytes [loneLine.octets]).failed = none := by
  have hshort : loneLine.output.Short := by
    refine ⟨Nat.zero_le _, Nat.le_refl _, by decide, ?_⟩
    intro message hm
    rw [List.mem_singleton.mp hm]
    exact (by decide : 1 < 2 ^ 63)
  have hsize : loneLine.envelope.size ≤ 65536 := plainEnvelope_size
  have hfits := (tool_results_fit_iff loneLine).2.2 hshort hsize
  refine ⟨hfits, ((tool_results_fit_iff loneLine).2.1 [loneLine] [loneLine.octets] rfl).mpr ?_⟩
  intro l hl
  rw [List.mem_singleton.mp hl]
  exact (tool_results_fit_iff loneLine).1.mp hfits

open Sample in
/-- The client takes a page of two such messages, and the pump ends the session with it. -/
theorem not_tool_results_fit :
    (hostilePage worstBody).validate = true
      ∧ weight utf8 (hostilePage worstBody).json ≤ maxResponseBytes
      ∧ maxOutboundLineBytes < hostileLine.octets.length
      ∧ (pumpLines maxOutboundLineBytes [hostileLine.octets]).failed ≠ none := by
  obtain ⟨hvalid, hjson⟩ := hostilePage_accepted worstBody
  have hextent := hostilePage_extent worstBody
  rw [worstBody_cost] at hextent
  have hlimit : maxOutboundLineBytes = 1048576 := rfl
  have hlong : maxOutboundLineBytes < hostileLine.octets.length := by
    have houtput : hostileLine.output = .received [] (hostilePage worstBody) := rfl
    rw [ToolLine.octets, Envelope.length_line, ToolOutput.size, houtput]
    omega
  refine ⟨hvalid, hjson, hlong, ?_⟩
  have hline : ∀ line ∈ [hostileLine.octets], IsLine line := by
    intro line hl
    rw [List.mem_singleton.mp hl]
    exact hostileLine.envelope.isLine hostileLine.output
  intro hnone
  have hfits := (pumpLines_eq_none hline rfl).mp hnone hostileLine.octets (List.mem_singleton_self _)
  omega

end Psst
