import Psst.Relay.Chronology
import Psst.Relay.Inbox

/-!
# Which answers fit the client

The client gives up on a body of more than 1 MiB. Of the lists the relay answers with only the
inbox page is bounded in bytes; the squad list, the roster and the transcript page are as long as
what they show. Their exact sizes are read off the stored rows here, and every other answer is
bounded by the limits of the values in it.
-/

namespace Psst

open Json Table

/-- `MAX_RESPONSE_BYTES` -/
def maxResponseBytes : Nat := 1024 * 1024

/-! ## Exact sizes -/

/-- The bytes of a string literal. -/
def literal (s : String) : Nat := weight utf8 (str s)

/-- An object costs its fields, each with its comma, and one byte more. -/
theorem weight_obj_cons (t : Text) (ts : List Text) :
    weight utf8 (obj (t :: ts)) = 1 + fieldBytes (t :: ts) := by
  have hcommas := weight_commaSeparated (w := utf8) t ts
  have hmarks : utf8 '{' = 1 ∧ utf8 '}' = 1 ∧ utf8 ',' = 1 := by decide
  rw [hmarks.2.2] at hcommas
  rw [weight_obj, hmarks.1, hmarks.2.1, fieldBytes]
  omega

theorem weight_arr_eq (ts : List Text) :
    weight utf8 (arr ts) = 1 + max 1 (fieldBytes ts) := by
  have hmarks : utf8 '[' = 1 ∧ utf8 ']' = 1 ∧ utf8 ',' = 1 := by decide
  rw [weight_arr, hmarks.1, hmarks.2.1]
  cases ts with
  | nil => rfl
  | cons t ts =>
      have hcommas := weight_commaSeparated (w := utf8) t ts
      rw [hmarks.2.2] at hcommas
      have hpos : 1 ≤ fieldBytes (t :: ts) := by
        rw [fieldBytes_cons]
        omega
      rw [Nat.max_eq_right hpos, fieldBytes]
      omega

/-- An optional field whose values all have one size. -/
theorem fieldBytes_optional {α : Type} (name : String) {encode : α → Text} (size : α → Nat)
    (h : ∀ v, weight utf8 (encode v) = size v) (value : Option α) :
    fieldBytes (Json.optional name encode value)
      = (value.map fun v => literal name + 2 + size v).getD 0 := by
  cases value with
  | none => rfl
  | some v =>
      simp only [Json.optional, Option.map_some, Option.toList_some, fieldBytes_cons,
        fieldBytes_nil, weight_utf8_field, Option.getD_some, h, literal]
      omega

/-! ### Squads -/

/-- The bytes of a squad in a list, with its comma. -/
def SquadRecord.extent (q : SquadRecord) : Nat :=
  76 + literal q.id.val + literal q.name.val + literal q.mission.val + literal q.state.wire
    + (if q.archivedAt.isSome then 41 else 0)

theorem squadDto_size {q : SquadRecord} {dto : SquadSummary} (h : squadDto q = .ok dto) :
    weight utf8 dto.json + 1 = q.extent := by
  obtain ⟨createdAt, -, h⟩ := Except.bind_eq_ok.mp h
  obtain ⟨archivedAt, harchived, h⟩ := Except.bind_eq_ok.mp h
  cases h
  have hsome : archivedAt.isSome = q.archivedAt.isSome := by
    rw [← mapM_timestamp_value harchived, Option.isSome_map]
  have hnames : weight utf8 (str "id") = 4 ∧ weight utf8 (str "name") = 6
      ∧ weight utf8 (str "mission") = 9 ∧ weight utf8 (str "state") = 7
      ∧ weight utf8 (str "created_at") = 12 ∧ literal "archived_at" = 13 := by decide
  obtain ⟨h1, h2, h3, h4, h5, h6⟩ := hnames
  have hoptional := fieldBytes_optional "archived_at" (fun _ => 26) ApiTimestamp.json_size archivedAt
  have hpresent : (archivedAt.map fun _ => literal "archived_at" + 2 + 26).getD 0
      = if archivedAt.isSome then 41 else 0 := by
    cases archivedAt with
    | none => rfl
    | some t => rw [h6]; rfl
  unfold SquadSummary.json SquadRecord.extent
  rw [List.cons_append, weight_obj_cons, ← hsome, ← hpresent, ← hoptional]
  simp only [fieldBytes_cons, List.cons_append, List.nil_append, weight_utf8_field, h1, h2, h3, h4,
    h5, ApiTimestamp.json_size, literal]
  omega

/-! ### Messages -/

/-- The bytes of a message in a list, with its comma. -/
def MessageView.extent (v : MessageView) : Nat :=
  112 + weight utf8 (nat v.message.sequence) + literal v.message.id.val + literal v.squad.val
    + literal v.sender.val + literal v.recipient.val + literal v.message.semantics.body.val
    + literal v.message.semantics.priority.wire
    + (v.message.semantics.replyTo.map fun id => 12 + literal id.val).getD 0
    + (v.message.semantics.correlationId.map fun id => 18 + literal id.val).getD 0
    + (if v.acknowledgedAt.isSome then 45 else 0)

theorem messageDto_size {view : MessageView} {dto : MessageDto} (h : messageDto view = .ok dto) :
    weight utf8 dto.json + 1 = view.extent := by
  obtain ⟨createdAt, acknowledgedAt, -, hacknowledged, rfl⟩ := messageDto_eq_ok h
  have hsome : acknowledgedAt.isSome = view.acknowledgedAt.isSome := by
    rw [← mapM_timestamp_value hacknowledged, Option.isSome_map]
  have hnames : weight utf8 (str "sequence") = 10 ∧ weight utf8 (str "id") = 4
      ∧ weight utf8 (str "squad") = 7 ∧ weight utf8 (str "sender") = 8
      ∧ weight utf8 (str "recipient") = 11 ∧ weight utf8 (str "body") = 6
      ∧ weight utf8 (str "priority") = 10 ∧ literal "reply_to" = 10
      ∧ literal "correlation_id" = 16 ∧ weight utf8 (str "created_at") = 12
      ∧ literal "acknowledged_at" = 17 := by
    decide
  obtain ⟨h1, h2, h3, h4, h5, h6, h7, h8, h9, h10, h11⟩ := hnames
  have hreply := fieldBytes_optional "reply_to" (fun id : MessageId => literal id.val)
    (fun _ => rfl) view.message.semantics.replyTo
  have hcorrelation := fieldBytes_optional "correlation_id"
    (fun id : CorrelationId => literal id.val) (fun _ => rfl)
    view.message.semantics.correlationId
  have hack := fieldBytes_optional "acknowledged_at" (fun _ => 26) ApiTimestamp.json_size
    acknowledgedAt
  have hpresent : (acknowledgedAt.map fun _ => literal "acknowledged_at" + 2 + 26).getD 0
      = if acknowledgedAt.isSome then 45 else 0 := by
    cases acknowledgedAt with
    | none => rfl
    | some t => rw [h11]; rfl
  rw [h8] at hreply
  rw [h9] at hcorrelation
  unfold MessageDto.json MessageView.extent
  rw [List.cons_append, List.cons_append, List.cons_append, List.cons_append, weight_obj_cons,
    ← hsome, ← hpresent, ← hack, ← hreply, ← hcorrelation]
  simp only [fieldBytes_cons, fieldBytes_append, fieldBytes_nil, List.cons_append, List.nil_append,
    weight_utf8_field, h1, h2, h3, h4, h5, h6, h7, h10, ApiTimestamp.json_size, literal]
  omega

/-! ### Members -/

/-- The bytes of a member on a roster read at `now`, with its comma. An availability is shown
while the newest instance is online. -/
def Tables.memberExtent (t : Tables) (now : UnixMillis) (m : MembershipRow) : Nat :=
  let newest := t.newestInstance m.id
  let shown := newest.filter fun i => m.joined && i.unclosed && decide (now < i.leaseExpiresAt)
  160 + literal m.id.val + literal m.name.val + literal m.role.val
    + literal (if m.joined then MembershipStateDto.joined else .left).wire
    + literal (if shown.isSome then TransportPresence.online else .offline).wire
    + literal ((shown.map InstanceRow.availability).getD .unknown).wire
    + literal ((shown.map InstanceRow.availabilitySource).getD .unknown).wire
    + (newest.map fun i => 50 + literal i.mode.wire).getD 0

/-- The bytes of a roster line, with its comma. -/
def RosterMember.extent (line : RosterMember) : Nat :=
  160 + literal line.membership.id.val + literal line.membership.name.val
    + literal line.membership.role.val
    + literal (if line.membership.leftAt.isSome then MembershipStateDto.left else .joined).wire
    + literal line.presence.wire + literal line.availability.availability.wire
    + literal line.availability.source.wire
    + (line.mode.map fun mode => 8 + literal mode.wire).getD 0
    + (if line.lastSeenAt.isSome then 42 else 0)

theorem rosterMemberDto_size {line : RosterMember} {dto : RosterMemberDto}
    (h : rosterMemberDto line = .ok dto) : weight utf8 dto.json + 1 = line.extent := by
  obtain ⟨observedAt, -, h⟩ := Except.bind_eq_ok.mp h
  obtain ⟨lastSeenAt, hseen, h⟩ := Except.bind_eq_ok.mp h
  cases h
  have hsome : lastSeenAt.isSome = line.lastSeenAt.isSome := by
    rw [← mapM_timestamp_value hseen, Option.isSome_map]
  have hnames : weight utf8 (str "membership_id") = 15 ∧ weight utf8 (str "name") = 6
      ∧ weight utf8 (str "role") = 6 ∧ weight utf8 (str "membership_state") = 18
      ∧ weight utf8 (str "presence") = 10 ∧ weight utf8 (str "availability") = 14
      ∧ weight utf8 (str "availability_source") = 21
      ∧ weight utf8 (str "availability_observed_at") = 26 ∧ literal "mode" = 6
      ∧ literal "last_seen_at" = 14 := by
    decide
  obtain ⟨h1, h2, h3, h4, h5, h6, h7, h8, h9, h10⟩ := hnames
  have hmode := fieldBytes_optional "mode" (fun mode => literal (AgentMode.wire mode))
    (fun _ => rfl) line.mode
  have hlast := fieldBytes_optional "last_seen_at" (fun _ => 26) ApiTimestamp.json_size lastSeenAt
  have hpresent : (lastSeenAt.map fun _ => literal "last_seen_at" + 2 + 26).getD 0
      = if lastSeenAt.isSome then 42 else 0 := by
    cases lastSeenAt with
    | none => rfl
    | some t => rw [h10]; rfl
  rw [h9] at hmode
  unfold RosterMemberDto.json RosterMember.extent
  rw [List.cons_append, List.cons_append, weight_obj_cons, ← hsome, ← hpresent, ← hlast, ← hmode]
  simp only [fieldBytes_cons, fieldBytes_append, List.cons_append, List.nil_append,
    weight_utf8_field, h1, h2, h3, h4, h5, h6, h7, h8, ApiTimestamp.json_size, literal]
  omega

/-- What a roster read at `now` costs for a member is read off its rows. -/
theorem rosterMember_extent {t : Tables} {now : UnixMillis} {m : MembershipRow}
    {line : RosterMember} (h : rosterMember t now m = .ok line) :
    line.extent = t.memberExtent now m := by
  have hstate : (if m.toMembershipRecord.leftAt.isSome then MembershipStateDto.left else .joined)
      = if m.joined then MembershipStateDto.joined else .left := by
    cases hleft : m.leftAt <;> simp [MembershipRow.joined, hleft]
  simp only [rosterMember] at h
  unfold Tables.memberExtent RosterMember.extent
  cases hnewest : t.newestInstance m.id with
  | none =>
      rw [hnewest] at h
      cases h
      simp only [hstate]
      rfl
  | some i =>
      rw [hnewest] at h
      by_cases honline : (m.joined && i.unclosed && decide (now < i.leaseExpiresAt)) = true
      · simp only [honline, if_true, AvailabilityObservation.new] at h
        split at h
        · rename_i observation hobservation
          split at hobservation
          · cases hobservation
            cases h
            simp only [hstate, Option.filter_some, honline, if_true, Option.map_some,
              Option.getD_some, Option.isSome_some]
            omega
          · cases hobservation
        · cases h
      · simp only [honline] at h
        cases h
        simp only [hstate, Option.filter_some, honline, Option.map_some, Option.getD_some,
          Option.isSome_some, if_true, Bool.false_eq_true, if_false, Option.map_none,
          Option.getD_none, Option.isSome_none, AvailabilityObservation.unknownAt]
        omega

/-! ## Lists -/

/-- Elements that cost what their origins do. -/
theorem fieldBytes_eq_sum {α β : Type} {P : α → β → Prop} (encode : β → Text) (size : α → Nat)
    (hsize : ∀ a b, P a b → weight utf8 (encode b) + 1 = size a) {as : List α} {bs : List β}
    (h : List.Forall₂ P as bs) : fieldBytes (bs.map encode) = (as.map size).sum := by
  induction h with
  | nil => rfl
  | cons hfirst _ ih =>
      rw [List.map_cons, fieldBytes_cons, List.map_cons, List.sum_cons, ih, hsize _ _ hfirst]

/-- The order of a list does not change its size. -/
theorem sum_map_insertionSort {α : Type} (r : α → α → Prop) [DecidableRel r] (size : α → Nat)
    (as : List α) : ((as.insertionSort r).map size).sum = (as.map size).sum :=
  ((List.perm_insertionSort r as).map size).sum_eq

/-- The bytes of a stored message in a list. -/
def Store.messageExtent (s : Store) (row : MessageRow) : Nat :=
  ((s.messageView row.record).map MessageView.extent).getD 0

/-- The bytes of a transcript page over these rows. -/
def Store.transcriptExtent (s : Store) (rows : List MessageRow) : Nat :=
  14 + max 1 (rows.map s.messageExtent).sum
    + (rows.getLast?.map fun row => 14 + weight utf8 (nat row.sequence)).getD 0

/-- The bytes of the roster of a squad, read at `now`. -/
def Store.rosterExtent (s : Store) (q : SquadRecord) (now : UnixMillis) : Nat :=
  22 + literal q.name.val
    + max 1 ((s.memberships.filter fun m => decide (m.squadId = q.id)).map
        (s.memberExtent now)).sum

/-- The bytes of the squad list. -/
def Store.squadsExtent (s : Store) : Nat := 1 + max 1 (s.squads.map SquadRecord.extent).sum

section Lists

variable {s : Store}

theorem squads_size {dtos : List SquadSummary}
    (h : (s.squads.insertionSort fun a b => a.name.val ≤ b.name.val).mapM squadDto = .ok dtos) :
    weight utf8 (ResponseBody.squads dtos).json = s.squadsExtent := by
  have hsum := fieldBytes_eq_sum SquadSummary.json SquadRecord.extent
    (fun _ _ hdto => squadDto_size hdto) (Traverse.mapM_eq_ok.mp h)
  rw [ResponseBody.json, weight_arr_eq, hsum, sum_map_insertionSort, Store.squadsExtent]

variable [Sha256]

theorem roster_size {session : AuthenticatedSession} {name : SquadName}
    {members : List RosterMember} {t : Store}
    (hrun : (authenticatedRoster session name).run s = .ok (members, t)) {r : RosterResponse}
    (hr : rosterHandler name members = .ok r) :
    ∃ q ∈ s.squads, q.name = name ∧ weight utf8 r.json = s.rosterExtent q session.now := by
  simp only [authenticatedRoster, squadByIdTx, roster, describeSquad, Tx.bind_eq_ok,
    authenticateHistorical_eq_ok, Tx.query_eq_ok, Tx.expect_eq_ok, Tx.require_eq_ok,
    Tx.ofExcept_eq_ok] at hrun
  obtain ⟨_, _, ⟨_, _, -, -, rfl⟩, _, _, ⟨_, _, ⟨-, rfl⟩, -, rfl⟩, _, _, ⟨-, rfl⟩, q, _,
    ⟨_, _, ⟨rfl, rfl⟩, hq, rfl⟩, lines, _, ⟨rfl, rfl⟩, hlines, -⟩ := hrun
  obtain ⟨hmem, hname⟩ := s.squadByName_eq_some.mp hq
  obtain ⟨dtos, hdtos, hr⟩ := Except.bind_eq_ok.mp hr
  cases hr
  refine ⟨q, hmem, hname, ?_⟩
  have hsum := fieldBytes_eq_sum RosterMemberDto.json (s.memberExtent session.now) (fun m dto hline => by
      obtain ⟨line, hline, hdto⟩ := hline
      rw [rosterMemberDto_size hdto, rosterMember_extent hline])
    (Traverse.comp (Traverse.mapM_eq_ok.mp hlines) (Traverse.mapM_eq_ok.mp hdtos))
  have hnames : weight utf8 (str "squad") = 7 ∧ weight utf8 (str "members") = 9 := by decide
  unfold RosterResponse.json Store.rosterExtent
  rw [weight_obj_cons]
  simp only [fieldBytes_cons, fieldBytes_nil, weight_utf8_field, hnames.1, hnames.2, weight_arr_eq,
    hsum, sum_map_insertionSort, hname, literal]
  omega

theorem transcript_size {session : AuthenticatedSession} {query : TranscriptByName}
    {views : List MessageView} {t : Store}
    (hrun : (authenticatedTranscriptViews session query).run s = .ok (views, t))
    {r : TranscriptResponse} (hr : transcriptHandler views = .ok r) :
    ∃ q ∈ s.squads, q.name = query.squad ∧ weight utf8 r.json
      = s.transcriptExtent (s.transcriptRows q.id query.after query.limit) := by
  obtain ⟨-, ⟨i, m, q, -, hq, -, hname, hviews⟩, -⟩ := authenticatedTranscriptViews_eq_ok hrun
  obtain ⟨hdtos, hnext⟩ := transcriptHandler_eq_ok hr
  refine ⟨q, hq, hname, ?_⟩
  have hpairs := Traverse.comp hviews hdtos
  have hsum := fieldBytes_eq_sum MessageDto.json s.messageExtent
    (fun row dto hshown => by
      obtain ⟨view, hview, hdto⟩ := hshown
      rw [messageDto_size hdto, Store.messageExtent, (Store.messageView_eq_some hview.mem).mpr hview]
      rfl) hpairs
  have hsequences : r.messages.map MessageDto.sequence
      = (s.transcriptRows q.id query.after query.limit).map MessageRow.sequence := by
    refine Traverse.map_eq_map (fun row dto hshown => ?_) hpairs
    obtain ⟨view, hview, hdto⟩ := hshown
    obtain ⟨_, _, -, -, rfl⟩ := messageDto_eq_ok hdto
    exact congrArg MessageRecord.sequence hview.message
  have hlast : r.nextAfter
      = (s.transcriptRows q.id query.after query.limit).getLast?.map MessageRow.sequence := by
    rw [hnext, ← List.getLast?_map, hsequences, List.getLast?_map]
  have hnames : weight utf8 (str "messages") = 10 ∧ literal "next_after" = 12 := by decide
  have hoptional := fieldBytes_optional "next_after" (fun n => weight utf8 (nat n)) (fun _ => rfl)
    r.nextAfter
  unfold TranscriptResponse.json Store.transcriptExtent
  rw [List.singleton_append, weight_obj_cons, fieldBytes_cons, hoptional, hlast, Option.map_map,
    hnames.2, weight_utf8_field, hnames.1, weight_arr_eq, hsum]
  simp only [Function.comp_def, Nat.reduceAdd]
  omega

end Lists

/-! ## Bounded answers -/

theorem literal_le_of_text (rule : TextRule) (v : Validated rule.check) :
    literal v.val ≤ 2 + 6 * rule.max := by
  have hsize := TextRule.size_le rule v
  have hliteral := weight_utf8_str_le v.val
  unfold literal
  omega

theorem squadDto_le {q : SquadRecord} {dto : SquadSummary} (h : squadDto q = .ok dto) :
    weight utf8 dto.json ≤ 25000 := by
  have hsize := squadDto_size h
  have hid : literal q.id.val ≤ 130 := OpaqueId.str_le q.id
  have hname : literal q.name.val ≤ 66 := q.name.str_le
  have hmission : literal q.mission.val ≤ 2 + 6 * 4096 := literal_le_of_text Mission.rule q.mission
  have hstate : literal q.state.wire ≤ 10 := by cases q.state <;> decide
  unfold SquadRecord.extent at hsize
  split at hsize <;> omega

theorem UInt32.digits_le (n : UInt32) : weight utf8 (nat n.toNat) ≤ 10 :=
  weight_utf8_nat_le (by decide) (Nat.lt_trans n.toNat_lt (by decide))

theorem sessionResponse_le {membership : MembershipRecord} {q : SquadRecord}
    {record : InstanceRecord} {body : SessionResponse}
    (h : sessionResponse membership q record = .ok body) : weight utf8 body.json ≤ 30000 := by
  obtain ⟨summary, hsummary, h⟩ := Except.bind_eq_ok.mp h
  obtain ⟨heartbeat, -, h⟩ := Except.bind_eq_ok.mp h
  obtain ⟨lease, -, h⟩ := Except.bind_eq_ok.mp h
  obtain ⟨leaseExpiresAt, -, h⟩ := Except.bind_eq_ok.mp h
  cases h
  have hsquad := squadDto_le hsummary
  have hagent := OpaqueId.str_le membership.agentId
  have hmember := OpaqueId.str_le membership.id
  have hinstance := OpaqueId.str_le record.id
  have hname := membership.name.str_le
  have hrole : literal membership.role.val ≤ 2 + 6 * 256 := literal_le_of_text Role.rule _
  have hheartbeat := UInt32.digits_le heartbeat
  have hlease := UInt32.digits_le lease
  have hnames : weight utf8 (str "agent_id") = 10 ∧ weight utf8 (str "membership_id") = 15
      ∧ weight utf8 (str "instance_id") = 13 ∧ weight utf8 (str "squad") = 7
      ∧ weight utf8 (str "member_name") = 13 ∧ weight utf8 (str "role") = 6
      ∧ weight utf8 (str "heartbeat_interval_seconds") = 28
      ∧ weight utf8 (str "lease_seconds") = 15 ∧ weight utf8 (str "lease_expires_at") = 18 := by
    decide
  obtain ⟨h1, h2, h3, h4, h5, h6, h7, h8, h9⟩ := hnames
  unfold literal at hrole
  refine (weight_obj_le _).trans ?_
  simp only [fieldBytes_cons, fieldBytes_nil, weight_utf8_field, h1, h2, h3, h4, h5, h6, h7, h8, h9,
    ApiTimestamp.json_size]
  omega

theorem LeaveSquadResponse.json_le (r : LeaveSquadResponse) : weight utf8 r.json ≤ 300 := by
  have hid := OpaqueId.str_le r.membershipId
  have hnames : weight utf8 (str "membership_id") = 15 ∧ weight utf8 (str "left_at") = 9 := by
    decide
  refine (weight_obj_le _).trans ?_
  simp only [fieldBytes_cons, fieldBytes_nil, weight_utf8_field, hnames.1, hnames.2,
    ApiTimestamp.json_size]
  omega

theorem HeartbeatResponse.json_le (r : HeartbeatResponse) : weight utf8 r.json ≤ 300 := by
  have hinterval := UInt32.digits_le r.heartbeatIntervalSeconds
  have hnames : weight utf8 (str "lease_expires_at") = 18
      ∧ weight utf8 (str "heartbeat_interval_seconds") = 28 := by
    decide
  refine (weight_obj_le _).trans ?_
  simp only [fieldBytes_cons, fieldBytes_nil, weight_utf8_field, hnames.1, hnames.2,
    ApiTimestamp.json_size]
  omega

/-- An acknowledgement repeats at most a hundred identifiers. -/
theorem AckMessagesResponse.json_le (r : AckMessagesResponse)
    (hlength : r.acknowledgedIds.length ≤ 100) : weight utf8 r.json ≤ 14000 := by
  have hids : ∀ ids : List MessageId,
      fieldBytes (ids.map fun id => str id.val) ≤ 131 * ids.length := by
    intro ids
    induction ids with
    | nil => exact Nat.le_refl _
    | cons id ids ih =>
        have hid := OpaqueId.str_le id
        rw [List.map_cons, fieldBytes_cons, List.length_cons]
        omega
  have harr := weight_arr_le (r.acknowledgedIds.map fun id => str id.val)
  have hall := hids r.acknowledgedIds
  have hname : weight utf8 (str "acknowledged_ids") = 18 := by decide
  refine (weight_obj_le _).trans ?_
  simp only [fieldBytes_cons, fieldBytes_nil, weight_utf8_field, hname]
  omega

/-- One message, however its body is escaped, is under 400 KB. -/
theorem SendMessageResponse.json_le (r : SendMessageResponse) (hsequence : r.message.sequence < 2 ^ 63) :
    weight utf8 r.json ≤ 400000 := by
  have hmessage := r.message.json_le hsequence
  have hid := r.message.id.size_le
  have hbody : r.message.body.val.utf8ByteSize ≤ 65536 :=
    TextRule.size_le MessageBody.rule r.message.body
  have hreply : (r.message.replyTo.map fun v => v.val.utf8ByteSize).getD 0 ≤ 128 := by
    cases r.message.replyTo with
    | none => exact Nat.zero_le _
    | some id => exact id.size_le
  have hcorrelation : (r.message.correlationId.map fun v => v.val.utf8ByteSize).getD 0 ≤ 256 := by
    cases r.message.correlationId with
    | none => exact Nat.zero_le _
    | some id => exact TextRule.size_le CorrelationId.rule id
  have hack : (if r.message.acknowledgedAt.isSome then 45 else 0) ≤ 45 := by split <;> omega
  have hreplay : weight utf8 (bool r.idempotentReplay) ≤ 5 := by
    cases r.idempotentReplay <;> decide
  have hnames : weight utf8 (str "message") = 9 ∧ weight utf8 (str "idempotent_replay") = 19 := by
    decide
  unfold MessageDto.textBytes at hmessage
  refine (weight_obj_le _).trans ?_
  simp only [fieldBytes_cons, fieldBytes_nil, weight_utf8_field, hnames.1, hnames.2]
  omega

/-! ## Every answer -/

section Answers

variable [Sha256] {s : Store}

/-- What a command lists is no longer than the client takes. -/
def Store.Fits (s : Store) (task : Task) : Prop :=
  match task.command with
  | .listSquads => s.squadsExtent ≤ maxResponseBytes
  | .roster _ name =>
    ∀ q ∈ s.squads, q.name = name → s.rosterExtent q task.now ≤ maxResponseBytes
  | .transcript _ query =>
    ∀ q ∈ s.squads, q.name = query.squad →
      s.transcriptExtent (s.transcriptRows q.id query.after query.limit) ≤ maxResponseBytes
  | _ => True

omit [Sha256] in
/-- There is one squad of a name. -/
theorem Store.forall_named {name : SquadName} {q : SquadRecord} (hq : q ∈ s.squads)
    (hname : q.name = name) {P : SquadRecord → Prop} :
    (∀ p ∈ s.squads, p.name = name → P p) ↔ P q := by
  constructor
  · exact fun h => h q hq hname
  · intro h p hp hpname
    rw [s.constraints.squadName.eq hp hq (hpname.trans hname.symm)]
    exact h

/-- An answer fits the client exactly if what it lists does. -/
theorem Store.Emits.fits_iff (hreach : storeLts.Reach Lts.always s) {task : Task}
    (hadmissible : task.command.Admissible) {body : ResponseBody}
    (hemits : s.Emits task.command task.now task.generated body) :
    weight utf8 body.json ≤ maxResponseBytes ↔ s.Fits task := by
  obtain ⟨command, now, generated⟩ := task
  have hlimit : maxResponseBytes = 1048576 := rfl
  obtain ⟨reply, hreply, hbody⟩ := hemits
  cases command with
  | listSquads =>
      obtain ⟨records, hrun, rfl⟩ := Store.answer_eq_ok.mp hreply
      obtain ⟨dtos, hdtos, rfl⟩ := Traverse.map_eq_ok.mp hbody
      obtain ⟨rfl, -⟩ := Tx.query_eq_ok.mp hrun
      rw [squads_size hdtos]
      rfl
  | roster credential name =>
      obtain ⟨members, hrun, rfl⟩ := Store.answer_eq_ok.mp hreply
      obtain ⟨r, hr, rfl⟩ := Traverse.map_eq_ok.mp hbody
      obtain ⟨q, hq, hname, hsize⟩ := roster_size hrun hr
      show weight utf8 r.json ≤ _ ↔ _
      rw [hsize]
      exact (Store.forall_named hq hname
        (P := fun q => s.rosterExtent q now ≤ maxResponseBytes)).symm
  | transcript credential query =>
      obtain ⟨views, hrun, rfl⟩ := Store.answer_eq_ok.mp hreply
      obtain ⟨r, hr, rfl⟩ := Traverse.map_eq_ok.mp hbody
      obtain ⟨q, hq, hname, hsize⟩ := transcript_size hrun hr
      show weight utf8 r.json ≤ _ ↔ _
      rw [hsize]
      exact (Store.forall_named hq hname (P := fun q =>
        s.transcriptExtent (s.transcriptRows q.id query.after query.limit)
          ≤ maxResponseBytes)).symm
  | createSquad request =>
      obtain ⟨record, -, rfl⟩ := Store.answer_eq_ok.mp hreply
      obtain ⟨dto, hdto, rfl⟩ := Traverse.map_eq_ok.mp hbody
      exact iff_of_true ((squadDto_le hdto).trans (by decide)) trivial
  | describeSquad name =>
      obtain ⟨record, -, rfl⟩ := Store.answer_eq_ok.mp hreply
      obtain ⟨dto, hdto, rfl⟩ := Traverse.map_eq_ok.mp hbody
      exact iff_of_true ((squadDto_le hdto).trans (by decide)) trivial
  | archive credential squad =>
      obtain ⟨record, -, rfl⟩ := Store.answer_eq_ok.mp hreply
      obtain ⟨dto, hdto, rfl⟩ := Traverse.map_eq_ok.mp hbody
      have hsquad := squadDto_le hdto
      have hname : weight utf8 (str "squad") = 7 := by decide
      refine iff_of_true ((weight_obj_le _).trans ?_) trivial
      simp only [fieldBytes_cons, fieldBytes_nil, weight_utf8_field, hname]
      omega
  | join request =>
      obtain ⟨outcome, -, rfl⟩ := Store.answer_eq_ok.mp hreply
      obtain ⟨r, hr, rfl⟩ := Traverse.map_eq_ok.mp hbody
      exact iff_of_true ((sessionResponse_le hr).trans (by decide)) trivial
  | resume request =>
      obtain ⟨context, -, rfl⟩ := Store.answer_eq_ok.mp hreply
      obtain ⟨r, hr, rfl⟩ := Traverse.map_eq_ok.mp hbody
      exact iff_of_true ((sessionResponse_le hr).trans (by decide)) trivial
  | leave credential squad =>
      obtain ⟨outcome, -, rfl⟩ := Store.answer_eq_ok.mp hreply
      obtain ⟨leftAt, -, rfl⟩ := Traverse.map_eq_ok.mp hbody
      exact iff_of_true ((LeaveSquadResponse.json_le _).trans (by decide)) trivial
  | heartbeat credential availability source policy =>
      obtain ⟨record, -, rfl⟩ := Store.answer_eq_ok.mp hreply
      obtain ⟨leaseExpiresAt, -, hbody⟩ := Except.bind_eq_ok.mp hbody
      obtain ⟨interval, -, hbody⟩ := Except.bind_eq_ok.mp hbody
      cases hbody
      exact iff_of_true ((HeartbeatResponse.json_le _).trans (by decide)) trivial
  | send credential request =>
      obtain ⟨outcome, hrun, rfl⟩ := Store.answer_eq_ok.mp hreply
      obtain ⟨r, hr, rfl⟩ := Traverse.map_eq_ok.mp hbody
      obtain ⟨dto, hdto, hr⟩ := Except.bind_eq_ok.mp hr
      cases hr
      obtain ⟨m, row, hsends⟩ := authenticatedSendByName_eq_ok (reach_named hreach) hrun
      obtain ⟨_, _, -, -, rfl⟩ := messageDto_eq_ok hdto
      have hlater : storeLts.Reach Lts.always
          (s.execute (.send credential request) now generated).2 := by
        rw [Store.execute_snd]
        exact hreach.steps ((Lts.Steps.refl s).tail trivial rfl)
      have hsequence : outcome.message.message.sequence < 2 ^ 63 := by
        rw [hsends.views.message]
        exact (reach_numbered hlater).sequence_lt hsends.views.mem
      exact iff_of_true ((SendMessageResponse.json_le _ hsequence).trans (by decide)) trivial
  | pending credential limit =>
      obtain ⟨page, -, rfl⟩ := Store.answer_eq_ok.mp hreply
      obtain ⟨r, hr, rfl⟩ := Traverse.map_eq_ok.mp hbody
      obtain ⟨response, -, hr⟩ := Except.bind_eq_ok.mp hr
      refine iff_of_true ?_ trivial
      -- the handler has checked the encoded page
      unfold encodeBoundedInbox at hr
      split at hr
      · rename_i hencoded
        split at hencoded
        · cases hr
          assumption
        · cases hencoded
      · cases hr
  | acknowledge credential ids =>
      obtain ⟨u, -, rfl⟩ := Store.answer_eq_ok.mp hreply
      cases hbody
      exact iff_of_true ((AckMessagesResponse.json_le _ hadmissible.1.2).trans (by decide)) trivial

/-- **Which answers the client can decode.** In every store a run of commands reaches, an answer
fits exactly if what the command lists does, which it always does for a command that lists
nothing. A client that follows a transcript with any limit can decode its next page exactly if the
rows from its cursor on, as many as it asks for, fit. -/
theorem answers_fit_iff :
    (∀ s, commandLts.Reach Lts.always s → ∀ task : Task, task.command.Admissible →
      ∀ body, s.Emits task.command task.now task.generated body →
        (weight utf8 body.json ≤ maxResponseBytes ↔ s.Fits task))
    ∧ ∀ squad r, (readerLts squad).Reach Lts.always r → ∀ credential limit now page,
        r.store.Emits (r.request squad credential limit) now none (.transcript page) →
          (weight utf8 page.json ≤ maxResponseBytes ↔
            ∀ q ∈ r.store.squads, q.name = squad →
              r.store.transcriptExtent (r.store.transcriptRows q.id r.cursor limit)
                ≤ maxResponseBytes) := by
  constructor
  · intro s hreach task hadmissible body hemits
    exact hemits.fits_iff (commandLts_reach hreach) hadmissible
  · intro squad r hreach credential limit now page hemits
    obtain ⟨views, hrun, hpage⟩ := Store.Emits.transcript hemits
    obtain ⟨q, hq, hname, hsize⟩ := transcript_size hrun hpage
    rw [hsize]
    exact (Store.forall_named hq hname (P := fun q =>
      r.store.transcriptExtent (r.store.transcriptRows q.id r.cursor limit)
        ≤ maxResponseBytes)).symm

end Answers


theorem weight_replicate (w : Char → Nat) (n : Nat) (c : Char) :
    weight w (List.replicate n c) = n * w c := by
  rw [weight, List.map_replicate, List.sum_replicate]
  rfl

/-- Repeated, a character of one byte takes as many bytes as it stands there. -/
theorem replicate_size {c : Char} (hc : c.utf8Size = 1) (n : Nat) :
    (String.ofList (List.replicate n c)).utf8ByteSize = n := by
  rw [utf8ByteSize_ofList, weight_replicate]
  show n * c.utf8Size = n
  rw [hc, Nat.mul_one]

namespace Sample

theorem controls_valid {n : Nat} (h : n < 4096) :
    Mission.rule.check (String.ofList (List.replicate (n + 1) '\x01')) = .ok () := by
  have hsize : (String.ofList (List.replicate (n + 1) '\x01')).utf8ByteSize = n + 1 :=
    replicate_size (by decide) _
  have htrim : trim (List.replicate (n + 1) '\x01') = List.replicate (n + 1) '\x01' := by
    have hdrop : (List.replicate (n + 1) '\x01').dropWhile isWhitespace
        = List.replicate (n + 1) '\x01' := by
      rw [List.replicate_succ, List.dropWhile_cons_of_neg (by decide)]
    rw [trim, hdrop, List.reverse_replicate, hdrop, List.reverse_replicate]
  have htrimmed : trimmedNonempty (String.ofList (List.replicate (n + 1) '\x01')) = true := by
    unfold trimmedNonempty
    rw [String.toList_ofList, htrim, beq_self_eq_true]
    rfl
  unfold TextRule.check
  rw [String.toList_ofList, hsize, if_neg (by simp), if_neg (by show ¬ 4096 < n + 1; omega),
    if_neg (by show ¬ (!trimmedNonempty _) = true; rw [htrimmed]; decide)]

/-- A mission of control characters. -/
def controls (n : Nat) (h : n < 4096) : Mission where
  val := String.ofList (List.replicate (n + 1) '\x01')
  valid := controls_valid h

theorem controls_length (n : Nat) (h : n < 4096) : 0 < sqlLength (controls n h).val := by
  unfold sqlLength controls
  rw [String.toList_ofList, List.replicate_succ, List.takeWhile_cons_of_pos (by decide)]
  exact Nat.succ_pos _

theorem controls_literal (n : Nat) (h : n < 4096) :
    literal (controls n h).val = 2 + (n + 1) * 6 := by
  have hquoted : quoted '\x01' = 6 := by decide
  unfold controls
  rw [literal, weight_utf8_str, String.toList_ofList, weight_replicate, hquoted]

/-- Four kilobytes of a control character. -/
def longMission : Mission := controls 4095 (by decide)

theorem longMission_literal : literal longMission.val = 24578 :=
  controls_literal 4095 (by decide)

theorem letters_valid {n : Nat} (h : n < 64) :
    SquadName.rule.check (String.ofList (List.replicate (n + 1) 'a')) = .ok () := by
  have hvalid : SquadName.rule.validator (String.ofList (List.replicate (n + 1) 'a')) = true := by
    have hlast : (List.replicate (n + 1) 'a').getLast? = some 'a' := by
      rw [List.getLast?_replicate, if_neg (Nat.succ_ne_zero n)]
    show validRoutingName _ _ = true
    rw [validRoutingName, String.toList_ofList, hlast, List.all_replicate,
      if_neg (Nat.succ_ne_zero n), List.replicate_succ, List.head?_cons]
    decide
  unfold TextRule.check
  rw [String.toList_ofList, replicate_size (by decide), hvalid, if_neg (by simp),
    if_neg (by show ¬ 64 < n + 1; omega), if_neg (by decide)]

def nthName (n : Nat) : SquadName where
  val := String.ofList (List.replicate (n % 64 + 1) 'a')
  valid := letters_valid (Nat.mod_lt _ (by decide))

theorem lettersId_valid {n : Nat} (h : n < 64) :
    OpaqueId.check .squad (String.ofList (['s', 'q', 'd', '_'] ++ List.replicate (n + 1) 'a'))
      = .ok () := by
  have hsuffix : (IdKind.squad.pre.toList ++ ['_']).isPrefixOf?
      (['s', 'q', 'd', '_'] ++ List.replicate (n + 1) 'a') = some (List.replicate (n + 1) 'a') := by
    have hpre : IdKind.squad.pre.toList ++ ['_'] = ['s', 'q', 'd', '_'] := by decide
    rw [hpre]
    rfl
  have hsize : (String.ofList (['s', 'q', 'd', '_'] ++ List.replicate (n + 1) 'a')).utf8ByteSize
      = 4 + (n + 1) := by
    rw [← weight_utf8_toList, String.toList_ofList, weight_append, weight_replicate]
    show 4 + (n + 1) * 1 = 4 + (n + 1)
    rw [Nat.mul_one]
  unfold OpaqueId.check
  rw [String.toList_ofList, hsuffix]
  simp only [hsize]
  rw [if_neg (by simp; omega), List.all_replicate, if_neg (Nat.succ_ne_zero n),
    if_neg (by decide)]
def nthId (n : Nat) : SquadId where
  val := String.ofList (['s', 'q', 'd', '_'] ++ List.replicate (n % 64 + 1) 'a')
  valid := lettersId_valid (Nat.mod_lt _ (by decide))

section Founding

variable {mission : Mission} {n : Nat}

def nthSquad (mission : Mission) (n : Nat) : SquadRecord :=
  activeSquad (nthId n) (nthName n) mission (instant 100)

def founding (mission : Mission) (n : Nat) : Task where
  command := .createSquad ⟨nthId n, nthName n, mission⟩
  now := instant 100
  generated := none

/-- The tables after the first `n` squads. -/
def founded (mission : Mission) (n : Nat) : Tables :=
  ⟨(List.range n).map (nthSquad mission), [], [], [], [], 0⟩

theorem length_of_replicate {k l : Nat} {p : List Char}
    (h : String.ofList (p ++ List.replicate (k % 64 + 1) 'a')
      = String.ofList (p ++ List.replicate (l % 64 + 1) 'a')) (hk : k < 64) (hl : l < 64) :
    k = l := by
  have hlists := congrArg (fun s => s.toList.length) h
  simp only [String.toList_ofList, List.length_append, List.length_replicate] at hlists
  omega

theorem nthName_injective {k l : Nat} (hk : k < 64) (hl : l < 64) (h : nthName k = nthName l) :
    k = l :=
  length_of_replicate (p := []) (congrArg Validated.val h) hk hl

theorem nthId_injective {k l : Nat} (hk : k < 64) (hl : l < 64) (h : nthId k = nthId l) : k = l :=
  length_of_replicate (congrArg Validated.val h) hk hl

theorem founded_constraints (hmission : 0 < sqlLength mission.val) (h : n ≤ 64) :
    (founded mission n).Constraints := by
  have hnodup : ∀ {κ : Type} (key : SquadRecord → κ),
      (∀ k < n, ∀ l < n, key (nthSquad mission k) = key (nthSquad mission l) → k = l) →
        UniqueKey key ((List.range n).map (nthSquad mission)) := by
    intro κ key hinjective
    unfold UniqueKey UniqueOn
    rw [List.filter_true, List.map_map]
    refine List.Nodup.map_on ?_ List.nodup_range
    intro k hk l hl
    exact hinjective k (List.mem_range.mp hk) l (List.mem_range.mp hl)
  have hempty : ∀ {α : Type} {P : α → Prop}, ∀ a ∈ ([] : List α), P a := fun a ha => by cases ha
  refine
    { squadId := hnodup _ fun k hk l hl => nthId_injective (by omega) (by omega)
      squadName := hnodup _ fun k hk l hl => nthName_injective (by omega) (by omega)
      squadCheck := ?_
      agentId := List.nodup_nil
      membershipId := List.nodup_nil
      membershipSquad := hempty
      membershipAgent := hempty
      membershipRole := hempty
      activeName := List.nodup_nil
      instanceId := List.nodup_nil
      instanceMembership := hempty
      instanceClientKind := hempty
      unclosedOwner := List.nodup_nil
      messageSequence := List.nodup_nil
      messageId := List.nodup_nil
      messageSender := hempty
      messageRecipient := hempty
      messageReply := hempty
      messageDedupe := List.nodup_nil
      sequenceRange := Nat.two_pow_pos 63 }
  intro q hq
  obtain ⟨k, -, rfl⟩ := List.mem_map.mp hq
  exact ⟨hmission, iff_of_true rfl rfl⟩

/-- One more squad is founded. -/
theorem founding_run (hmission : 0 < sqlLength mission.val) (h : n < 64) {s : Store}
    (hs : s.toTables = founded mission n) :
    (createSquad ⟨nthId n, nthName n, mission, ⟨100, by decide⟩⟩).run s
      = .ok (nthSquad mission n, ⟨founded mission (n + 1), founded_constraints hmission h⟩) := by
  have hfree : s.squadByName (nthName n) = none := by
    rw [← Option.not_isSome_iff_eq_none, Option.isSome_iff_exists]
    rintro ⟨q, hq⟩
    obtain ⟨hmem, hname⟩ := s.squadByName_eq_some.mp hq
    rw [hs] at hmem
    obtain ⟨k, hk, rfl⟩ := List.mem_map.mp hmem
    have hlt := List.mem_range.mp hk
    have hsame := nthName_injective (by omega) h hname
    omega
  have hwrite : { s.toTables with squads := s.squads ++ [nthSquad mission n] }
      = founded mission (n + 1) := by
    rw [hs, founded, founded, List.range_succ, List.map_append]
    rfl
  have hinsert : (insertSquad (nthSquad mission n)).run s
      = .ok ((), ⟨founded mission (n + 1), founded_constraints hmission h⟩) :=
    StoreTx.write_eq_ok.mpr hwrite.symm
  rw [createSquad, Tx.run_require_bind, if_pos hmission, Tx.run_query_bind, hfree,
    Tx.run_require_bind, if_pos rfl]
  exact Tx.run_bind_of_ok s hinsert

theorem perform_founding (hmission : 0 < sqlLength mission.val) (n : Nat) (h : n ≤ 64) :
    (Store.empty.perform ((List.range n).map (founding mission))).toTables = founded mission n := by
  induction n with
  | zero => rfl
  | succ n ih =>
      have hbefore := ih (Nat.le_of_succ_le h)
      rw [List.range_succ, List.map_append, Store.perform, List.foldl_append]
      exact congrArg (fun r => r.2.toTables)
        (Tx.commit_of_ok (founding_run hmission h hbefore))

/-- Every founded squad is listed with its mission. -/
theorem founded_extent (mission : Mission) (n : Nat) :
    n * literal mission.val ≤ ((founded mission n).squads.map SquadRecord.extent).sum := by
  induction n with
  | zero =>
      rw [Nat.zero_mul]
      exact Nat.zero_le _
  | succ n ih =>
      have hmission : (nthSquad mission n).mission = mission := rfl
      have hsquad : literal mission.val ≤ (nthSquad mission n).extent := by
        unfold SquadRecord.extent
        rw [hmission]
        omega
      have hlast : ((founded mission (n + 1)).squads.map SquadRecord.extent).sum
          = ((founded mission n).squads.map SquadRecord.extent).sum
            + (nthSquad mission n).extent := by
        simp only [founded, List.range_succ, List.map_append, List.sum_append, List.map_cons,
          List.map_nil, List.sum_cons, List.sum_nil, Nat.add_zero]
      rw [hlast, Nat.succ_mul]
      exact Nat.add_le_add ih hsquad

end Founding

/-- The squad list of a store whose squads were all created within the calendar. -/
theorem listSquads_emits {s : Store} (now : UnixMillis)
    (h : ∀ q ∈ s.squads, ∃ dto, squadDto q = .ok dto) :
    ∃ dtos, s.Emits .listSquads now none (.squads dtos) := by
  have hall : ∀ records : List SquadRecord, (∀ q ∈ records, q ∈ s.squads) →
      ∃ dtos, records.mapM squadDto = .ok dtos := by
    intro records hsub
    induction records with
    | nil => exact ⟨[], rfl⟩
    | cons q records ih =>
        obtain ⟨dto, hdto⟩ := h q (hsub q (List.mem_cons_self ..))
        obtain ⟨dtos, hdtos⟩ := ih fun p hp => hsub p (List.mem_cons_of_mem _ hp)
        exact ⟨dto :: dtos, Traverse.mapM_eq_ok.mpr (.cons hdto (Traverse.mapM_eq_ok.mp hdtos))⟩
  obtain ⟨dtos, hdtos⟩ := hall (s.squads.insertionSort fun a b => a.name.val ≤ b.name.val)
    fun q hq => (List.perm_insertionSort _ _).mem_iff.mp hq
  have hreply : (s.execute .listSquads now none).1
      = .ok (.squads (s.squads.insertionSort fun a b => a.name.val ≤ b.name.val)) :=
    Store.answer_eq_ok.mpr ⟨_, Tx.query_eq_ok.mpr ⟨rfl, rfl⟩, rfl⟩
  exact ⟨dtos, _, hreply, Traverse.map_eq_ok.mpr ⟨dtos, hdtos, rfl⟩⟩

/-- Sixty-four squads with the longest mission there is. -/
def flooded : Store := Store.empty.perform ((List.range 64).map (founding longMission))

theorem flooded_squads : flooded.toTables = founded longMission 64 :=
  perform_founding (controls_length 4095 (by decide)) 64 (Nat.le_refl _)

end Sample

open Sample in
/-- The list of one short squad fits. -/
theorem answers_fit_iff_alpha :
    ∃ body, (Store.empty.perform (archiving.take 1)).Emits .listSquads ⟨120, by decide⟩ none body
      ∧ weight utf8 body.json ≤ maxResponseBytes := by
  have hdtos : ∀ q ∈ (Store.empty.perform (archiving.take 1)).squads,
      ∃ dto, squadDto q = .ok dto := by
    have hsquads : (Store.empty.perform (archiving.take 1)).squads
        = [{ archivedAlpha with state := .active, archivedAt := none }] := by decide
    intro q hq
    rw [hsquads, List.mem_singleton] at hq
    rw [hq]
    exact ⟨_, rfl⟩
  obtain ⟨dtos, hemits⟩ := listSquads_emits ⟨120, by decide⟩ hdtos
  have hadmissible : (StoreCommand.listSquads).Admissible := fun _ hpolicy => by cases hpolicy
  refine ⟨_, hemits, (answers_fit_iff.1 _ ⟨_, rfl, steps_perform _ _⟩
    ⟨.listSquads, ⟨120, by decide⟩, none⟩ hadmissible _ hemits).mpr ?_⟩
  show Store.squadsExtent _ ≤ _
  decide

open Sample in
/-- The list of the sixty-four squads is half a megabyte too long. -/
theorem not_answers_fit :
    commandLts.Reach Lts.always flooded
      ∧ ∃ body, flooded.Emits .listSquads ⟨120, by decide⟩ none body
        ∧ maxResponseBytes < weight utf8 body.json := by
  have hsquads : flooded.squads = (List.range 64).map (nthSquad longMission) :=
    congrArg Tables.squads flooded_squads
  have hdtos : ∀ q ∈ flooded.squads, ∃ dto, squadDto q = .ok dto := by
    intro q hq
    rw [hsquads] at hq
    obtain ⟨k, -, rfl⟩ := List.mem_map.mp hq
    exact ⟨⟨nthId k, nthName k, longMission, .active, ⟨⟨100, by decide⟩, by decide⟩, none⟩, rfl⟩
  obtain ⟨dtos, hemits⟩ := listSquads_emits ⟨120, by decide⟩ hdtos
  refine ⟨⟨_, rfl, steps_perform _ _⟩, _, hemits, ?_⟩
  obtain ⟨reply, hreply, hbody⟩ := hemits
  obtain ⟨records, hrun, rfl⟩ := Store.answer_eq_ok.mp hreply
  obtain ⟨dtos', hlisted, hsame⟩ := Traverse.map_eq_ok.mp hbody
  cases hsame
  obtain ⟨rfl, -⟩ := Tx.query_eq_ok.mp hrun
  have hextent := founded_extent longMission 64
  rw [squads_size hlisted, Store.squadsExtent, flooded_squads]
  rw [longMission_literal] at hextent
  have hlimit : maxResponseBytes = 1048576 := rfl
  omega

end Psst
