import Psst.Store.Mailbox

/-!
# Which writes the schema accepts

The updates of the commands touch no constrained column, or only take rows out of a partial
index: the schema accepts them in every store. The two inserts of a session are accepted
exactly when their identifiers are new and what they refer to is there.
-/

namespace Psst

open Table

namespace Tables.Constraints

variable {t : Tables} (h : t.Constraints)

include h

/-- An update of instances that keeps their keys and reopens none. -/
theorem renewInstances {p : InstanceRow → Bool} {f : InstanceRow → InstanceRow}
    (hid : ∀ i, (f i).id = i.id) (hmember : ∀ i, (f i).membershipId = i.membershipId)
    (hkind : ∀ i, (f i).clientKind = i.clientKind)
    (hopen : ∀ i, (f i).unclosed = true → i.unclosed = true) :
    (t.renewInstances p f).Constraints := by
  refine
    { h with
      instanceId := UniqueKey.updateWhere h.instanceId hid
      unclosedOwner := UniqueOn.updateWhere h.unclosedOwner hmember hopen
      instanceMembership := ?_, instanceClientKind := ?_ }
  · intro i hi
    obtain ⟨j, hj, rfl⟩ := mem_updateWhere.mp hi
    obtain ⟨m, hm, hmid⟩ := h.instanceMembership j hj
    refine ⟨m, hm, hmid.trans ?_⟩
    split
    · exact (hmember j).symm
    · rfl
  · intro i hi
    obtain ⟨j, hj, rfl⟩ := mem_updateWhere.mp hi
    split
    · rw [hkind]
      exact h.instanceClientKind j hj
    · exact h.instanceClientKind j hj

theorem closeInstances (p : InstanceRow → Bool) (now : UnixMillis) :
    (t.closeInstances p now).Constraints :=
  h.renewInstances (p := fun i => p i && i.unclosed)
    (f := fun i => { i with closedAt := some now }) (fun _ => rfl) (fun _ => rfl) (fun _ => rfl)
    (fun _ hopen => by simp at hopen)

theorem setLeft (member : MembershipId) (now : UnixMillis) :
    (t.setLeft member now).Constraints := by
  -- each row of the result has a row of `t` with the same constrained columns, and back
  have hback : ∀ m ∈ (t.setLeft member now).memberships, ∃ o ∈ t.memberships,
      o.id = m.id ∧ o.squadId = m.squadId ∧ o.agentId = m.agentId ∧ o.role = m.role := by
    intro m hm
    obtain ⟨o, ho, rfl⟩ := mem_updateWhere.mp hm
    refine ⟨o, ho, ?_⟩
    split <;> simp
  have hforth : ∀ o ∈ t.memberships, ∃ m ∈ (t.setLeft member now).memberships,
      m.id = o.id ∧ m.squadId = o.squadId := by
    intro o ho
    refine ⟨_, mem_updateWhere.mpr ⟨o, ho, rfl⟩, ?_⟩
    split <;> simp
  refine
    { h with
      membershipId := UniqueKey.updateWhere h.membershipId fun _ => rfl
      activeName := UniqueOn.updateWhere h.activeName (fun _ => rfl) fun _ hj => by simp at hj
      membershipSquad := ?_, membershipAgent := ?_, membershipRole := ?_
      instanceMembership := ?_, messageSender := ?_, messageRecipient := ?_ }
  · intro m hm
    obtain ⟨o, ho, -, hsquad, -, -⟩ := hback m hm
    rw [← hsquad]
    exact h.membershipSquad o ho
  · intro m hm
    obtain ⟨o, ho, -, -, hagent, -⟩ := hback m hm
    rw [← hagent]
    exact h.membershipAgent o ho
  · intro m hm
    obtain ⟨o, ho, -, -, -, hrole⟩ := hback m hm
    rw [← hrole]
    exact h.membershipRole o ho
  · intro i hi
    obtain ⟨o, ho, hid⟩ := h.instanceMembership i hi
    obtain ⟨m, hm, hmid, -⟩ := hforth o ho
    exact ⟨m, hm, hmid.trans hid⟩
  · intro x hx
    obtain ⟨o, ho, hid, hsquad⟩ := h.messageSender x hx
    obtain ⟨m, hm, hmid, hmsquad⟩ := hforth o ho
    exact ⟨m, hm, hmid.trans hid, hmsquad.trans hsquad⟩
  · intro x hx
    obtain ⟨o, ho, hid, hsquad⟩ := h.messageRecipient x hx
    obtain ⟨m, hm, hmid, hmsquad⟩ := hforth o ho
    exact ⟨m, hm, hmid.trans hid, hmsquad.trans hsquad⟩

theorem archiveSquads (p : SquadRecord → Bool) (now : UnixMillis) :
    (t.archiveSquads p now).Constraints := by
  refine
    { h with
      squadId := UniqueKey.updateWhere h.squadId fun _ => rfl
      squadName := UniqueKey.updateWhere h.squadName fun _ => rfl
      squadCheck := ?_, membershipSquad := ?_ }
  · intro q hq
    obtain ⟨o, ho, rfl⟩ := mem_updateWhere.mp hq
    split
    · exact ⟨(h.squadCheck o ho).1, by simp⟩
    · exact h.squadCheck o ho
  · intro m hm
    obtain ⟨q, hq, hid⟩ := h.membershipSquad m hm
    refine ⟨_, mem_updateWhere.mpr ⟨q, hq, rfl⟩, ?_⟩
    split <;> exact hid

/-- **When an instance can be inserted.** -/
theorem addInstance_iff {row : InstanceRow}
    (hmember : ∃ m ∈ t.memberships, m.id = row.membershipId)
    (hclosed : ∀ i ∈ t.instances, i.unclosed = true → i.membershipId ≠ row.membershipId) :
    (t.addInstance row).Constraints
      ↔ (∀ i ∈ t.instances, i.id ≠ row.id) ∧ 0 < sqlLength row.clientKind := by
  constructor
  · intro hnew
    refine ⟨(UniqueKey.append_iff h.instanceId).mp hnew.instanceId, ?_⟩
    exact hnew.instanceClientKind row (List.mem_append_right _ (List.mem_singleton.mpr rfl))
  · rintro ⟨hid, hkind⟩
    refine
      { h with
        instanceId := (UniqueKey.append_iff h.instanceId).mpr hid
        unclosedOwner := (UniqueOn.append_iff h.unclosedOwner).mpr fun _ => hclosed
        instanceMembership := ?_, instanceClientKind := ?_ }
    · intro i hi
      rcases List.mem_append.mp hi with hi | hi
      · exact h.instanceMembership i hi
      · cases List.mem_singleton.mp hi
        exact hmember
    · intro i hi
      rcases List.mem_append.mp hi with hi | hi
      · exact h.instanceClientKind i hi
      · cases List.mem_singleton.mp hi
        exact hkind

/-- **When a message can be inserted.** -/
theorem insertMessage_iff [Sha256] {request : SendMessage}
    (hsender : ∃ m ∈ t.memberships, m.id = request.semantics.sender
      ∧ m.squadId = request.semantics.squad)
    (hrecipient : ∃ m ∈ t.memberships, m.id = request.semantics.recipient
      ∧ m.squadId = request.semantics.squad)
    (hreply : ∀ reply ∈ request.semantics.replyTo, ∃ o ∈ t.messages,
      o.id = reply ∧ o.squadId = request.semantics.squad)
    (hkey : ∀ o ∈ t.messages, (o.squadId, o.senderMembershipId, o.dedupeKey)
      ≠ (request.semantics.squad, request.semantics.sender, request.dedupeKey)) :
    (t.insertMessage request).Constraints
      ↔ (∀ o ∈ t.messages, o.id ≠ request.id) ∧ t.nextSequence < 2 ^ 63 := by
  have hfresh : ∀ o ∈ t.messages, o.sequence ≠ t.nextSequence :=
    fun o ho => (t.sequence_lt_next ho).ne
  constructor
  · intro hnew
    exact ⟨(UniqueKey.append_iff h.messageId).mp hnew.messageId, hnew.sequenceRange⟩
  · rintro ⟨hid, hrange⟩
    -- a fact about the old rows and about the new one is a fact about all
    have hall : ∀ {P : MessageRow → Prop}, (∀ o ∈ t.messages, P o) →
        P (request.row t.nextSequence) → ∀ o ∈ (t.insertMessage request).messages, P o := by
      intro P hold hnew o ho
      rcases List.mem_append.mp ho with ho | ho
      · exact hold o ho
      · cases List.mem_singleton.mp ho
        exact hnew
    refine
      { h with
        messageSequence := (UniqueKey.append_iff h.messageSequence).mpr hfresh
        messageId := (UniqueKey.append_iff h.messageId).mpr hid
        messageDedupe := (UniqueKey.append_iff h.messageDedupe).mpr hkey
        messageSender := hall h.messageSender hsender
        messageRecipient := hall h.messageRecipient hrecipient
        messageReply := hall ?_ ?_
        sequenceRange := hrange }
    · intro m hm reply hr
      obtain ⟨o, ho, hoid, hosquad⟩ := h.messageReply m hm reply hr
      exact ⟨o, List.mem_append_left _ ho, hoid, hosquad⟩
    · intro reply hr
      obtain ⟨o, ho, hoid, hosquad⟩ := hreply reply hr
      exact ⟨o, List.mem_append_left _ ho, hoid, hosquad⟩

end Tables.Constraints

end Psst
