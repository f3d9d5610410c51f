import Psst.Store.Change

/-!
# Exactly-once logical sends

A message row is written once and afterwards only ever acknowledged. A send that carries a
key already stored for its squad and sender is answered from the stored row before any
lifecycle check is made, so the answer depends on the row alone.
-/

namespace Psst

open Table

/-! ## Message rows over time -/

/-- The same row, or the same row acknowledged for the first time. -/
def MessageRow.Evolves (m m' : MessageRow) : Prop :=
  m' = m ∨ (m.acknowledgedAt = none ∧ ∃ now, m' = { m with acknowledgedAt := some now })

namespace MessageRow.Evolves

variable {m m' m'' : MessageRow}

theorem refl (m : MessageRow) : m.Evolves m := Or.inl rfl

theorem trans (h : m.Evolves m') (h' : m'.Evolves m'') : m.Evolves m'' := by
  rcases h with rfl | ⟨hnone, now, rfl⟩
  · exact h'
  · rcases h' with rfl | ⟨hnone', -⟩
    · exact Or.inr ⟨hnone, now, rfl⟩
    · cases hnone'

theorem record_eq (h : m.Evolves m') : m'.record = m.record := by
  rcases h with rfl | ⟨-, now, rfl⟩ <;> rfl

theorem body_eq (h : m.Evolves m') : m'.body = m.body ∧ m'.bodyHash = m.bodyHash := by
  rcases h with rfl | ⟨-, now, rfl⟩ <;> exact ⟨rfl, rfl⟩

theorem key_eq (h : m.Evolves m') :
    (m'.squadId, m'.senderMembershipId, m'.dedupeKey)
      = (m.squadId, m.senderMembershipId, m.dedupeKey) := by
  rcases h with rfl | ⟨-, now, rfl⟩ <;> rfl

/-- An acknowledged row never changes again. -/
theorem eq_of_acknowledged (h : m.Evolves m') (hack : m.acknowledgedAt ≠ none) : m' = m :=
  h.resolve_right fun hnone => hack hnone.1

end MessageRow.Evolves

/-- Every row of `s` is still there in `t`, possibly acknowledged since. -/
def Store.MessagesKept (s t : Store) : Prop :=
  ∀ m ∈ s.messages, ∃ m' ∈ t.messages, m.Evolves m'

theorem Store.MessagesKept.trans {s t u : Store} (h : s.MessagesKept t) (h' : t.MessagesKept u) :
    s.MessagesKept u := by
  intro m hm
  obtain ⟨m', hm', hev⟩ := h m hm
  obtain ⟨m'', hm'', hev'⟩ := h' m' hm'
  exact ⟨m'', hm'', hev.trans hev'⟩

section Runs

variable [Sha256]

theorem Change.messagesKept {c : Context} {s s' : Store} (h : Change c s s') :
    s.MessagesKept s' := by
  intro m hm
  rcases h.messages_cases with heq | ⟨request, heq⟩ | ⟨recipient, now, ids, -, heq⟩
  · exact ⟨m, by rw [heq]; exact hm, .refl m⟩
  · exact ⟨m, by rw [heq]; exact List.mem_append_left _ hm, .refl m⟩
  · refine ⟨_, by rw [heq]; exact mem_updateWhere.mpr ⟨m, hm, rfl⟩, ?_⟩
    split
    · rename_i hpending
      simp [MessageRow.pendingFor] at hpending
      exact Or.inr ⟨hpending.2.2, now, rfl⟩
    · exact .refl m

/-! ## Stored digests -/

/-- Every stored body matches its digest. -/
def Store.DigestsMatch (s : Store) : Prop :=
  ∀ m ∈ s.messages, m.bodyHash = bodyDigest m.body

theorem Change.digestsMatch {c : Context} {s s' : Store} (h : Change c s s')
    (hs : s.DigestsMatch) : s'.DigestsMatch := by
  intro m hm
  rcases h.messages_cases with heq | ⟨request, heq⟩ | ⟨recipient, now, ids, -, heq⟩
  · rw [heq] at hm
    exact hs m hm
  · rw [heq] at hm
    rcases List.mem_append.mp hm with hold | hnew
    · exact hs m hold
    · rw [List.mem_singleton.mp hnew]
      rfl
  · rw [heq] at hm
    obtain ⟨o, ho, rfl⟩ := mem_updateWhere.mp hm
    split <;> exact hs o ho

/-! ## Runs -/

/-- The context in which any lease policy may be used. -/
theorem Store.exec_changes_any (s : Store) (op : Op) :
    Changes (op.context (fun _ => True) s) s (s.exec op) :=
  s.exec_changes op fun _ _ => trivial

theorem Store.exec_messagesKept (s : Store) (op : Op) : s.MessagesKept (s.exec op) := by
  refine Changes.keeps (Q := fun t => s.MessagesKept t) ?_ (s.exec_changes_any op)
    fun m hm => ⟨m, hm, .refl m⟩
  intro t t' hchange ht
  exact ht.trans hchange.messagesKept

theorem reach_digestsMatch {ok : Store → Op → Prop} {s : Store} (h : storeLts.Reach ok s) :
    s.DigestsMatch := by
  refine h.invariant ?_ ?_
  · rintro s rfl m hm
    cases hm
  · rintro s op t hs - rfl
    exact Changes.keeps (fun _ _ hchange => hchange.digestsMatch) (s.exec_changes_any op) hs

theorem steps_messagesKept {ok : Store → Op → Prop} {s t : Store} (h : storeLts.Steps ok s t) :
    s.MessagesKept t := by
  refine h.related (R := Store.MessagesKept) (P := fun _ => True) (fun s m hm => ⟨m, hm, .refl m⟩)
    (fun _ _ _ => Store.MessagesKept.trans) ?_ trivial
  rintro s op t - - rfl
  exact ⟨s.exec_messagesKept op, trivial⟩

/-! ## Retries -/

/-- A stored key is resolved from its row: the record, or a conflict. -/
theorem resolveRetry_of_stored {s : Store} {m : MessageRow} (request : SendMessage)
    (hm : m ∈ s.messages) (hdigest : m.bodyHash = bodyDigest m.body)
    (hkey : (m.squadId, m.senderMembershipId, m.dedupeKey)
      = (request.semantics.squad, request.semantics.sender, request.dedupeKey)) :
    (resolveRetry request).run s
      = if m.semantics = request.semantics then .ok (some m.record, s)
        else .error .idempotencyConflict := by
  have hfound := Store.messageByDedupe_eq_some.mpr ⟨hm, hkey⟩
  have hsem : m.record.semantics = m.semantics := rfl
  have hby : (findByDedupe request).run s = .ok (some m.record, s) := by
    simp [findByDedupe, hfound, hdigest]
  unfold resolveRetry
  rw [Tx.run_bind_of_ok _ hby]
  simp only [Tx.run_require_bind, hsem, Tx.run_pure]

/-- **A retry is answered before any lifecycle check.** Whatever the credential's lease, its
membership or its squad have become, the stored row alone decides. -/
theorem authenticatedSend_of_stored {s : Store} {session : AuthenticatedSession}
    {identity : Identity} {m : MessageRow} (request : SendMessage)
    (hauth : (authenticateHistorical session).run s = .ok (identity, s))
    (hidentity : identity.membership = m.senderMembershipId)
    (hm : m ∈ s.messages) (hdigest : m.bodyHash = bodyDigest m.body)
    (hkey : (m.squadId, m.senderMembershipId, m.dedupeKey)
      = (request.semantics.squad, request.semantics.sender, request.dedupeKey)) :
    (authenticatedSend session request).run s
      = if m.semantics = request.semantics then .ok (m.record, s)
        else .error .idempotencyConflict := by
  -- the sender's membership fixes the squad the identity carries
  obtain ⟨i, row, hi, rfl, -⟩ := authenticateHistorical_eq_ok.mp hauth
  obtain ⟨sender, hsender, hsid, hssq⟩ := s.constraints.messageSender m hm
  have hrow : row = sender :=
    s.constraints.membershipId.eq hi.member hsender (hidentity.trans hsid.symm)
  simp only [Prod.mk.injEq] at hkey
  obtain ⟨hsquad, hsend, hdedupe⟩ := hkey
  have hscope : request.semantics.sender = (identityOf i row).membership
      ∧ request.semantics.squad = (identityOf i row).squad := by
    refine ⟨?_, ?_⟩
    · rw [hidentity, hsend]
    · rw [← hsquad, ← hssq, ← hrow]
      rfl
  unfold authenticatedSend
  rw [Tx.run_bind_of_ok _ hauth, Tx.run_require_bind, if_pos hscope]
  have hretry := resolveRetry_of_stored request hm hdigest (by rw [hsquad, hsend, hdedupe])
  by_cases hsem : m.semantics = request.semantics
  · rw [if_pos hsem] at hretry ⊢
    rw [Tx.run_bind_of_ok _ hretry]
    rfl
  · rw [if_neg hsem] at hretry ⊢
    rw [Tx.run_bind_of_error _ hretry]

/-- **Exactly-once logical send.** In every reachable state a (squad, sender, dedupe key) has
at most one message row. Every later state still has the row with its sequence, id,
semantics and creation time, and there any credential that authenticates historically for
the sending membership gets exactly that record back for an equal retry and a conflict for
a changed one, in both cases without a write. -/
theorem exactly_once_send {s t : Store} (hreach : storeLts.Reach Lts.always s)
    (hlater : storeLts.Steps Lts.always s t) :
    (∀ squad sender key, (s.messages.filter fun m =>
        decide ((m.squadId, m.senderMembershipId, m.dedupeKey) = (squad, sender, key))).length ≤ 1)
      ∧ ∀ m ∈ s.messages,
          (∃ m' ∈ t.messages, m'.sequence = m.sequence ∧ m'.id = m.id
            ∧ m'.semantics = m.semantics ∧ m'.dedupeKey = m.dedupeKey
            ∧ m'.createdAt = m.createdAt)
          ∧ ∀ session identity request,
              (authenticateHistorical session).run t = .ok (identity, t) →
              identity.membership = m.senderMembershipId →
              request.semantics.squad = m.squadId →
              request.semantics.sender = m.senderMembershipId →
              request.dedupeKey = m.dedupeKey →
                (request.semantics = m.semantics →
                  Tx.commit (authenticatedSend session request) t = (.ok m.record, t))
                ∧ (request.semantics ≠ m.semantics →
                  Tx.commit (authenticatedSend session request) t
                    = (.error .idempotencyConflict, t)) := by
  refine ⟨fun squad sender key => s.constraints.messageDedupe.length_filter_le_one _, ?_⟩
  intro m hm
  obtain ⟨m', hm', hev⟩ := steps_messagesKept hlater m hm
  have hrecord := hev.record_eq
  have hsem : m'.semantics = m.semantics := congrArg MessageRecord.semantics hrecord
  refine ⟨⟨m', hm', congrArg MessageRecord.sequence hrecord, congrArg MessageRecord.id hrecord,
    hsem, congrArg MessageRecord.dedupeKey hrecord, congrArg MessageRecord.createdAt hrecord⟩, ?_⟩
  intro session identity request hauth hidentity hsquad hsender hkey
  have hdigest := reach_digestsMatch (hreach.steps hlater) m' hm'
  have hsend := authenticatedSend_of_stored request hauth
    (hidentity.trans (congrArg MessageSemantics.sender hsem).symm) hm' hdigest
    (by rw [hev.key_eq, hsquad, hsender, hkey])
  rw [hsem, hrecord] at hsend
  constructor
  · intro heq
    rw [if_pos heq.symm] at hsend
    exact Tx.commit_of_ok hsend
  · intro hne
    rw [if_neg fun h => hne h.symm] at hsend
    exact Tx.commit_of_error hsend

end Runs

open Sample in
/-- Alice leaves after her greeting; her retry under a new id at a later reading still gets
the first record. -/
theorem exactly_once_send_after_leave :
    Tx.commit (authenticatedSend (aliceAt ⟨90000, by decide⟩)
        (greeting ⟨"msg_two", by decide⟩ ⟨90000, by decide⟩))
      ((Store.empty.run greeted).run [.authenticatedLeave (aliceAt ⟨120, by decide⟩) alpha])
    = (.ok ((greeting ⟨"msg_one", by decide⟩ ⟨110, by decide⟩).row 1).record,
      (Store.empty.run greeted).run [.authenticatedLeave (aliceAt ⟨120, by decide⟩) alpha]) := by
  have hreach : storeLts.Reach Lts.always (Store.empty.run greeted) :=
    reach_run greeted fun _ _ _ => trivial
  have hlater := steps_run [.authenticatedLeave (aliceAt ⟨120, by decide⟩) alpha]
    (Store.empty.run greeted) fun _ _ _ => trivial
  have hm : (greeting ⟨"msg_one", by decide⟩ ⟨110, by decide⟩).row 1
      ∈ (Store.empty.run greeted).messages := by
    decide
  exact (((exactly_once_send hreach hlater).2 _ hm).2 (aliceAt ⟨90000, by decide⟩)
    ⟨alice, alphaId, .cooperative, ⟨30100, by decide⟩, ⟨100, by decide⟩, ⟨100, by decide⟩⟩
    (greeting ⟨"msg_two", by decide⟩ ⟨90000, by decide⟩) (by decide) rfl rfl rfl
    rfl).1 rfl

end Psst
