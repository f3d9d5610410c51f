import Psst.Relay.Command

/-!
# Credentials the relay does not know

Every authenticated command validates its request, then looks the credential up, and only
then anything else. A credential that authenticates nobody is therefore answered from the
request alone: the answer is the same whatever the store holds.
-/

namespace Psst

/-- The credential a command presents; a resume presents the one it replaces. -/
def StoreCommand.credential : StoreCommand → Option Credential
  | .join _ | .listSquads | .createSquad _ | .describeSquad _ => none
  | .roster credential _ => some credential
  | .heartbeat credential _ _ _ => some credential
  | .send credential _ => some credential
  | .pending credential _ => some credential
  | .acknowledge credential _ => some credential
  | .transcript credential _ => some credential
  | .leave credential _ => some credential
  | .archive credential _ => some credential
  | .resume request => some request.prior

/-- The instance of the credential belongs to a membership that has left. -/
def Store.Departed (s : Store) (credential : Credential) : Prop :=
  ∃ i ∈ s.instances, i.id = credential.instanceId
    ∧ ∃ m ∈ s.memberships, m.id = i.membershipId ∧ m.leftAt ≠ none

instance (s : Store) (credential : Credential) : Decidable (s.Departed credential) :=
  inferInstanceAs (Decidable (∃ i ∈ s.instances, _))

section Refusal

variable [Sha256] {s t : Store}

/-- The instance is unknown, or the token is none the instance can have been issued with. -/
inductive Store.Unauthenticated (s : Store) (credential : Credential) : Prop where
  | unknownInstance (hunknown : ∀ i ∈ s.instances, i.id ≠ credential.instanceId)
  | wrongToken (i : InstanceRow) (hi : i ∈ s.instances) (hid : i.id = credential.instanceId)
      (hwrong : ∀ issued, i.resumeTokenHash = tokenHash issued →
        issued ≠ credential.resumeToken)

/-- Without collisions, an instance issued with one token is not authenticated by another. -/
theorem Store.Unauthenticated.of_issued {credential : Credential} {i : InstanceRow}
    {issued : ResumeToken} (hi : i ∈ s.instances) (hid : i.id = credential.instanceId)
    (hhash : i.resumeTokenHash = tokenHash issued) (hne : issued ≠ credential.resumeToken)
    (hfree : tokenHash issued = tokenHash credential.resumeToken →
      issued = credential.resumeToken) : s.Unauthenticated credential := by
  refine .wrongToken i hi hid fun other hother heq => hne (hfree ?_)
  rw [← hhash, hother, heq]

/-- The command gets no further than its credential: the credential authenticates nobody, or
it resumes a membership that has left. -/
inductive Store.Bars (s : Store) : StoreCommand → Prop where
  | unauthenticated {command : StoreCommand} {credential : Credential}
      (hcredential : command.credential = some credential)
      (h : s.Unauthenticated credential) : Bars s command
  | departed {request : WorkerResume} (h : s.Departed request.prior) : Bars s (.resume request)

theorem Store.Unauthenticated.not_authenticates {credential : Credential}
    (h : s.Unauthenticated credential) {i : InstanceRow} (hi : i ∈ s.instances)
    (hid : i.id = credential.instanceId) :
    ¬ authenticates i.resumeTokenHash credential.resumeToken := by
  cases h with
  | unknownInstance hunknown => exact absurd hid (hunknown i hi)
  | wrongToken j hj hjid hwrong =>
      have hij : i = j := s.constraints.instanceId.eq hi hj (hid.trans hjid.symm)
      subst hij
      exact fun htoken => hwrong _ htoken rfl

/-! ## The two lookups -/

theorem authenticateHistorical_refuses (credential : Credential) (now : UnixMillis) :
    (authenticateHistorical (session credential now)).Refuses
      fun s => s.Unauthenticated credential := by
  refine ⟨.notFound, fun s hs => ?_⟩
  rw [authenticateHistorical, Tx.run_query_bind]
  cases hjoin : s.instanceJoin (session credential now).instanceId with
  | none => rfl
  | some row =>
      obtain ⟨i, m⟩ := row
      obtain ⟨⟨hi, hid⟩, -⟩ := Store.instanceJoin_eq_some.mp hjoin
      rw [Tx.run_bind_of_ok s (Tx.run_expect_some s _ _), Tx.run_require_bind]
      exact if_neg (hs.not_authenticates hi hid)

theorem authorizeCurrent_refuses (credential : Credential) (now : UnixMillis) :
    (authorizeCurrent (session credential now)).Refuses
      fun s => s.Unauthenticated credential :=
  (authenticateHistorical_refuses credential now).bind

omit [Sha256] in
/-- The check of an observation does not look at the store. -/
theorem validateObservation_eq_require (availability : Availability)
    (source : AvailabilitySource) (observedAt : UnixMillis) :
    validateObservation availability source observedAt
      = Tx.require (availability = .unknown ↔ source = .unknown) .invalidRequest := by
  funext s
  unfold validateObservation AvailabilityObservation.new Tx.require
  by_cases h : availability = .unknown ↔ source = .unknown
  · simp only [dif_pos h, if_pos h]
    rfl
  · simp only [dif_neg h, if_neg h]
    rfl

/-- A resume that authenticates nobody, or whose membership left, is not found. -/
theorem authenticatedResume_refuses (request : WorkerResume) (now : UnixMillis) :
    (authenticatedResume (request.atNow now)).Refuses fun s => s.Bars (.resume request) := by
  rw [authenticatedResume, validateClient, validateObservation_eq_require]
  refine Tx.Refuses.require_bind (Tx.Refuses.require_bind ⟨.notFound, fun s hs => ?_⟩)
  rw [Tx.run_query_bind]
  cases hjoin : (s.instanceJoinSquad (request.atNow now).priorInstance).filter
      fun r => r.2.1.joined with
  | none => rfl
  | some row =>
      obtain ⟨i, m, q⟩ := row
      obtain ⟨hrow, hjoined⟩ := Option.filter_eq_some_iff.mp hjoin
      obtain ⟨⟨⟨hi, hid⟩, hm, hmid⟩, -⟩ := Store.instanceJoinSquad_eq_some.mp hrow
      rw [Tx.run_bind_of_ok s (Tx.run_expect_some s _ _), Tx.run_require_bind]
      cases hs with
      | unauthenticated hcredential h =>
          cases hcredential
          exact if_neg (h.not_authenticates hi hid)
      | departed h =>
          obtain ⟨j, hj, hjid, n, hn, hnid, hleft⟩ := h
          have hij : i = j := s.constraints.instanceId.eq hi hj (hid.trans hjid.symm)
          subst hij
          have hmn : m = n := s.constraints.membershipId.eq hm hn (hmid.trans hnid.symm)
          subst hmn
          exact absurd (MembershipRow.joined_iff.mp hjoined) hleft

/-! ## Every command -/

theorem Store.Bars.unauthenticated_of {command : StoreCommand} {credential : Credential}
    (h : s.Bars command) (hcredential : command.credential = some credential)
    (hnot : ∀ request, command ≠ .resume request) : s.Unauthenticated credential := by
  cases h with
  | unauthenticated hcredential' h =>
      rw [hcredential] at hcredential'
      cases hcredential'
      exact h
  | departed h => exact absurd rfl (hnot _)

omit [Sha256] in
theorem Store.answer_refuses {α : Type} {x : StoreTx α} {P : Store → Prop} (h : x.Refuses P)
    (reply : α → Reply) : ∃ e, ∀ s : Store, P s → s.answer x reply = (.error e, s) := by
  obtain ⟨e, he⟩ := h
  refine ⟨e, fun s hs => ?_⟩
  simp only [Store.answer, Tx.commit_of_error (he s hs)]
  rfl

/-- **A barred command is answered from the request alone.** -/
theorem Store.execute_barred (command : StoreCommand) (now : UnixMillis)
    (generated : Option ResumeToken) :
    ∃ e, ∀ s : Store, s.Bars command → s.execute command now generated = (.error e, s) := by
  have hbars : ∀ {α : Type} {x : StoreTx α} {credential : Credential} {reply : α → Reply},
      command.credential = some credential → (∀ request, command ≠ .resume request) →
      x.Refuses (fun s => s.Unauthenticated credential) →
      ∃ e, ∀ s : Store, s.Bars command → s.answer x reply = (.error e, s) := by
    intro α x credential reply hcredential hnot hx
    obtain ⟨e, he⟩ := Store.answer_refuses hx reply
    exact ⟨e, fun s hs => he s (hs.unauthenticated_of hcredential hnot)⟩
  cases command with
  | roster credential name =>
      exact hbars rfl (fun _ h => by cases h) (authenticateHistorical_refuses credential now).bind
  | heartbeat credential availability source policy =>
      refine hbars rfl (fun _ h => by cases h) ?_
      rw [authenticatedHeartbeat, validateObservation_eq_require]
      exact (authorizeCurrent_refuses credential now).bind.require_bind
  | send credential request =>
      exact hbars rfl (fun _ h => by cases h) (authenticateHistorical_refuses credential now).bind
  | pending credential limit =>
      exact hbars rfl (fun _ h => by cases h) (authorizeCurrent_refuses credential now).bind
  | acknowledge credential ids =>
      exact hbars rfl (fun _ h => by cases h) (authorizeCurrent_refuses credential now).bind
  | transcript credential query =>
      exact hbars rfl (fun _ h => by cases h)
        (authorizeCurrent_refuses credential now).bind.require_bind
  | leave credential squad =>
      exact hbars rfl (fun _ h => by cases h) (authorizeCurrent_refuses credential now).bind
  | archive credential squad =>
      exact hbars rfl (fun _ h => by cases h) (authorizeCurrent_refuses credential now).bind
  | resume request => exact Store.answer_refuses (authenticatedResume_refuses request now) _
  | _ =>
      refine ⟨.internal, fun s hs => ?_⟩
      cases hs with
      | unauthenticated hcredential _ => cases hcredential

/-- **Bad credentials learn nothing and change nothing.** Two stores that both bar a command
answer it alike, and neither changes. -/
theorem bad_credentials_learn_nothing (command : StoreCommand) (now : UnixMillis)
    (generated : Option ResumeToken) (hs : s.Bars command) (ht : t.Bars command) :
    (s.execute command now generated).1 = (t.execute command now generated).1
      ∧ (s.execute command now generated).2 = s ∧ (t.execute command now generated).2 = t := by
  obtain ⟨e, he⟩ := Store.execute_barred command now generated
  rw [he s hs, he t ht]
  exact ⟨rfl, rfl, rfl⟩

end Refusal

open Sample in
/-- Alice's credential after her leave, and the same credential on an empty store. -/
theorem bad_credentials_learn_nothing_alice :
    let request : WorkerResume :=
      { prior := ⟨aliceInstance, aliceToken⟩, squad := alpha, newInstance := bobInstance,
        mode := .cooperative, clientKind := "test", hostname := none, availability := .unknown,
        availabilitySource := .unknown, leasePolicy := .default }
    let left := Store.empty.run [aliceJoins, .authenticatedLeave (aliceAt ⟨120, by decide⟩) alpha]
    (left.execute (.resume request) ⟨130, by decide⟩ none).1
        = (Store.empty.execute (.resume request) ⟨130, by decide⟩ none).1
      ∧ (left.execute (.resume request) ⟨130, by decide⟩ none).2 = left
      ∧ (Store.empty.execute (.resume request) ⟨130, by decide⟩ none).2 = Store.empty :=
  bad_credentials_learn_nothing _ _ _ (.departed (by decide))
    (.unauthenticated rfl (.unknownInstance (fun _ hi => by cases hi)))

end Psst
