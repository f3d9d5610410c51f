import Psst.Mcp.Dispatch
import Psst.Session.Supervisor

/-!
# What the session operations leave behind

A call that runs `join_and_bind`, `start` or `leave` picks the next slot by the result alone.
Here is what the files and the lifecycle are when each of them returns, with the answers it must
have got for that: a join that fails once its metadata is written, a start that finishes a leave
and a leave that fails after it was confirmed are where result and files part.
-/

namespace Psst

/-! ## Answers that keep result and files together -/

/-- The first heartbeat leads to a session. -/
def Arrival.beats (arrival : Arrival) : Bool :=
  match Client.heartbeat arrival with
  | .ok _ => true
  | .error e => e.leaseExpired

/-- The resume leads to a session of the profile. -/
def Arrival.resumes (profile : ProfileBinding) (arrival : Arrival) : Bool :=
  match Client.issued arrival with
  | .ok session => decide (profile.owns session)
  | .error _ => false

/-- The relay says that there is nothing to leave. -/
def Arrival.refusesLeave (arrival : Arrival) : Bool :=
  match Client.leave arrival with
  | .error (.api _ code _) => decide (code = .notMember ∨ code = .squadArchived)
  | _ => false

namespace ProfileSite

/-- A join is not let down once its metadata is on disk. -/
def joinFate (s : ProfileSite) : Action → Fate → Bool
  | .storeProfile _, .effect .unsynced => false
  | .loadJournal, .fail | .loadCredential, .fail | .send _, .refuse _ => s.disk.metadata.isNone
  | .storeCredential _, .effect e => s.disk.metadata.isNone || decide (e = .done)
  | .await call, .arrives arrival =>
    match s.disk.metadata, s.requests[call]? with
    | some _, some (.heartbeat _ _) => arrival.beats
    | some profile, some (.resume _ _ _) => arrival.resumes profile
    | _, _ => true
  | _, _ => true

/-- A start does not remove the metadata. -/
def startFate (s : ProfileSite) (a : Action) (fate : Fate) : Bool :=
  (s.perform none a fate).all fun (_, u) => decide (u.disk.metadata = s.disk.metadata)

/-- The relay has a membership to leave, and a confirmed leave is not let down. -/
def leaveFate (s : ProfileSite) : Action → Fate → Bool
  | .clearCredential, .effect e | .clearProfile, .effect e => decide (e = .done)
  | .removeJournal, .effect e => s.disk.metadata.isSome || decide (e = .done)
  | .drain .scheduler, .fail => false
  | .await call, .arrives arrival =>
    match s.requests[call]? with
    | some (.leave _ _) => !arrival.refusesLeave
    | _ => true
  | _, _ => true

end ProfileSite

/-! ## Operations among heartbeats -/

/-- An operation on `runtime` whose answers meet `ok`; between its actions the heartbeats of the
process go on. -/
def operationArena (runtime : Option Nat) (ok : ProfileSite → Action → Fate → Bool) :
    Arena Action Answer ProfileSite where
  perform a s r u := ∃ fate, ok s a fate = true ∧ s.perform runtime a fate = some (r, u)
  inv _ := True
  interferes s u := ∃ r after rotated, s.pulse r after rotated = some u
  guar _ _ := True

section Rules

variable {α : Type} {runtime : Option Nat} {ok : ProfileSite → Action → Fate → Bool}
  {Q : α → ProfileSite → Prop} {s : ProfileSite}

/-- **One action**, from a state that satisfies what the heartbeats keep. -/
theorem safe_action {a : Action} {k : Answer a → Run α} {K : ProfileSite → Prop}
    (hstable : ∀ s u r after rotated, K s → s.pulse r after rotated = some u → K u) (hs : K s)
    (h : ∀ t fate r u, K t → ok t a fate = true → t.perform runtime a fate = some (r, u) →
      (operationArena runtime ok).Safe Q (k r) u) :
    (operationArena runtime ok).Safe Q (.act a k) s := by
  rintro t hrely - r u ⟨fate, hok, hperform⟩
  have ht : K t := Arena.rely_keeps (T := operationArena runtime ok)
    (fun s u hK ⟨r, after, rotated, hpulse⟩ => hstable s u r after rotated hK hpulse) hrely hs
  exact ⟨trivial, trivial, h t fate r u ht hok hperform⟩

/-- The result, in a state that satisfies what the heartbeats keep. -/
theorem safe_result {a : α} {K : ProfileSite → Prop}
    (hstable : ∀ s u r after rotated, K s → s.pulse r after rotated = some u → K u) (hs : K s)
    (h : ∀ t, K t → Q a t) : (operationArena runtime ok).Safe Q (.ret a) s := by
  intro t hrely _
  exact h t (Arena.rely_keeps (T := operationArena runtime ok)
    (fun s u hK ⟨r, after, rotated, hpulse⟩ => hstable s u r after rotated hK hpulse) hrely hs)

end Rules

/-- Heartbeats do not touch the metadata and the journal, nor what is not theirs. -/
theorem ProfileSite.pulse_eq_some {s u : ProfileSite} {r : Nat} {after : LifecycleState}
    {rotated : Option Credential} (h : s.pulse r after rotated = some u) :
    ∃ live credential record, s.runtimes[r]? = some live ∧ live.lifecycle.beats after = true
      ∧ u = { s with
          disk := { s.disk with credential := record }
          runtimes := s.runtimes.set r ⟨live.profile, credential, after⟩ } := by
  simp only [pulse, Option.bind_eq_some_iff] at h
  obtain ⟨live, hlive, h⟩ := h
  split at h
  · rename_i hbeats
    cases h
    exact ⟨live, _, _, hlive, hbeats, rfl⟩
  · cases h

/-! ## Starting -/

/-- Whatever a start returns, the metadata is what it was. -/
theorem Starting.safe_start {α : Type} (p : Run α) {m : Option ProfileBinding} {s : ProfileSite}
    (hs : s.disk.metadata = m) :
    (operationArena none ProfileSite.startFate).Safe (fun _ u => u.disk.metadata = m) p s := by
  have hstable : ∀ s u r after rotated, s.disk.metadata = m →
      ProfileSite.pulse s r after rotated = some u → u.disk.metadata = m := by
    intro s u r after rotated hs hpulse
    obtain ⟨live, credential, record, -, -, rfl⟩ := ProfileSite.pulse_eq_some hpulse
    exact hs
  induction p generalizing s with
  | ret a => exact safe_result (K := fun s => s.disk.metadata = m) hstable hs fun _ ht => ht
  | act a k ih =>
      refine safe_action (K := fun s => s.disk.metadata = m) hstable hs ?_
      intro t fate r u ht hok hperform
      refine ih r ?_
      simp only [ProfileSite.startFate, hperform, Option.all_some, decide_eq_true_eq] at hok
      exact hok.trans ht

/-! ## Joining -/

/-- No runtime has a heartbeat left. -/
def ProfileSite.Quiet (s : ProfileSite) : Prop := ∀ live ∈ s.runtimes, live.lifecycle = .left

theorem ProfileSite.Quiet.no_pulse {s u : ProfileSite} (h : s.Quiet) {r : Nat}
    {after : LifecycleState} {rotated : Option Credential} :
    s.pulse r after rotated ≠ some u := by
  intro hpulse
  obtain ⟨live, -, -, hlive, hbeats, -⟩ := ProfileSite.pulse_eq_some hpulse
  rw [h live (List.mem_of_getElem? hlive)] at hbeats
  cases after <;> cases hbeats

/-- What a join leaves behind. -/
def JoinLeaves (result : Except SessionError Runtime) (s : ProfileSite) : Prop :=
  match result with
  | .ok _ => s.disk.metadata ≠ none
  | .error _ => s.disk.metadata = none ∧ s.disk.journal = none

namespace Joining

abbrev arena := operationArena none ProfileSite.joinFate

variable {α : Type} {Q : α → ProfileSite → Prop} {s : ProfileSite}

/-- Nothing happens between the actions of a join. -/
theorem safe_act {a : Action} {k : Answer a → Run α} (hs : s.Quiet)
    (h : ∀ fate r u, s.joinFate a fate = true → s.perform none a fate = some (r, u) →
      arena.Safe Q (k r) u) : arena.Safe Q (.act a k) s := by
  refine safe_action (K := fun t => t = s) ?_ rfl ?_
  · rintro t u r after rotated rfl hpulse
    exact absurd hpulse hs.no_pulse
  · rintro t fate r u rfl hok hperform
    exact h fate r u hok hperform

theorem safe_ret {a : α} (hs : s.Quiet) (h : Q a s) : arena.Safe Q (.ret a) s := by
  refine safe_result (K := fun t => t = s) ?_ rfl fun t ht => ht ▸ h
  rintro t u r after rotated rfl hpulse
  exact absurd hpulse hs.no_pulse

/-- A request and what becomes of it. -/
theorem safe_transport {request : Request} {f : Except ClientError Arrival → Run α} (hs : s.Quiet)
    (hrefused : ∀ e, s.joinFate (.send request) (.refuse e) = true → arena.Safe Q (f (.error e)) s)
    (harrives : ∀ arrival u, u = { s with requests := s.requests ++ [request] } →
      u.joinFate (.await s.requests.length) (.arrives arrival) = true →
      arena.Safe Q (f (.ok arrival)) u) : arena.Safe Q (transport request >>= f) s := by
  unfold transport
  simp only [Prog.perform_bind, Prog.act_bind]
  refine safe_act hs ?_
  intro fate r u hfate hperform
  cases fate with
  | refuse e =>
      obtain ⟨-, rfl, rfl⟩ := ProfileSite.perform_refuse hperform
      exact hrefused e hfate
  | plain =>
      cases hperform
      refine safe_act (s := { s with requests := s.requests ++ [request] }) hs ?_
      intro fate r u hfate hperform
      cases fate <;> cases hperform
      exact harrives _ _ rfl hfate
  | _ => cases hperform

/-- The two records of a new binding are on disk, and nothing else is. -/
def Bound (profile : ProfileBinding) (s : ProfileSite) : Prop :=
  s.Quiet ∧ s.disk.metadata = some profile ∧ s.disk.journal = none
    ∧ ∃ credential, s.disk.credential = some ⟨profile.credentialBinding, credential⟩

variable {profile : ProfileBinding} {mode : AgentMode} {client : ClientMetadata}

theorem Bound.stored (hs : Bound profile s) : s.disk.metadata.isNone = false := by
  rw [hs.2.1]
  rfl

theorem Bound.joinFate_heartbeat (hs : Bound profile s) {call : Nat} {request : HeartbeatRequest}
    {credential : Credential} (hcall : s.requests[call]? = some (.heartbeat request credential))
    (arrival : Arrival) : s.joinFate (.await call) (.arrives arrival) = arrival.beats := by
  unfold ProfileSite.joinFate
  dsimp only
  rw [hs.2.1, hcall]

theorem Bound.joinFate_resume (hs : Bound profile s) {call : Nat} {squad : SquadName}
    {request : ResumeSquadRequest} {credential : Credential}
    (hcall : s.requests[call]? = some (.resume squad request credential)) (arrival : Arrival) :
    s.joinFate (.await call) (.arrives arrival) = arrival.resumes profile := by
  unfold ProfileSite.joinFate
  dsimp only
  rw [hs.2.1, hcall]

/-- With the metadata on disk no file operation and no request fails. -/
theorem Bound.safe_transport {request : Request} {f : Except ClientError Arrival → Run α}
    (hs : Bound profile s)
    (harrives : ∀ arrival u, Bound profile u → u.requests[s.requests.length]? = some request →
      u.joinFate (.await s.requests.length) (.arrives arrival) = true →
      arena.Safe Q (f (.ok arrival)) u) : arena.Safe Q (transport request >>= f) s := by
  refine Joining.safe_transport hs.1 ?_ ?_
  · intro e hfate
    cases hs.stored.symm.trans hfate
  · rintro arrival u rfl hfate
    exact harrives arrival _ hs (by simp) hfate

theorem Bound.safe_resume {request : ResumeSquadRequest} {credential : Credential}
    (hs : Bound profile s) :
    arena.Safe (fun result u => Bound profile u ∧ ∃ session, result = .ok session)
      (resumeTransaction profile request credential) s := by
  unfold resumeTransaction
  refine Arena.Safe.bind ?_
  unfold Transport.resume
  refine hs.safe_transport ?_
  intro arrival u hu hcall hfate
  rw [hu.joinFate_resume hcall, Arrival.resumes] at hfate
  refine safe_ret hu.1 ?_
  cases hissued : Client.issued arrival with
  | error e => simp [hissued] at hfate
  | ok session =>
      simp only [hissued, decide_eq_true_eq] at hfate
      simp only [Except.bind, hissued]
      rw [if_neg]
      · simp only [Prog.perform_bind]
        refine safe_act hu.1 ?_
        intro fate r v hfate hperform
        cases fate with
        | effect e =>
            have hstored : (u.disk.metadata.isNone || decide (e = .done)) = true := hfate
            rw [hu.stored, Bool.false_or, decide_eq_true_eq] at hstored
            subst hstored
            cases hperform
            refine safe_ret hu.1 ⟨⟨hu.1, hu.2.1, hu.2.2.1, _, rfl⟩, session, rfl⟩
        | _ => cases hperform
      · rintro (hid | hname | hmember)
        · exact hid hfate.1
        · exact hname hfate.2.1
        · exact hmember hfate.2.2

theorem Bound.safe_loadJournal {k : Answer .loadJournal → Run α} (hs : Bound profile s)
    (h : arena.Safe Q (k (some none)) s) : arena.Safe Q (.act .loadJournal k) s := by
  refine safe_act hs.1 ?_
  intro fate r u hfate hperform
  cases fate <;> cases hperform
  · rw [hs.2.2.1]
    exact h
  · cases hs.stored.symm.trans hfate

theorem Bound.safe_loadCredential {k : Answer .loadCredential → Run α} (hs : Bound profile s)
    (h : ∀ credential, arena.Safe Q (k (some (some ⟨profile.credentialBinding, credential⟩))) s) :
    arena.Safe Q (.act .loadCredential k) s := by
  refine safe_act hs.1 ?_
  intro fate r u hfate hperform
  cases fate <;> cases hperform
  · obtain ⟨credential, hcredential⟩ := hs.2.2.2
    rw [hcredential]
    exact h credential
  · cases hs.stored.symm.trans hfate

theorem Bound.safe_started (hs : Bound profile s) (runtime : Runtime) :
    arena.Safe JoinLeaves (dropPending none runtime) s := by
  refine safe_ret hs.1 ?_
  show s.disk.metadata ≠ none
  simp [hs.2.1]

/-- Once its metadata is on disk, a join ends with a session. -/
theorem Bound.safe_startLocked (hs : Bound profile s) :
    arena.Safe JoinLeaves (startLocked ⟨profile, mode, client⟩) s := by
  unfold startLocked
  simp only [Prog.perform_bind]
  refine hs.safe_loadJournal ?_
  simp only [LeaveJournal.load, Option.any_none, Bool.false_eq_true, if_false]
  refine hs.safe_loadCredential ?_
  intro credential
  simp only [CredentialRecord.load, if_true]
  refine Arena.Safe.bind ?_
  unfold Transport.heartbeat
  refine hs.safe_transport ?_
  intro arrival u hu hcall hfate
  rw [hu.joinFate_heartbeat hcall, Arrival.beats] at hfate
  refine safe_ret hu.1 ?_
  show arena.Safe JoinLeaves (classifyHeartbeat _ none credential (Client.heartbeat arrival)) u
  generalize Client.heartbeat arrival = heartbeat at hfate ⊢
  unfold classifyHeartbeat
  split
  · exact hu.safe_started _
  · rename_i status code retryable
    have hexpired : code = .leaseExpired := by
      cases code <;> first | rfl | cases hfate
    subst hexpired
    rw [if_pos rfl]
    refine Arena.Safe.bind (hu.safe_resume.imp ?_)
    rintro _ v ⟨hv, session, rfl⟩
    exact hv.safe_started _
  · rename_i e hapi
    cases e <;> first | cases hfate | exact absurd rfl (hapi _ _ _)

/-- No record of the profile is on disk but perhaps a credential. -/
def Unbound (s : ProfileSite) : Prop :=
  s.Quiet ∧ s.disk.metadata = none ∧ s.disk.journal = none

theorem Unbound.safe_failed (hs : Unbound s) (e : SessionError) :
    arena.Safe JoinLeaves (.ret (.error e)) s :=
  safe_ret hs.1 hs.2

/-- The metadata is written if and only if it is reported written. -/
theorem Unbound.safe_bindProfile (hs : Unbound s) (credential : Credential) :
    arena.Safe (fun result u => match result with
      | .ok _ => Bound profile u
      | .error _ => Unbound u) (bindProfile profile credential) s := by
  unfold bindProfile
  simp only [Prog.perform_bind]
  refine safe_act hs.1 ?_
  intro fate r u _ hperform
  cases fate with
  | effect e =>
      cases hperform
      cases e with
      | failed | unsynced => exact safe_ret hs.1 hs
      | done =>
          refine safe_act (s := s.setDisk _) hs.1 ?_
          intro fate r u hfate hperform
          cases fate with
          | effect e =>
              cases hperform
              cases e with
              | done => exact safe_ret hs.1 ⟨hs.1, rfl, hs.2.2, credential, rfl⟩
              | unsynced => cases hfate
              | failed =>
                  refine safe_act (s := s.setDisk _) hs.1 ?_
                  intro fate r u _ hperform
                  cases fate with
                  | effect e =>
                      cases hperform
                      cases e <;> exact safe_ret hs.1 hs
                  | _ => cases hperform
          | _ => cases hperform
  | _ => cases hperform

end Joining

/-- **What a join leaves behind**, if it was not let down after its metadata was written. -/
theorem Joining.safe_joinAndBind {s : ProfileSite} (hquiet : s.Quiet) (hmetadata : s.disk.metadata = none)
    (hjournal : s.disk.journal = none) (spec : UnboundRuntimeSpec) (request : JoinSquadRequest) :
    Joining.arena.Safe JoinLeaves (joinAndBind spec request) s := by
  have hs : Joining.Unbound s := ⟨hquiet, hmetadata, hjournal⟩
  unfold joinAndBind
  simp only [Prog.perform_bind]
  refine Joining.safe_act hquiet ?_
  intro fate r u _ hperform
  cases fate <;> cases hperform
  simp only [hmetadata, Option.isSome_none, Bool.false_eq_true, if_false]
  refine Joining.safe_act hquiet ?_
  intro fate r u _ hperform
  cases fate <;> cases hperform
  split
  · exact hs.safe_failed _
  refine Arena.Safe.bind ?_
  unfold Transport.join
  refine Joining.safe_transport hquiet ?_ ?_
  · intro e _
    exact Joining.safe_ret hquiet (hs.safe_failed _)
  · rintro arrival u rfl -
    refine Joining.safe_ret hquiet ?_
    have hu : Joining.Unbound { s with requests := s.requests ++ [.join spec.squad request] } := hs
    have hanswer : (Except.ok arrival : Except ClientError Arrival).bind Client.issued
        = Client.issued arrival := rfl
    rw [hanswer]
    cases Client.issued arrival with
    | error e => exact hu.safe_failed _
    | ok session =>
        dsimp only
        split
        · exact hu.safe_failed _
        · refine Arena.Safe.bind ((hu.safe_bindProfile session.credential).imp ?_)
          rintro (e | ⟨⟩) v hv
          · exact Joining.Unbound.safe_failed hv e
          · exact Joining.Bound.safe_startLocked hv

/-! ## Leaving -/

/-- Whether runtime `r` has left, if there is such a runtime. -/
def ProfileSite.hasLeft (s : ProfileSite) (r : Nat) : Option Bool :=
  (s.runtimes[r]?).map fun live => decide (live.lifecycle = .left)

/-- What a leave of runtime `r` goes by is nothing a heartbeat touches. -/
theorem ProfileSite.pulse_view {s u : ProfileSite} {r' : Nat} {after : LifecycleState}
    {rotated : Option Credential} (h : s.pulse r' after rotated = some u) (r : Nat) :
    u.disk.metadata = s.disk.metadata ∧ u.disk.journal = s.disk.journal
      ∧ u.hasLeft r = s.hasLeft r := by
  obtain ⟨live, credential, record, hlive, hbeats, rfl⟩ := ProfileSite.pulse_eq_some h
  refine ⟨rfl, rfl, ?_⟩
  have hbefore : live.lifecycle ≠ .left := by
    intro hleft
    rw [hleft] at hbeats
    cases after <;> cases hbeats
  have hafter : after ≠ .left := by
    rintro rfl
    cases hlifecycle : live.lifecycle <;> rw [hlifecycle] at hbeats <;> cases hbeats
  by_cases hr : r' = r
  · subst hr
    obtain ⟨hlt, -⟩ := List.getElem?_eq_some_iff.mp hlive
    simp only [hasLeft, List.getElem?_set_self hlt, hlive, Option.map_some, hbefore, hafter]
  · simp [hasLeft, hr]

/-- What a leave of runtime `r` leaves behind. -/
def LeaveLeaves (r : Nat) (result : Except SessionError LeaveSquadResponse) (s : ProfileSite) :
    Prop :=
  match result with
  | .ok _ => s.disk.metadata = none ∧ s.disk.journal = none ∧ s.hasLeft r = some true
  | .error _ => s.disk.metadata ≠ none ∧ s.hasLeft r = some false

namespace Leaving

abbrev arena (r : Nat) := operationArena (some r) ProfileSite.leaveFate

/-- A condition on what a leave goes by. -/
abbrev View := Option ProfileBinding → Option LeaveJournal → Option Bool → Prop

/-- The condition holds of runtime `r` here. -/
def At (r : Nat) (K : View) (s : ProfileSite) : Prop :=
  K s.disk.metadata s.disk.journal (s.hasLeft r)

variable {α : Type} {r : Nat} {Q : α → ProfileSite → Prop} {K : View} {s : ProfileSite}

theorem at_stable (s u : ProfileSite) (r' : Nat) (after : LifecycleState)
    (rotated : Option Credential) (hs : At r K s) (hpulse : s.pulse r' after rotated = some u) :
    At r K u := by
  obtain ⟨hmetadata, hjournal, hleft⟩ := ProfileSite.pulse_view hpulse r
  unfold At
  rw [hmetadata, hjournal, hleft]
  exact hs

theorem safe_act {a : Action} {k : Answer a → Run α} (hs : At r K s)
    (h : ∀ t fate x u, At r K t → t.leaveFate a fate = true →
      t.perform (some r) a fate = some (x, u) → (arena r).Safe Q (k x) u) :
    (arena r).Safe Q (.act a k) s :=
  safe_action at_stable hs h

theorem safe_ret {a : α} (hs : At r K s) (h : ∀ t, At r K t → Q a t) :
    (arena r).Safe Q (.ret a) s :=
  safe_result at_stable hs h

/-- The actions that do not change what a leave goes by. -/
def neutral : Action → Bool
  | .now | .random | .drain _ | .shutdownRequested | .lockHeartbeat | .credential => true
  | .send _ | .await _ => true
  | _ => false

theorem perform_neutral {a : Action} (ha : neutral a = true) {fate : Fate} {x : Answer a}
    {u : ProfileSite} (h : s.perform (some r) a fate = some (x, u)) (hs : At r K s) :
    At r K u := by
  cases a with
  | now | random | drain | shutdownRequested | lockHeartbeat | await =>
      cases fate <;> cases h <;> exact hs
  | credential =>
      cases fate with
      | plain =>
          obtain ⟨live, -, heq⟩ := Option.map_eq_some_iff.mp h
          cases heq
          exact hs
      | _ => cases h
  | send request =>
      cases fate with
      | plain =>
          cases h
          exact hs
      | refuse e =>
          obtain ⟨-, -, rfl⟩ := ProfileSite.perform_refuse h
          exact hs
      | _ => cases h
  | _ => cases ha

/-- An action that changes nothing, whatever it is answered. -/
theorem safe_neutral {a : Action} {k : Answer a → Run α} (ha : neutral a = true)
    (hs : At r K s) (h : ∀ x u, At r K u → (arena r).Safe Q (k x) u) :
    (arena r).Safe Q (.act a k) s :=
  safe_act hs fun _ _ x u ht _ hperform => h x u (perform_neutral ha hperform ht)

/-- The lifecycle is set. -/
theorem safe_setLifecycle {state : LifecycleState} {k : Answer (.setLifecycle state) → Run α}
    (hs : At r K s) {T : View}
    (hK : ∀ m j b, K m j (some b) → T m j (some (decide (state = .left))))
    (h : ∀ u, At r T u → (arena r).Safe Q (k ()) u) :
    (arena r).Safe Q (.act (.setLifecycle state) k) s := by
  refine safe_act hs ?_
  intro t fate x u ht _ hperform
  cases fate with
  | plain =>
      obtain ⟨live, hlive, heq⟩ := Option.map_eq_some_iff.mp hperform
      cases heq
      refine h _ ?_
      have hfound : t.runtimes[r]? = some live := hlive
      obtain ⟨hlt, -⟩ := List.getElem?_eq_some_iff.mp hfound
      unfold At at ht ⊢
      simp only [ProfileSite.hasLeft, hfound, Option.map_some] at ht
      simp only [ProfileSite.setLifecycle, ProfileSite.hasLeft, List.getElem?_set_self hlt,
        Option.map_some]
      exact hK _ _ _ ht
  | _ => cases hperform

/-- The session goes on. -/
def staying : View := fun metadata _ left => metadata ≠ none ∧ left = some false

/-- A leave that ends with an error has left the session as it was. -/
theorem safe_failed (hs : At r staying s) (e : SessionError) :
    (arena r).Safe (LeaveLeaves r) (.ret (.error e)) s :=
  safe_ret hs fun _ ht => ht

theorem safe_rollbackLeave {Q : Unit → ProfileSite → Prop} (hs : At r staying s)
    (h : ∀ u, At r staying u → Q () u) : (arena r).Safe Q rollbackLeave s := by
  unfold rollbackLeave
  simp only [Prog.perform_bind]
  refine safe_neutral rfl hs ?_
  intro down u hu
  split
  · exact safe_ret hu h
  refine safe_neutral rfl hu ?_
  intro down u hu
  split
  · exact safe_ret hu h
  refine safe_setLifecycle (T := staying) hu (fun _ _ _ h => ⟨h.1, rfl⟩) ?_
  intro u hu
  exact safe_ret hu h

theorem safe_giveUpLeave (hs : At r staying s) (e : SessionError) :
    (arena r).Safe (LeaveLeaves r) (giveUpLeave e) s := by
  unfold giveUpLeave
  simp only [Prog.perform_bind]
  refine safe_setLifecycle (T := staying) hs (fun _ _ _ h => ⟨h.1, rfl⟩) ?_
  intro u hu
  exact safe_failed hu e

/-- The journal may say anything. -/
theorem safe_storeJournal {Q : Except IoError Unit → ProfileSite → Prop} (journal : LeaveJournal)
    (hs : At r staying s) (h : ∀ result u, At r staying u → Q result u) :
    (arena r).Safe Q (storeJournal journal) s := by
  unfold storeJournal
  split
  · exact safe_ret hs fun t ht => h _ t ht
  simp only [Prog.perform_bind]
  refine safe_act hs ?_
  intro t fate x u ht _ hperform
  have hu : At r staying u := by
    cases fate with
    | effect e =>
        cases hperform
        cases e <;> exact ht
    | _ => cases hperform
  cases x with
  | none => exact safe_ret hu fun t ht => h _ t ht
  | some _ => exact safe_ret hu fun t ht => h _ t ht

theorem safe_journalIntent {Q : Except IoError LeaveJournal → ProfileSite → Prop}
    (profile : ProfileBinding) (hs : At r staying s) (h : ∀ result u, At r staying u → Q result u) :
    (arena r).Safe Q (journalIntent profile) s := by
  unfold journalIntent
  simp only [Prog.perform_bind]
  refine safe_neutral rfl hs ?_
  rintro (_ | random) u hu
  · exact safe_ret hu fun t ht => h _ t ht
  refine safe_neutral rfl hu ?_
  rintro (_ | now) u hu
  · exact safe_ret hu fun t ht => h _ t ht
  dsimp only
  split
  · exact safe_ret hu fun t ht => h _ t ht
  · refine Arena.Safe.bind (safe_storeJournal _ hu ?_)
    rintro (e | ⟨⟩) u hu
    · exact safe_ret hu fun t ht => h _ t ht
    · exact safe_ret hu fun t ht => h _ t ht

theorem safe_journalConfirmation {Q : Except IoError Unit → ProfileSite → Prop}
    (intent : LeaveJournal) (hs : At r staying s) (h : ∀ result u, At r staying u → Q result u) :
    (arena r).Safe Q (journalConfirmation intent) s := by
  unfold journalConfirmation
  simp only [Prog.perform_bind]
  refine safe_neutral rfl hs ?_
  rintro (_ | now) u hu
  · exact safe_ret hu fun t ht => h _ t ht
  dsimp only
  split
  · exact safe_ret hu fun t ht => h _ t ht
  · exact safe_storeJournal _ hu h

/-- No step of the cleanup fails. -/
theorem safe_cleanup (hs : At r staying s) :
    (arena r).Safe (fun result u => result = .ok ()
      ∧ At r (fun m j left => m = none ∧ j = none ∧ left = some false) u)
      cleanupConfirmedLeave s := by
  unfold cleanupConfirmedLeave
  simp only [Prog.perform_bind]
  refine safe_act hs ?_
  intro t fate x u ht hfate hperform
  cases fate with
  | effect e =>
      have hdone : e = .done := of_decide_eq_true hfate
      subst hdone
      cases hperform
      refine safe_act (K := staying) (s := t.setDisk _) ht ?_
      intro t fate x u ht hfate hperform
      cases fate with
      | effect e =>
          have hdone : e = .done := of_decide_eq_true hfate
          subst hdone
          cases hperform
          refine safe_act (K := fun m _ left => m = none ∧ left = some false)
            (s := t.setDisk _) ⟨rfl, ht.2⟩ ?_
          intro t fate x u ht hfate hperform
          cases fate with
          | effect e =>
              have hdone : (t.disk.metadata.isSome || decide (e = .done)) = true := hfate
              rw [ht.1, Option.isSome_none, Bool.false_or, decide_eq_true_eq] at hdone
              subst hdone
              cases hperform
              exact safe_ret (K := fun m j left => m = none ∧ j = none ∧ left = some false)
                (s := t.setDisk _) ⟨ht.1, rfl, ht.2⟩ fun v hv => ⟨rfl, hv⟩
          | _ => cases hperform
      | _ => cases hperform
  | _ => cases hperform

/-- A leave the relay accepted, once confirmed, ends well. -/
theorem safe_finishLeave (hs : At r staying s) (intent : LeaveJournal)
    (response : LeaveSquadResponse) :
    (arena r).Safe (LeaveLeaves r) (finishLeave intent (.ok response)) s := by
  unfold finishLeave
  refine Arena.Safe.bind (safe_journalConfirmation intent hs ?_)
  rintro (e | ⟨⟩) u hu
  · exact safe_giveUpLeave hu _
  refine Arena.Safe.bind ((safe_cleanup hu).imp ?_)
  rintro _ v ⟨rfl, hv⟩
  simp only [Prog.perform_bind]
  refine safe_setLifecycle (T := fun m j left => m = none ∧ j = none ∧ left = some true) hv
    (fun _ _ _ h => ⟨h.1, h.2.1, rfl⟩) ?_
  intro v hv
  refine safe_act hv ?_
  intro t fate x u ht hfate hperform
  cases fate <;> cases hperform
  · exact safe_ret ht fun t ht => ht
  · cases hfate

/-- The answer to a leave is not that there is nothing to leave. -/
theorem safe_transport {Q : Except ClientError LeaveSquadResponse → ProfileSite → Prop}
    (squad : SquadName) (credential : Credential) (hs : At r staying s)
    (h : ∀ result u, At r staying u →
      (∀ status code retryable, result = .error (.api status code retryable) →
        code ≠ .notMember ∧ code ≠ .squadArchived) → Q result u) :
    (arena r).Safe Q (Transport.leave squad credential) s := by
  unfold Transport.leave transport
  simp only [Prog.perform_bind, Prog.act_bind]
  refine safe_act hs ?_
  intro t fate x u ht _ hperform
  cases fate with
  | refuse e =>
      obtain ⟨hbefore, rfl, rfl⟩ := ProfileSite.perform_refuse hperform
      refine safe_ret ht fun v hv => h _ v hv ?_
      rintro status code retryable ⟨⟩
      cases hbefore
  | plain =>
      cases hperform
      -- the call is the request just made, whatever was asked in between
      refine safe_action (K := fun v => At r staying v
        ∧ v.requests[t.requests.length]? = some (.leave squad credential)) ?_ ⟨ht, by simp⟩ ?_
      · rintro v u r' after rotated ⟨hv, hcall⟩ hpulse
        refine ⟨at_stable v u r' after rotated hv hpulse, ?_⟩
        obtain ⟨live, c, record, -, -, rfl⟩ := ProfileSite.pulse_eq_some hpulse
        exact hcall
      · rintro v fate x u ⟨hv, hcall⟩ hfate hperform
        cases fate <;> cases hperform
        simp only [ProfileSite.leaveFate, hcall, Bool.not_eq_true'] at hfate
        refine safe_ret hv fun y hy => h _ y hy ?_
        intro status code retryable hanswer
        have hleave : Client.leave x = .error (.api status code retryable) := hanswer
        simpa [Arrival.refusesLeave, hleave] using hfate
  | _ => cases hperform

theorem safe_classifyLeave (hs : At r staying s) (profile : ProfileBinding)
    (intent : LeaveJournal) {result : Except ClientError LeaveSquadResponse}
    (hresult : ∀ status code retryable, result = .error (.api status code retryable) →
      code ≠ .notMember ∧ code ≠ .squadArchived) :
    (arena r).Safe (LeaveLeaves r) (classifyLeave profile intent result) s := by
  unfold classifyLeave
  split
  · split
    · exact safe_finishLeave hs intent _
    · exact safe_giveUpLeave hs _
  · rename_i status code retryable
    obtain ⟨hmember, harchived⟩ := hresult status code retryable rfl
    rw [if_neg (not_or.mpr ⟨hmember, harchived⟩)]
    simp only [Prog.perform_bind]
    refine safe_act hs ?_
    intro t fate x u ht _ hperform
    have hu : At r staying u := by
      cases fate with
      | effect e =>
          cases hperform
          cases e <;> exact ht
      | _ => cases hperform
    cases x with
    | none => exact safe_giveUpLeave hu _
    | some _ =>
        refine Arena.Safe.bind (safe_rollbackLeave hu ?_)
        intro v hv
        exact safe_failed hv _
  · exact safe_giveUpLeave hs _

theorem safe_beginLeave (hs : At r staying s) :
    (arena r).Safe (fun _ u => At r staying u) beginLeave s := by
  unfold beginLeave
  simp only [Prog.perform_bind]
  refine safe_act hs ?_
  intro t fate x u ht _ hperform
  cases fate with
  | plain =>
      obtain ⟨live, hlive, heq⟩ := Option.map_eq_some_iff.mp hperform
      cases heq
      have hfound : t.runtimes[r]? = some live := hlive
      obtain ⟨hlt, -⟩ := List.getElem?_eq_some_iff.mp hfound
      have hstays : live.lifecycle ≠ .left := by
        have hleft := ht.2
        simp only [ProfileSite.hasLeft, hfound, Option.map_some] at hleft
        simpa using hleft
      have hu : At r staying (if live.lifecycle = .ready
          then t.setLifecycle (some r) live .leaving else t) := by
        split
        · refine ⟨ht.1, ?_⟩
          simp only [ProfileSite.setLifecycle, ProfileSite.hasLeft, List.getElem?_set_self hlt,
            Option.map_some]
          rfl
        · exact ht
      split
      · exact safe_ret hu fun _ h => h
      · rename_i hleft
        exact absurd hleft hstays
      · exact safe_ret hu fun _ h => h
  | _ => cases hperform

end Leaving

/-- **What a leave leaves behind**, if the relay had a membership to leave and the cleanup did not
fail. -/
theorem Leaving.safe_leaveSession {r : Nat} {s : ProfileSite} (hmetadata : s.disk.metadata ≠ none)
    (hleft : s.hasLeft r = some false) (profile : ProfileBinding) :
    (Leaving.arena r).Safe (LeaveLeaves r) (leaveSession profile) s := by
  have hs : Leaving.At r Leaving.staying s := ⟨hmetadata, hleft⟩
  unfold leaveSession
  simp only [Prog.perform_bind]
  refine Leaving.safe_neutral rfl hs ?_
  rintro (_ | _) u hu
  · exact Leaving.safe_failed hu _
  refine Arena.Safe.bind ((Leaving.safe_beginLeave hu).imp ?_)
  rintro (e | ⟨⟩) u hu
  · exact Leaving.safe_failed hu _
  refine Leaving.safe_neutral rfl hu ?_
  rintro (_ | _) u hu
  · refine Arena.Safe.bind (Leaving.safe_rollbackLeave hu ?_)
    intro v hv
    exact Leaving.safe_failed hv _
  refine Leaving.safe_neutral rfl hu ?_
  intro _ u hu
  refine Leaving.safe_neutral rfl hu ?_
  intro credential u hu
  refine Arena.Safe.bind (Leaving.safe_journalIntent profile hu ?_)
  rintro (e | intent) u hu
  · refine Arena.Safe.bind (Leaving.safe_rollbackLeave hu ?_)
    intro v hv
    exact Leaving.safe_failed hv _
  · refine Arena.Safe.bind (Leaving.safe_transport _ _ hu ?_)
    intro result v hv hresult
    exact Leaving.safe_classifyLeave hv profile intent hresult

end Psst
