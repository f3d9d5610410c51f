import Psst.Session.Rule

/-!
# The programs keep the promise

Every session program, in every place the others may have moved, keeps the invariant, leaves
the other thread's state alone and removes only what may go. One lemma per function of
`session.rs`.
-/

namespace Psst

/-- The credential on disk is this one. -/
def Disk.Keeps (profile : ProfileBinding) (credential : Credential) (d : Disk) : Prop :=
  d.credential = some ⟨profile.credentialBinding, credential⟩

namespace Site

variable [Sha256] {m : Mode} {slot : Slot} {w t u : Site}

/-- A property of the owner's state that the others cannot end. -/
structure Lasting (m : Mode) (slot : Slot) (K : Site → Prop) : Prop where
  owner : ∀ w, K w → w.owner = some slot
  later : ∀ w t, K w → w.Later m slot t → K t

theorem Lasting.ret {K : Site → Prop} (hK : Lasting m slot K) (hw : K w) {α : Type} {a : α}
    {Q : α → Site → Prop} (hQ : ∀ t, K t → Q a t) : (arena m slot).Safe Q (.ret a) w :=
  fun t hrely _ => hQ t (hK.later w t hw (rely_later (hK.owner w hw) hrely))

/-- The owner's files stay as they are. -/
theorem Lasting.disk {K : Site → Prop} (hK : Lasting m slot K) (D : Disk → Prop) :
    Lasting m slot fun w => K w ∧ D w.disk where
  owner w h := hK.owner w h.1
  later w t h hlater := ⟨hK.later w t h.1 hlater, hlater.toSame.disk ▸ h.2⟩

/-! ## The journal -/

section Journal

variable {K : Site → Prop}

theorem safe_storeJournal {j : LeaveJournal} (hK : Lasting m .operation K)
    (hjournal : ∀ w journal, K w → K (w.setJournal journal))
    (hinv : ∀ w, K w → w.Inv m → j.Loads j.binding → Inv m (w.setJournal (some j))) (hw : K w) :
    (arena m .operation).Safe
      (fun result t => K t ∧ (result = .ok () → t.disk.journal = some j)) (storeJournal j) w := by
  unfold storeJournal
  cases hrecord : j.validateRecord with
  | error e => exact hK.ret hw fun t ht => ⟨ht, fun heq => by cases heq⟩
  | ok _ =>
  have hloads : j.Loads j.binding := ⟨hrecord, rfl⟩
  refine safe_write Effect.reported (fun d => { d with journal := some j })
    (fun _ _ _ _ => perform_storeJournal) (hK.owner w hw) ?_ ?_
  · intro t hlater ht e _ _
    exact ⟨hinv t (hK.later w t hw hlater) ht hloads, fun _ => .of_kept rfl rfl⟩
  intro t hlater ht e _
  have hkt := hK.later w t hw hlater
  cases e with
  | failed => exact hK.ret hkt fun t ht => ⟨ht, fun heq => by cases heq⟩
  | unsynced =>
      exact hK.ret (hjournal t (some j) hkt) fun t ht => ⟨ht, fun heq => by cases heq⟩
  | done =>
      exact (hK.disk fun d => d.journal = some j).ret ⟨hjournal t (some j) hkt, rfl⟩
        fun t ht => ⟨ht.1, fun _ => ht.2⟩

end Journal

/-- The session is leaving and has not sent its leave. -/
structure Leaving (m : Mode) (profile : ProfileBinding) (credential : Credential)
    (w : Site) : Prop where
  session : w.session = some ⟨profile, credential, .leaving⟩
  metadata : w.disk.metadata = some profile
  credential : m.tidy = true → w.disk.credential ≠ none
  quiet : w.waiting = none
  settled : m.punctual = true → w.Settled profile.memberId

theorem lasting_leaving (m : Mode) (profile : ProfileBinding) (credential : Credential) :
    Lasting m .operation (Leaving m profile credential) where
  owner _ h := by simp [Site.owner, h.session]
  later _ _ h hlater := by
    have hsame := hlater.toSame
    exact ⟨hsame.session.trans h.session, hsame.disk ▸ h.metadata, hsame.disk ▸ h.credential,
      hsame.waiting ▸ h.quiet, fun hm => (h.settled hm).later hm hlater⟩

theorem safe_journalIntent {profile : ProfileBinding} {credential : Credential}
    (h : w.Leaving m profile credential) :
    (arena m .operation).Safe
      (fun result t => t.Leaving m profile credential ∧ ∀ intent, result = .ok intent →
        t.disk.journal = some intent ∧ intent.phase = .intent ∧ intent.Loads profile)
      (journalIntent profile) w := by
  have hK := lasting_leaving m profile credential
  unfold journalIntent
  simp only [Prog.perform_bind]
  refine safe_read rfl fun t hrely ht r _ => ?_
  have hkt := hK.later w t h (rely_later (hK.owner w h) hrely)
  cases r with
  | none => exact hK.ret hkt fun t ht => ⟨ht, fun _ heq => by cases heq⟩
  | some random =>
  refine safe_read rfl fun u hrely hu r _ => ?_
  have hku := hK.later t u hkt (rely_later (hK.owner t hkt) hrely)
  cases r with
  | none => exact hK.ret hku fun t ht => ⟨ht, fun _ heq => by cases heq⟩
  | some now =>
  cases hintent : LeaveJournal.intent profile (drawOperationId random) now with
  | error e =>
      simp only [hintent]
      exact hK.ret hku fun t ht => ⟨ht, fun _ heq => by cases heq⟩
  | ok intent =>
  simp only [hintent]
  obtain ⟨hphase, hloads⟩ := LeaveJournal.phase_of_intent hintent
  refine Arena.Safe.bind ((safe_storeJournal hK (fun _ _ hk => { hk with }) ?_ hku).imp ?_)
  · intro v hk hv hl
    refine hv.storeJournal (hk.metadata.trans (by rw [hloads.binding])) hl ?_ fun hm =>
      Or.inr ⟨hk.credential hm, ?_⟩
    · intro _ hconfirmed
      rw [hphase] at hconfirmed
      cases hconfirmed
    · intro live hlive
      cases hk.session.symm.trans hlive
      simp
  · rintro (e | ⟨⟩) v ⟨hk, hstored⟩
    · exact hK.ret hk fun t ht => ⟨ht, fun _ heq => by cases heq⟩
    · refine (hK.disk fun d => d.journal = some intent).ret ⟨hk, hstored rfl⟩ fun t ht =>
        ⟨ht.1, ?_⟩
      rintro _ ⟨⟩
      exact ⟨ht.2, hphase, hloads⟩

/-- The membership is over and its metadata is still there. -/
structure Concluding (m : Mode) (profile : ProfileBinding) (session : Option LiveSession)
    (w : Site) : Prop where
  owner : w.owner = some .operation
  session : w.session = session
  unleft : ∀ live ∈ w.session, live.lifecycle ≠ .left
  metadata : w.disk.metadata = some profile
  quiet : w.waiting = none
  finished : m.monotone = true → w.relay.store.Finished profile.memberId

theorem lasting_concluding (m : Mode) (profile : ProfileBinding) (session : Option LiveSession) :
    Lasting m .operation (Concluding m profile session) where
  owner _ h := h.owner
  later _ _ h hlater := by
    have hsame := hlater.toSame
    exact ⟨hsame.owner.trans h.owner, hsame.session.trans h.session, hsame.session ▸ h.unleft,
      hsame.disk ▸ h.metadata, hsame.waiting.trans h.quiet,
      fun hm => (h.finished hm).grows hlater.grows⟩

/-- With the confirmation on disk, everything may go. -/
theorem Concluding.dismissed {profile : ProfileBinding} {session : Option LiveSession}
    (h : w.Concluding m profile session) (hw : w.Inv m)
    (hjournal : ∃ j ∈ w.disk.journal, j.phase = .confirmed) : w.Dismissed m where
  owner := h.owner
  concluded _ := Or.inr hjournal
  whole _ hhalf := by cases h.metadata.symm.trans hhalf.2
  metadata hm b hb := by
    cases h.metadata.symm.trans hb
    exact h.finished hm
  credential hm record hrecord := by
    rw [hw.sane.agree _ h.metadata record hrecord]
    exact Or.inl (h.finished hm)

theorem safe_journalConfirmation {profile : ProfileBinding} {session : Option LiveSession}
    {intent : LeaveJournal} (h : w.Concluding m profile session) (hloads : intent.Loads profile) :
    (arena m .operation).Safe
      (fun result t => t.Concluding m profile session ∧ (result = .ok () →
        ∃ j ∈ t.disk.journal, j.phase = .confirmed))
      (journalConfirmation intent) w := by
  have hK := lasting_concluding m profile session
  unfold journalConfirmation
  simp only [Prog.perform_bind]
  refine safe_read rfl fun t hrely ht r _ => ?_
  have hkt := hK.later w t h (rely_later (hK.owner w h) hrely)
  cases r with
  | none => exact hK.ret hkt fun t ht => ⟨ht, fun heq => by cases heq⟩
  | some now =>
  cases hconfirmed : intent.confirmed now with
  | error e =>
      simp only [hconfirmed]
      exact hK.ret hkt fun t ht => ⟨ht, fun heq => by cases heq⟩
  | ok confirmed =>
  simp only [hconfirmed]
  obtain ⟨hphase, rfl⟩ := LeaveJournal.confirmed_eq_ok hconfirmed
  refine (safe_storeJournal hK (fun _ _ hk => { hk with }) ?_ hkt).imp ?_
  · intro v hk hv hl
    have hbinding : intent.binding = profile := hloads.binding
    refine hv.storeJournal (hk.metadata.trans (by rw [← hbinding])) hl (fun hm _ => ?_) fun _ =>
      Or.inl rfl
    rw [hbinding]
    exact hk.finished hm
  · exact fun result v hv => ⟨hv.1, fun hok => ⟨_, hv.2 hok, rfl⟩⟩

/-! ## Requests -/

/-- **Asking and decoding the answer.** -/
theorem safe_request {request : Request} (hrequest : ∀ squad c, request ≠ .leave squad c)
    (hown : w.owner = some slot) (hquiet : w.waiting = none) {P : Store → Prop}
    (hP : ∀ s t : Store, s.Grows t → P s → P t) (hnow : P w.relay.store) {β : Type}
    (decode : Arrival → Except ClientError β) :
    (arena m slot).Safe
      (fun result t => w.Later m slot t ∧ t.Inv m ∧ t.waiting = none
        ∧ ((∃ e : ClientError, e.beforeSend = true ∧ result = .error e)
          ∨ ∃ i drawn arrival, t.Hears m i (request.command drawn) P arrival
              ∧ result = decode arrival))
      (do return (← transport request).bind decode) w := by
  refine Arena.Safe.bind ((safe_transport hrequest hown hquiet hP hnow).imp ?_)
  rintro result t ⟨hlater, hheard⟩ u hrely hu
  have hlater' := rely_later (hlater.toSame.owner.trans hown) hrely
  have hquiet' : t.waiting = none := hlater.toSame.waiting.trans hquiet
  refine ⟨hlater.trans hlater', hu, hlater'.toSame.waiting.trans hquiet', ?_⟩
  cases result with
  | error e => exact Or.inl ⟨e, hheard, rfl⟩
  | ok arrival =>
      obtain ⟨i, drawn, hhears⟩ := hheard
      exact Or.inr ⟨i, drawn, arrival, hhears.later hP hquiet' hlater', rfl⟩

section Requests

variable {credential : Credential} {member : MembershipId}

theorem issued_grows (credential : Credential) (member : MembershipId) :
    ∀ s t : Store, s.Grows t → s.Issued credential member → t.Issued credential member :=
  fun _ _ hgrows h => h.grows hgrows

/-- **A heartbeat** that succeeds rules out every leave; one that is denied names a membership
that is over. -/
theorem safe_heartbeat {request : HeartbeatRequest} (hown : w.owner = some slot)
    (hquiet : w.waiting = none) (hissued : w.relay.store.Issued credential member) :
    (arena m slot).Safe
      (fun result t => w.Later m slot t
        ∧ (∀ body, result = .ok body → m.punctual = true → t.Settled member)
        ∧ ∀ status code retryable, result = .error (.api status code retryable) →
            code.denies = true → m.monotone = true → t.relay.store.Finished member)
      (Transport.heartbeat request credential) w := by
  refine (safe_request (fun _ _ h => by cases h) hown hquiet (issued_grows credential member)
    hissued Client.heartbeat).imp ?_
  rintro result t ⟨hlater, ht, hquiet, ⟨e, he, rfl⟩ | ⟨i, drawn, arrival, hhears, rfl⟩⟩
  · refine ⟨hlater, (fun _ heq => by cases heq), fun status code retryable heq => ?_⟩
    cases heq
    cases he
  · obtain ⟨hok, herror⟩ := ht.sane.relay.heartbeat_result hhears.delivers
    refine ⟨hlater, fun body heq hm => ?_, fun status code retryable heq hcode hm => ?_⟩
    · obtain ⟨reply, hanswer⟩ := hok body heq
      exact (hhears.latest hm).settled ht.sane hquiet hhears.calls rfl hanswer
    · obtain ⟨e, he, hanswer⟩ := (herror status code retryable heq).denied hcode
      exact ht.sane.relay.denied (ht.truthful hm).orderly he hanswer hhears.calls.asked rfl
        hhears.calls.ran

/-- **A resume** that succeeds rules out every leave and comes with a new credential. -/
theorem safe_resume {squad : SquadName} {request : ResumeSquadRequest}
    (hown : w.owner = some slot) (hquiet : w.waiting = none)
    (hissued : w.relay.store.Issued credential member) :
    (arena m slot).Safe
      (fun result t => w.Later m slot t ∧ ∀ session, result = .ok session →
        t.relay.store.Issued session.credential session.response.membershipId
          ∧ (m.punctual = true → t.Settled member))
      (Transport.resume squad request credential) w := by
  refine (safe_request (fun _ _ h => by cases h) hown hquiet (issued_grows credential member)
    hissued Client.issued).imp ?_
  rintro result t ⟨hlater, ht, hquiet, ⟨e, he, rfl⟩ | ⟨i, drawn, arrival, hhears, rfl⟩⟩
  · exact ⟨hlater, fun _ heq => by cases heq⟩
  · refine ⟨hlater, fun session heq => ?_⟩
    obtain ⟨context, hanswer, hcredential, hmember⟩ :=
      ht.sane.relay.resume_result hhears.delivers hhears.calls.asked heq
    refine ⟨?_, fun hm => (hhears.latest hm).settled ht.sane hquiet hhears.calls rfl hanswer⟩
    rw [hcredential, hmember]
    exact ht.sane.relay.resumed_of_answered hanswer hhears.calls.asked

/-- **A join** that succeeds makes a membership this profile never had. -/
theorem safe_join {squad : SquadName} {request : JoinSquadRequest} (hw : w.Inv m)
    (hown : w.owner = some slot) (hquiet : w.waiting = none) :
    (arena m slot).Safe
      (fun result t => w.Later m slot t ∧ ∀ session, result = .ok session →
        t.relay.store.Issued session.credential session.response.membershipId
          ∧ t.Fresh session.response.membershipId)
      (Transport.join squad request) w := by
  have hP : ∀ s t : Store, s.Grows t →
      (∀ member ∈ w.bound ++ w.leaves.map Prod.snd, ∃ squad, s.Enrols member squad) →
      ∀ member ∈ w.bound ++ w.leaves.map Prod.snd, ∃ squad, t.Enrols member squad :=
    fun s t hgrows hs member hmember =>
      let ⟨squad, henrols⟩ := hs member hmember
      ⟨squad, henrols.grows hgrows⟩
  have hnow : ∀ member ∈ w.bound ++ w.leaves.map Prod.snd,
      ∃ squad, w.relay.store.Enrols member squad := by
    intro member hmember
    rcases List.mem_append.mp hmember with hmember | hmember
    · exact hw.sane.bound member hmember
    · obtain ⟨p, hp, rfl⟩ := List.mem_map.mp hmember
      obtain ⟨_, _, -, hissued, -⟩ := hw.sane.leaves p hp
      exact hissued.enrols
  refine (safe_request (fun _ _ h => by cases h) hown hquiet hP hnow Client.issued).imp ?_
  rintro result t ⟨hlater, ht, hquiet, ⟨e, he, rfl⟩ | ⟨i, drawn, arrival, hhears, rfl⟩⟩
  · exact ⟨hlater, fun _ heq => by cases heq⟩
  refine ⟨hlater, fun session heq => ?_⟩
  obtain ⟨outcome, hanswer, hcredential, hmember, -⟩ :=
    ht.sane.relay.join_result hhears.delivers hhears.calls.asked heq
  obtain ⟨hissued, -, hfresh⟩ := ht.sane.relay.joined_of_answered hanswer
  have hnew : ∀ member ∈ w.bound ++ w.leaves.map Prod.snd,
      member ≠ session.response.membershipId := by
    intro member hknown
    rw [hmember]
    exact hfresh member fun before e after hlog hcall =>
      hhears.calls.ran before e after hlog hcall member hknown
  refine ⟨?_, fun hbound => ?_, fun p hp => ?_⟩
  · rw [hcredential, hmember]
    exact hissued
  · rw [hlater.toSame.bound] at hbound
    exact hnew _ (List.mem_append_left _ hbound) rfl
  · rw [hlater.toSame.leaves] at hp
    exact hnew _ (List.mem_append_right _ (List.mem_map_of_mem hp))

end Requests

/-! ## Resuming -/

/-- The owner's profile is bound, and no leave is waited for. -/
structure Bound (slot : Slot) (profile : ProfileBinding) (session : Option LiveSession)
    (w : Site) : Prop where
  owner : w.owner = some slot
  session : w.session = session
  metadata : w.disk.metadata = some profile
  quiet : w.waiting = none

theorem lasting_bound (m : Mode) (slot : Slot) (profile : ProfileBinding)
    (session : Option LiveSession) : Lasting m slot (Bound slot profile session) where
  owner _ h := h.owner
  later _ _ h hlater := by
    have hsame := hlater.toSame
    exact ⟨hsame.owner.trans h.owner, hsame.session.trans h.session, hsame.disk ▸ h.metadata,
      hsame.waiting.trans h.quiet⟩

/-- The relay has found the session in its membership, after every leave of it. -/
structure Confirmed (m : Mode) (slot : Slot) (profile : ProfileBinding)
    (session : Option LiveSession) (credential : Credential) (w : Site) : Prop
    extends Bound slot profile session w where
  issued : w.relay.store.Issued credential profile.memberId
  settled : m.punctual = true → w.Settled profile.memberId

theorem lasting_confirmed (m : Mode) (slot : Slot) (profile : ProfileBinding)
    (session : Option LiveSession) (credential : Credential) :
    Lasting m slot (Confirmed m slot profile session credential) where
  owner _ h := h.owner
  later w t h hlater :=
    ⟨(lasting_bound m slot profile session).later w t h.toBound hlater,
      h.issued.grows hlater.grows, fun hm => (h.settled hm).later hm hlater⟩

theorem safe_resumeTransaction {profile : ProfileBinding} {request : ResumeSquadRequest}
    {session : Option LiveSession} {credential : Credential} (h : w.Bound slot profile session)
    (hissued : w.relay.store.Issued credential profile.memberId) :
    (arena m slot).Safe
      (fun result t => t.Bound slot profile session ∧ ∀ resumed, result = .ok resumed →
        t.Confirmed m slot profile session resumed.credential
          ∧ Disk.Keeps profile resumed.credential t.disk)
      (resumeTransaction profile request credential) w := by
  have hK := lasting_bound m slot profile session
  unfold resumeTransaction
  refine Arena.Safe.bind ((safe_resume h.owner h.quiet hissued).imp ?_)
  rintro (e | resumed) t ⟨hlater, hresumed⟩
  · exact hK.ret (hK.later w t h hlater) fun u hu => ⟨hu, fun _ heq => by cases heq⟩
  have ht := hK.later w t h hlater
  dsimp only
  split
  · exact hK.ret ht fun u hu => ⟨hu, fun _ heq => by cases heq⟩
  next hown =>
  have hmember : resumed.response.membershipId = profile.memberId := by
    simp only [not_or, not_not] at hown
    exact hown.2.2
  obtain ⟨hcredential, hsettled⟩ := hresumed resumed rfl
  rw [hmember] at hcredential
  have hK' := lasting_confirmed m slot profile session resumed.credential
  have ht' : t.Confirmed m slot profile session resumed.credential := ⟨ht, hcredential, hsettled⟩
  simp only [Prog.perform_bind]
  refine safe_write Effect.reported
    (fun d => { d with credential := some ⟨profile.credentialBinding, resumed.credential⟩ })
    (fun _ _ _ _ => perform_storeCredential) ht.owner ?_ ?_
  · intro u hlater hu e _ _
    have hk := hK'.later t u ht' hlater
    refine ⟨hu.storeCredential hk.metadata hk.issued, fun _ => ⟨?_, ?_⟩⟩
    · exact fun b hb hgone => absurd rfl (hgone b hb)
    · intro record hrecord hgone
      rw [hu.sane.agree _ hk.metadata record hrecord] at hgone
      exact absurd rfl (hgone _ rfl)
  intro u hlater hu e _
  have hk := hK'.later t u ht' hlater
  have hstored : Confirmed m slot profile session resumed.credential
      (u.setDisk { u.disk with
        credential := some ⟨profile.credentialBinding, resumed.credential⟩ }) :=
    { hk with }
  cases e with
  | failed => exact hK.ret hk.toBound fun v hv => ⟨hv, fun _ heq => by cases heq⟩
  | unsynced => exact hK.ret hstored.toBound fun v hv => ⟨hv, fun _ heq => by cases heq⟩
  | done =>
      refine (hK'.disk (Disk.Keeps profile resumed.credential)).ret ⟨hstored, rfl⟩ fun v hv =>
        ⟨hv.1.toBound, ?_⟩
      rintro _ ⟨⟩
      exact hv

/-! ## Starting -/

/-- A session may be made of this. -/
structure Ready (m : Mode) (runtime : Runtime) (w : Site) : Prop
    extends Confirmed m .operation runtime.profile none runtime.credential w where
  keeps : Disk.Keeps runtime.profile runtime.credential w.disk

theorem lasting_ready (m : Mode) (runtime : Runtime) :
    Lasting m .operation (Ready m runtime) where
  owner _ h := h.owner
  later w t h hlater :=
    ⟨(lasting_confirmed m .operation runtime.profile none runtime.credential).later w t
      h.toConfirmed hlater, hlater.toSame.disk ▸ h.keeps⟩

/-- A start leaves no credential without metadata, and a session it returns is ready. -/
structure Started (m : Mode) (result : Except SessionError Runtime) (w : Site) : Prop where
  whole : m.tidy = true → ¬ w.disk.HalfBound
  ready : ∀ runtime, result = .ok runtime → w.Ready m runtime

theorem safe_failed {e : SessionError} (hown : w.owner = some .operation)
    (hwhole : m.tidy = true → ¬ w.disk.HalfBound) :
    (arena m .operation).Safe (Started m) (.ret (.error e)) w :=
  fun _ hrely _ =>
    ⟨(rely_later hown hrely).toSame.disk ▸ hwhole, fun _ heq => by cases heq⟩

theorem Bound.failed {profile : ProfileBinding} {session : Option LiveSession} {e : SessionError}
    (h : w.Bound .operation profile session) :
    (arena m .operation).Safe (Started m) (.ret (.error e)) w :=
  safe_failed h.owner fun _ hhalf => by cases h.metadata.symm.trans hhalf.2

/-- Without a pending leave of its own membership, the disk has forgotten every membership
with one. -/
theorem forgets_of_settled (hw : w.Inv m) {profile : ProfileBinding}
    (hmetadata : w.disk.metadata = some profile) (hsettled : w.Settled profile.memberId) :
    ∀ p ∈ w.leaves, w.Pending p.1 → w.disk.Forgets p.2 := by
  intro p hp hpending
  have hother : profile.memberId ≠ p.2 := fun heq => hsettled p hp heq.symm hpending
  refine ⟨fun b hb => ?_, fun record hrecord => ?_⟩
  · cases hmetadata.symm.trans hb
    exact hother
  · rw [hw.sane.agree _ hmetadata record hrecord]
    exact hother

theorem safe_dropPending {pending : Option LeaveJournal} {runtime : Runtime}
    (h : w.Ready m runtime) :
    (arena m .operation).Safe (Started m) (dropPending pending runtime) w := by
  have hK := lasting_ready m runtime
  have hdone : ∀ u, u.Ready m runtime →
      (arena m .operation).Safe (Started m) (.ret (.ok runtime)) u := by
    refine fun u hu => hK.ret hu fun t ht => ⟨fun _ hhalf => ?_, ?_⟩
    · cases ht.metadata.symm.trans hhalf.2
    · rintro _ ⟨⟩
      exact ht
  unfold dropPending
  split
  · simp only [Prog.perform_bind]
    refine safe_write Effect.reported (fun d => { d with journal := none })
      (fun _ _ _ _ => perform_removeJournal) h.owner ?_ ?_
    · intro t hlater ht e _ _
      have hk := hK.later w t h hlater
      refine ⟨ht.removeJournal (fun hm => forgets_of_settled ht hk.metadata (hk.settled hm))
        fun _ => Or.inr ⟨?_, ?_⟩, fun _ => .of_kept rfl rfl⟩
      · rw [hk.keeps]
        simp
      · intro live hlive
        cases hk.session.symm.trans hlive
    · intro t hlater ht e _
      have hk := hK.later w t h hlater
      cases e with
      | failed => exact hk.failed
      | unsynced =>
          have hdropped : Ready m runtime (t.setJournal none) := { hk with }
          exact hdropped.failed
      | done => exact hdone _ { hk with }
  · exact hdone w h

theorem safe_completePending {profile : ProfileBinding} {intent : LeaveJournal}
    (h : w.Concluding m profile none) (hloads : intent.Loads profile) :
    (arena m .operation).Safe (Started m) (completePending intent) w := by
  unfold completePending
  refine Arena.Safe.bind ((safe_journalConfirmation h hloads).imp ?_)
  rintro (e | ⟨⟩) t ⟨hk, hjournal⟩
  · exact safe_failed hk.owner fun _ hhalf => by cases hk.metadata.symm.trans hhalf.2
  · refine Arena.Safe.of_rely fun u hrely hu => ?_
    have hlater := rely_later hk.owner hrely
    have hdismissed := ((lasting_concluding m profile none).later t u hk hlater).dismissed hu
      (hlater.toSame.disk ▸ hjournal rfl)
    refine Arena.Safe.bind ((safe_cleanupConfirmedLeave hdismissed).imp ?_)
    rintro (e | ⟨⟩) v hv
    · exact safe_failed hv.owner hv.whole
    · exact safe_failed hv.owner hv.whole

theorem safe_classifyHeartbeat {spec : RuntimeSpec} {pending : Option LeaveJournal}
    {credential : Credential} {result : Except ClientError HeartbeatResponse}
    (h : w.Bound .operation spec.profile none) (hkeeps : Disk.Keeps spec.profile credential w.disk)
    (hissued : w.relay.store.Issued credential spec.profile.memberId)
    (hpending : ∀ j ∈ pending, j.Loads spec.profile)
    (hok : ∀ body, result = .ok body → m.punctual = true → w.Settled spec.profile.memberId)
    (hdenied : ∀ status code retryable, result = .error (.api status code retryable) →
      code.denies = true → m.monotone = true →
      w.relay.store.Finished spec.profile.memberId) :
    (arena m .operation).Safe (Started m) (classifyHeartbeat spec pending credential result) w := by
  unfold classifyHeartbeat
  split
  · next body => exact safe_dropPending ⟨⟨h, hissued, hok body rfl⟩, hkeeps⟩
  · next status code retryable =>
      split
      · -- the lease is over
        refine Arena.Safe.bind ((safe_resumeTransaction h hissued).imp ?_)
        rintro (e | resumed) t ⟨hbound, hresumed⟩
        · exact hbound.failed
        · obtain ⟨hconfirmed, hkeeps⟩ := hresumed resumed rfl
          exact safe_dropPending ⟨hconfirmed, hkeeps⟩
      · split
        · next hcode =>
            have hdenies : code.denies = true := by rcases hcode with rfl | rfl <;> rfl
            split
            · next intent =>
                refine safe_completePending ⟨h.owner, h.session, ?_, h.metadata, h.quiet,
                  hdenied status code retryable rfl hdenies⟩ (hpending intent rfl)
                intro live hlive
                cases h.session.symm.trans hlive
            · exact h.failed
        · exact h.failed
  · exact h.failed

theorem safe_startLocked {spec : RuntimeSpec} (h : w.Bound .operation spec.profile none) :
    (arena m .operation).Safe (Started m) (startLocked spec) w := by
  have hK := lasting_bound m .operation spec.profile none
  unfold startLocked
  simp only [Prog.perform_bind]
  refine safe_read rfl fun t hrely ht r hshows => ?_
  have hkt := hK.later w t h (rely_later h.owner hrely)
  cases r with
  | none => exact hkt.failed
  | some stored =>
  have hstored : stored = t.disk.journal := hshows stored rfl
  cases hload : LeaveJournal.load stored spec.profile with
  | error e =>
      simp only [hload]
      exact hkt.failed
  | ok pending =>
  simp only [hload]
  obtain ⟨rfl, hloads⟩ := LeaveJournal.load_eq_ok.mp hload
  split
  · -- a confirmed leave
    next hany =>
    obtain ⟨j, rfl, hphase⟩ := (Option.any_eq_true _ _).mp hany
    have hjournal : t.disk.journal = some j := hstored.symm
    have hconfirmed : j.phase = .confirmed := of_decide_eq_true hphase
    have hconcluding : t.Concluding m spec.profile none := by
      refine ⟨hkt.owner, hkt.session, fun live hlive => ?_, hkt.metadata, hkt.quiet,
        fun hm => ?_⟩
      · cases hkt.session.symm.trans hlive
      · rw [← (hloads j rfl).binding]
        exact (ht.truthful hm).confirmed j hjournal hconfirmed
    have hdismissed := hconcluding.dismissed ht ⟨j, hjournal, hconfirmed⟩
    refine Arena.Safe.bind ((safe_cleanupConfirmedLeave hdismissed).imp ?_)
    rintro (e | ⟨⟩) v hv
    · exact safe_failed hv.owner hv.whole
    · exact safe_failed hv.owner hv.whole
  · refine safe_read rfl fun u hrely hu r hshows => ?_
    have hku := hK.later t u hkt (rely_later hkt.owner hrely)
    cases r with
    | none => exact hku.failed
    | some held =>
    have hheld : held = u.disk.credential := hshows held rfl
    cases hcredential : CredentialRecord.load held spec.profile.credentialBinding with
    | error e =>
        simp only [hcredential]
        exact hku.failed
    | ok credential =>
    simp only [hcredential]
    have hkeeps : Disk.Keeps spec.profile credential u.disk :=
      hheld.symm.trans (CredentialRecord.load_eq_ok.mp hcredential)
    have hissued : u.relay.store.Issued credential spec.profile.memberId :=
      hu.sane.issued _ hkeeps
    refine Arena.Safe.bind ((safe_heartbeat hku.owner hku.quiet hissued).imp ?_)
    rintro result v ⟨hlater, hok, hdenied⟩
    exact safe_classifyHeartbeat (hK.later u v hku hlater) (hlater.toSame.disk ▸ hkeeps)
      (hissued.grows hlater.grows) hloads hok hdenied

theorem safe_start {spec : RuntimeSpec} (hsession : w.session = none)
    (hwhole : m.tidy = true → ¬ w.disk.HalfBound) :
    (arena m .operation).Safe (Started m) (start spec) w := by
  have hown : w.owner = some .operation := by simp [Site.owner, hsession]
  unfold start
  simp only [Prog.perform_bind]
  refine safe_read rfl fun t hrely ht r hshows => ?_
  have hsame := (rely_later hown hrely).toSame
  cases r with
  | none => exact safe_failed (hsame.owner.trans hown) (hsame.disk ▸ hwhole)
  | some found =>
  have hfound : found = t.disk.metadata := hshows found rfl
  dsimp only
  split
  · exact safe_failed (hsame.owner.trans hown) (hsame.disk ▸ hwhole)
  · next hsome =>
      refine safe_startLocked ⟨hsame.owner.trans hown, hsame.session.trans hsession,
        hfound.symm.trans (not_not.mp hsome), ht.sane.idle fun live hlive => ?_⟩
      rw [hsame.session, hsession] at hlive
      cases hlive

/-- **Recovering an orphaned leave.** -/
theorem safe_recoverOrphanedLeave {key : ProfileKey} (hsession : w.session = none)
    (hrunning : w.running = some .recover) :
    (arena m .operation).Safe (fun _ _ => True) (recoverOrphanedLeave key) w := by
  have hown : w.owner = some .operation := by simp [Site.owner, hsession]
  have hend : ∀ {result : Except SessionError Bool} {u : Site},
      (arena m .operation).Safe (fun _ _ => True) (.ret result) u := fun _ _ _ => trivial
  unfold recoverOrphanedLeave
  simp only [Prog.perform_bind]
  refine safe_read rfl fun t hrely ht r hshows => ?_
  have hlater := rely_later hown hrely
  cases r with
  | none => exact hend
  | some bound =>
  have hbound : bound = t.disk.metadata := hshows bound rfl
  dsimp only
  split
  · exact hend
  next hnone =>
  refine safe_read rfl fun u hrely hu r hshows => ?_
  have hlater' := rely_later (hlater.toSame.owner.trans hown) hrely
  cases r with
  | none => exact hend
  | some stored =>
  have hstored : stored = u.disk.journal := hshows stored rfl
  cases hload : LeaveJournal.loadForProfileKey stored key with
  | error e =>
      simp only [hload]
      exact hend
  | ok found =>
  simp only [hload]
  cases found with
  | none => exact hend
  | some pending =>
  dsimp only
  split
  · exact hend
  -- no metadata is left, so a credential is one that was never bound
  have hmetadata : u.disk.metadata = none := by
    rw [hlater'.toSame.disk, ← hbound]
    simpa using hnone
  have hrunning' : u.running = some .recover :=
    hlater'.running.trans (hlater.running.trans hrunning)
  have hdismissed : u.Dismissed m :=
    { owner := hlater'.toSame.owner.trans (hlater.toSame.owner.trans hown)
      concluded := fun _ => Or.inl hmetadata
      whole := fun hm hhalf => by cases hrunning'.symm.trans ((hu.neat hm).half hhalf)
      metadata := fun _ b hb => by cases hmetadata.symm.trans hb
      credential := fun _ record hrecord =>
        Or.inr ⟨hu.sane.unbound hmetadata record hrecord, hrunning'⟩ }
  refine Arena.Safe.bind ((safe_cleanupConfirmedLeave hdismissed).imp ?_)
  rintro (e | ⟨⟩) v -
  · exact hend
  · exact hend

/-! ## Joining -/

/-- A membership just joined, about to be bound. -/
structure Joining (m : Mode) (profile : ProfileBinding) (credential : Credential)
    (w : Site) : Prop where
  session : w.session = none
  running : w.running = some .joinAndBind
  key : profile.toProfileKey = w.key
  issued : w.relay.store.Issued credential profile.memberId
  fresh : w.Fresh profile.memberId
  journal : m.tidy = true → w.disk.journal = none
  quiet : w.waiting = none

theorem lasting_joining (m : Mode) (profile : ProfileBinding) (credential : Credential) :
    Lasting m .operation (Joining m profile credential) where
  owner _ h := by simp [Site.owner, h.session]
  later _ _ h hlater := by
    have hsame := hlater.toSame
    exact ⟨hsame.session.trans h.session, hlater.running.trans h.running,
      h.key.trans hsame.key.symm, h.issued.grows hlater.grows,
      ⟨hsame.bound ▸ h.fresh.bound, hsame.leaves ▸ h.fresh.leaves⟩, hsame.disk ▸ h.journal,
      hsame.waiting.trans h.quiet⟩

/-- Where binding ends: bound, or with nothing that keeps the profile from being bound. -/
structure Tied (m : Mode) (profile : ProfileBinding) (result : Except SessionError Unit)
    (w : Site) : Prop where
  owner : w.owner = some .operation
  whole : m.tidy = true → ¬ w.disk.HalfBound
  bound : result = .ok () → w.Bound .operation profile none

theorem safe_untied {profile : ProfileBinding} {e : SessionError}
    (hown : w.owner = some .operation) (hwhole : m.tidy = true → ¬ w.disk.HalfBound) :
    (arena m .operation).Safe (Tied m profile) (.ret (.error e)) w := by
  intro t hrely _
  have hsame := (rely_later hown hrely).toSame
  exact ⟨hsame.owner.trans hown, hsame.disk ▸ hwhole, fun heq => by cases heq⟩

/-- The credential of a membership whose metadata was not reported stored is scrubbed. -/
theorem safe_scrub {profile : ProfileBinding} {credential : Credential} {e : SessionError}
    (h : w.Joining m profile credential) (hkeeps : Disk.Keeps profile credential w.disk)
    (htidy : m.tidy = true → w.disk.metadata = none) :
    (arena m .operation).Safe (Tied m profile)
      (do
        let some () ← Psst.perform .clearCredential | return .error (.local .os)
        return .error e)
      w := by
  have hK := lasting_joining m profile credential
  simp only [Prog.perform_bind]
  refine safe_write Effect.reported (fun d => { d with credential := none })
    (fun _ _ _ _ => perform_clearCredential) (hK.owner w h) ?_ ?_
  · intro t hlater ht e _ _
    have hk := hK.later w t h hlater
    have hdisk := hlater.toSame.disk
    refine ⟨ht.clearCredential (unstarted_of_owner (hK.owner t hk)) fun hm =>
      Or.inl (hdisk ▸ htidy hm), fun _ => ⟨?_, ?_⟩⟩
    · exact fun b hb hgone => absurd rfl (hgone b hb)
    · intro record hrecord _
      rw [hdisk, show w.disk.credential = _ from hkeeps] at hrecord
      cases hrecord
      exact Or.inr ⟨hk.fresh.bound, Or.inl hk.running⟩
  intro t hlater ht e hact
  have hown := hK.owner t (hK.later w t h hlater)
  cases e with
  | failed => exact safe_untied hown hact
  | unsynced => exact safe_untied hown fun _ hhalf => by cases hhalf.1
  | done => exact safe_untied hown fun _ hhalf => by cases hhalf.1

theorem safe_bindProfile {profile : ProfileBinding} {credential : Credential}
    (h : w.Joining m profile credential) (hmetadata : w.disk.metadata = none)
    (hcredential : w.disk.credential = none) :
    (arena m .operation).Safe (Tied m profile) (bindProfile profile credential) w := by
  have hK := lasting_joining m profile credential
  unfold bindProfile
  simp only [Prog.perform_bind]
  -- the credential
  refine safe_write Effect.reported
    (fun d => { d with credential := some ⟨profile.credentialBinding, credential⟩ })
    (fun _ _ _ _ => perform_storeCredential) (hK.owner w h) ?_ ?_
  · intro t hlater ht e _ _
    have hk := hK.later w t h hlater
    have hdisk := hlater.toSame.disk
    refine ⟨ht.joinCredential hk.session (hdisk ▸ hmetadata) hk.issued hk.fresh hk.running,
      fun _ => ⟨?_, ?_⟩⟩
    · exact fun b hb hgone => absurd rfl (hgone b hb)
    · intro record hrecord
      rw [hdisk, hcredential] at hrecord
      cases hrecord
  intro t hlater ht e hact
  have hk := hK.later w t h hlater
  have hdisk := hlater.toSame.disk
  cases e with
  | failed =>
      refine safe_untied (hK.owner t hk) fun _ hhalf => ?_
      have hsome : t.disk.credential.isSome = true := hhalf.1
      rw [hdisk, hcredential] at hsome
      cases hsome
  | unsynced => exact safe_untied (hK.owner t hk) fun hm => absurd (hdisk ▸ hmetadata) (hact hm)
  | done =>
  -- the metadata
  have hstored : Joining m profile credential (t.setCredential
      (some ⟨profile.credentialBinding, credential⟩)) := { hk with fresh := { hk.fresh with } }
  rintro u hrely hu r v ⟨choice, hact, hperform⟩
  have hlater' := rely_later (hK.owner _ hstored) hrely
  have hk' := hK.later _ u hstored hlater'
  have hdisk' := hlater'.toSame.disk
  have hkeeps : Disk.Keeps profile credential u.disk := by
    rw [hdisk']
    rfl
  have hnone : u.disk.metadata = none := by
    rw [hdisk']
    show t.disk.metadata = none
    rw [hdisk]
    exact hmetadata
  have hjustified : ∀ v : Site, v.disk.credential = u.disk.credential → u.Justified v := by
    refine fun v hv => ⟨fun b hb => ?_, fun record hrecord hgone => ?_⟩
    · cases hnone.symm.trans hb
    · exact absurd rfl (hgone record (hv ▸ hrecord))
  obtain ⟨e, rfl, rfl, rfl⟩ := perform_storeProfile hperform
  have hbound := hu.joinProfile hk'.session hk'.key hkeeps hk'.fresh hk'.journal
  have hown := hK.owner u hk'
  cases e with
  | failed =>
      exact ⟨hu, ⟨.refl .operation u, fun _ => .of_kept rfl rfl⟩,
        safe_scrub hk' hkeeps fun _ => hnone⟩
  | unsynced =>
      have hwritten : Joining m profile credential (u.setMetadata (some profile)) :=
        { hk' with fresh := { hk'.fresh with } }
      exact ⟨hbound, ⟨.of_disk hown _, fun _ => hjustified _ rfl⟩,
        safe_scrub hwritten hkeeps fun hm => absurd (hact hm) id⟩
  | done =>
      refine ⟨hbound.bind (by simp [setMetadata, setDisk]) hk'.issued.enrols,
        ⟨⟨rfl, rfl, rfl, Or.inl rfl, fun hother => ?_⟩, fun _ => hjustified _ rfl⟩, ?_⟩
      · rw [hown] at hother
        cases hother
      · have hdone : Bound .operation profile none
            { u.setMetadata (some profile) with bound := u.bound ++ [profile.memberId] } :=
          ⟨hown, hk'.session, rfl, hk'.quiet⟩
        refine (lasting_bound m .operation profile none).ret hdone fun v hv =>
          ⟨hv.owner, fun _ hhalf => ?_, fun _ => hv⟩
        cases hv.metadata.symm.trans hhalf.2

theorem safe_joinAndBind {spec : UnboundRuntimeSpec} {request : JoinSquadRequest}
    (hsession : w.session = none) (hrunning : w.running = some .joinAndBind)
    (hkey : spec.key = w.key) (hwhole : m.tidy = true → ¬ w.disk.HalfBound)
    (hjournal : m.tidy = true → w.disk.journal = none) :
    (arena m .operation).Safe (Started m) (joinAndBind spec request) w := by
  have hown : w.owner = some .operation := by simp [Site.owner, hsession]
  have hfailed : ∀ {e : SessionError} {u : Site}, w.Later m .operation u →
      (arena m .operation).Safe (Started m) (.ret (.error e)) u := by
    intro e u hlater
    exact safe_failed (hlater.toSame.owner.trans hown) (hlater.toSame.disk ▸ hwhole)
  unfold joinAndBind
  simp only [Prog.perform_bind]
  refine safe_read rfl fun t hrely ht bound hbound => ?_
  have ht' := rely_later hown hrely
  split
  · exact hfailed ht'
  next hmetadata =>
  refine safe_read rfl fun u hrely hu held hheld => ?_
  have hu' := ht'.trans (rely_later (ht'.toSame.owner.trans hown) hrely)
  split
  · exact hfailed hu'
  next hcredential =>
  have hsame := Later.toSame hu'
  have hquiet : u.waiting = none := by
    refine hu.sane.idle fun live hlive => ?_
    rw [hsame.session, hsession] at hlive
    cases hlive
  refine Arena.Safe.bind ((safe_join hu (hsame.owner.trans hown) hquiet).imp ?_)
  rintro (e | session) v ⟨hlater, hjoined⟩
  · exact hfailed (hu'.trans hlater)
  have hv' := hu'.trans hlater
  dsimp only
  split
  · exact hfailed hv'
  obtain ⟨hissued, hfresh⟩ := hjoined session rfl
  have hsame' := Later.toSame hv'
  have hjoining : v.Joining m (spec.binding session.response) session.credential :=
    { session := hsame'.session.trans hsession
      running := (Later.running hv').trans hrunning
      key := hkey.trans hsame'.key.symm
      issued := hissued
      fresh := hfresh
      journal := hsame'.disk ▸ hjournal
      quiet := hlater.toSame.waiting.trans hquiet }
  have hnone : v.disk.metadata = none := by
    rw [show bound = t.disk.metadata.isSome from hbound, Option.not_isSome_iff_eq_none] at hmetadata
    rw [hsame'.disk, ← ht'.toSame.disk]
    exact hmetadata
  have hnone' : v.disk.credential = none := by
    rw [show held = u.disk.credential.isSome from hheld, Option.not_isSome_iff_eq_none]
      at hcredential
    rw [hlater.toSame.disk]
    exact hcredential
  refine Arena.Safe.bind ((safe_bindProfile hjoining hnone hnone').imp ?_)
  rintro (e | ⟨⟩) x hx
  · exact safe_failed hx.owner hx.whole
  · exact safe_startLocked (hx.bound rfl)

end Site

end Psst
