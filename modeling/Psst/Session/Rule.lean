import Psst.Session.Thread
import Psst.Session.Update

/-!
# Rules for single actions

What one action of a thread asks for and gives: reading, writing a file, sending a request and
waiting for its answer. Between any two of them the others have moved.
-/

namespace Psst

/-- The actions that change nothing. -/
def Action.reads : Action → Bool
  | .metadataExists | .credentialExists | .loadProfile | .loadJournal | .loadCredential => true
  | .now | .random | .awaitUnlessCancelled _ | .lifecycle | .credential => true
  | .drain _ | .shutdownRequested => true
  | _ => false

/-- What an action that changes nothing tells. -/
def Site.Shows (w : Site) : (a : Action) → Answer a → Prop
  | .metadataExists, r => r = w.disk.metadata.isSome
  | .credentialExists, r => r = w.disk.credential.isSome
  | .loadProfile, r => ∀ found ∈ r, found = w.disk.metadata
  | .loadJournal, r => ∀ found ∈ r, found = w.disk.journal
  | .loadCredential, r => ∀ found ∈ r, found = w.disk.credential
  | .lifecycle, r => ∃ live, w.session = some live ∧ r = live.lifecycle
  | .credential, r => ∃ live, w.session = some live ∧ r = live.credential
  | _, _ => True

namespace Site

variable [Sha256] {m : Mode} {slot : Slot} {w t u : Site} {α : Type}
  {Q : α → Site → Prop}

theorem perform_reads {a : Action} (ha : a.reads = true) {choice : Choice} {r : Answer a}
    (h : w.perform slot a choice = some (r, u)) : u = w ∧ w.Shows a r := by
  cases a with
  | metadataExists | credentialExists =>
      cases choice <;> cases h
      exact ⟨rfl, rfl⟩
  | loadProfile | loadJournal | loadCredential =>
      cases choice <;> cases h
      · exact ⟨rfl, fun _ hfound => (Option.some.inj hfound).symm⟩
      · exact ⟨rfl, fun _ hfound => by cases hfound⟩
  | lifecycle | credential =>
      cases choice <;> try cases h
      obtain ⟨live, hlive, hstep⟩ := Option.map_eq_some_iff.mp h
      cases hstep
      exact ⟨rfl, live, hlive, rfl⟩
  | now | random | drain | shutdownRequested =>
      cases choice <;> cases h <;> exact ⟨rfl, trivial⟩
  | awaitUnlessCancelled i =>
      cases choice with
      | answered =>
          obtain ⟨arrival, -, hstep⟩ := Option.map_eq_some_iff.mp h
          cases hstep
          exact ⟨rfl, trivial⟩
      | lost | cancelled =>
          cases h
          exact ⟨rfl, trivial⟩
      | _ => cases h
  | _ => cases ha

/-! ## Doing nothing -/

theorem Courteous.refl (slot : Slot) (w : Site) : Courteous slot w w where
  key := rfl
  running := rfl
  profile := rfl
  relay := Or.inl rfl
  frame _ := ⟨w.relay, w.gate, rfl⟩

omit [Sha256] in
/-- Nothing goes from two files that stay. -/
theorem Justified.of_kept (hmetadata : u.disk.metadata = w.disk.metadata)
    (hcredential : u.disk.credential = w.disk.credential) : w.Justified u where
  metadata b hb hgone := absurd rfl (hgone b (hmetadata ▸ hb))
  credential record hrecord hgone := absurd rfl (hgone record (hcredential ▸ hrecord))

/-- **Reading.** -/
theorem safe_read {a : Action} {k : Answer a → Run α} (ha : a.reads = true)
    (h : ∀ t, (arena m slot).rely w t → t.Inv m → ∀ r, t.Shows a r →
      (arena m slot).Safe Q (k r) t) :
    (arena m slot).Safe Q (.act a k) w := by
  rintro t hrely hinv r u ⟨choice, -, hperform⟩
  obtain ⟨rfl, hshows⟩ := perform_reads ha hperform
  exact ⟨hinv, ⟨.refl slot u, fun _ => .of_kept rfl rfl⟩, h u hrely hinv r hshows⟩

/-! ## Writing a file -/

/-- What the owner does to the files alone is no affair of the other thread. -/
theorem Courteous.of_disk (hown : w.owner = some slot) (d : Disk) :
    Courteous slot w (w.setDisk d) where
  key := rfl
  running := rfl
  profile := rfl
  relay := Or.inl rfl
  frame hother := by
    rw [hown] at hother
    cases slot <;> cases hother

/-- **Writing.** The file is written, and the report may be a failure either way. -/
theorem safe_write {a : Action} {k : Answer a → Run α} (report : Effect → Answer a)
    (write : Disk → Disk)
    (hperform : ∀ t choice r u, Site.perform t slot a choice = some (r, u) →
      ∃ e, choice = .effect e ∧ r = report e
        ∧ u = if e.applied then t.setDisk (write t.disk) else t)
    (hown : w.owner = some slot)
    (hinv : ∀ t, w.Later m slot t → t.Inv m → ∀ e,
      (m.tidy = true → t.TidyAct a (.effect e)) → e.applied = true →
      Inv m (t.setDisk (write t.disk))
        ∧ (m.monotone = true → t.Justified (t.setDisk (write t.disk))))
    (hk : ∀ t, w.Later m slot t → t.Inv m → ∀ e, (m.tidy = true → t.TidyAct a (.effect e)) →
      (arena m slot).Safe Q (k (report e)) (if e.applied then t.setDisk (write t.disk) else t)) :
    (arena m slot).Safe Q (.act a k) w := by
  rintro t hrely ht r u ⟨choice, htidy, hact⟩
  have hlater := rely_later hown hrely
  obtain ⟨e, rfl, rfl, rfl⟩ := hperform t choice r u hact
  have hrest := hk t hlater ht e htidy
  cases happlied : e.applied with
  | false =>
      rw [happlied] at hrest
      exact ⟨ht, ⟨.refl slot t, fun _ => .of_kept rfl rfl⟩, hrest⟩
  | true =>
      rw [happlied] at hrest
      obtain ⟨hwritten, hjustified⟩ := hinv t hlater ht e htidy happlied
      exact ⟨hwritten, ⟨.of_disk (hlater.toSame.owner.trans hown) _, hjustified⟩, hrest⟩

section Perform

variable {choice : Choice}

theorem perform_storeCredential {record : CredentialRecord} {r : Option Unit}
    (h : w.perform slot (.storeCredential record) choice = some (r, u)) :
    ∃ e, choice = .effect e ∧ r = e.reported
      ∧ u = if e.applied then w.setDisk { w.disk with credential := some record } else w := by
  cases choice <;> cases h
  exact ⟨_, rfl, rfl, rfl⟩

theorem perform_storeProfile {binding : ProfileBinding} {r : Option Unit}
    (h : w.perform slot (.storeProfile binding) choice = some (r, u)) :
    ∃ e, choice = .effect e ∧ r = e.reported
      ∧ u = match e with
        | .done => { w.setMetadata (some binding) with bound := w.bound ++ [binding.memberId] }
        | .unsynced => w.setMetadata (some binding)
        | .failed => w := by
  cases choice with
  | effect e =>
      cases h
      exact ⟨e, rfl, rfl, by cases e <;> rfl⟩
  | _ => cases h

theorem perform_storeJournal {journal : LeaveJournal} {r : Option Unit}
    (h : w.perform slot (.storeJournal journal) choice = some (r, u)) :
    ∃ e, choice = .effect e ∧ r = e.reported
      ∧ u = if e.applied then w.setDisk { w.disk with journal := some journal } else w := by
  cases choice <;> cases h
  exact ⟨_, rfl, rfl, rfl⟩

theorem perform_clearCredential {r : Option Unit}
    (h : w.perform slot .clearCredential choice = some (r, u)) :
    ∃ e, choice = .effect e ∧ r = e.reported
      ∧ u = if e.applied then w.setDisk { w.disk with credential := none } else w := by
  cases choice <;> cases h
  exact ⟨_, rfl, rfl, rfl⟩

theorem perform_clearProfile {r : Option Unit}
    (h : w.perform slot .clearProfile choice = some (r, u)) :
    ∃ e, choice = .effect e ∧ r = e.reported
      ∧ u = if e.applied then w.setDisk { w.disk with metadata := none } else w := by
  cases choice <;> cases h
  exact ⟨_, rfl, rfl, rfl⟩

theorem perform_removeJournal {r : Option Unit}
    (h : w.perform slot .removeJournal choice = some (r, u)) :
    ∃ e, choice = .effect e ∧ r = e.reported
      ∧ u = if e.applied then w.setDisk { w.disk with journal := none } else w := by
  cases choice <;> cases h
  exact ⟨_, rfl, rfl, rfl⟩

end Perform

/-! ## The session -/

section Perform

variable {choice : Choice}

theorem perform_setLifecycle {state : LifecycleState} {r : Unit}
    (h : w.perform slot (.setLifecycle state) choice = some (r, u)) :
    ∃ live, w.session = some live ∧ u = w.setLifecycle live state := by
  cases choice with
  | plain =>
      obtain ⟨live, hlive, hstep⟩ := Option.map_eq_some_iff.mp h
      cases hstep
      exact ⟨live, hlive, rfl⟩
  | _ => cases h

theorem perform_exchangeLifecycle {expected next : LifecycleState} {r : LifecycleState}
    (h : w.perform slot (.exchangeLifecycle expected next) choice = some (r, u)) :
    ∃ live, w.session = some live ∧ r = live.lifecycle
      ∧ u = if live.lifecycle = expected then w.setLifecycle live next else w := by
  cases choice with
  | plain =>
      obtain ⟨live, hlive, hstep⟩ := Option.map_eq_some_iff.mp h
      cases hstep
      exact ⟨live, hlive, rfl, rfl⟩
  | _ => cases h

theorem perform_publish {credential : Credential} {r : Unit}
    (h : w.perform slot (.publish credential) choice = some (r, u)) :
    ∃ live, w.session = some live
      ∧ u = { w with session := some { live with credential := credential } } := by
  cases choice with
  | plain =>
      obtain ⟨live, hlive, hstep⟩ := Option.map_eq_some_iff.mp h
      cases hstep
      exact ⟨live, hlive, rfl⟩
  | _ => cases h

theorem perform_lockHeartbeat {r : Unit}
    (h : w.perform slot .lockHeartbeat choice = some (r, u)) :
    u = { w with gate := some slot } := by
  cases choice with
  | plain =>
      obtain ⟨-, hstep⟩ := Option.ite_none_right_eq_some.mp h
      cases hstep
      rfl
  | _ => cases h

end Perform

/-- A session that keeps its profile is no affair of the other thread, unless it owns it. -/
theorem Courteous.of_session (hown : w.owner ≠ some slot.other) {live live' : LiveSession}
    (hlive : w.session = some live) (hprofile : live'.profile = live.profile) :
    Courteous slot w { w with session := some live' } where
  key := rfl
  running := rfl
  profile := by simp [hlive, hprofile]
  relay := Or.inl rfl
  frame hother := absurd hother hown

/-- **Setting the lifecycle**, by the owner. -/
theorem safe_setLifecycle {state : LifecycleState} {k : Unit → Run α} {live : LiveSession}
    (hown : w.owner = some slot) (hlive : w.session = some live)
    (hinv : ∀ t, w.Later m slot t → t.Inv m → Inv m (t.setLifecycle live state))
    (hk : ∀ t, w.Later m slot t → t.Inv m →
      (arena m slot).Safe Q (k ()) (t.setLifecycle live state)) :
    (arena m slot).Safe Q (.act (.setLifecycle state) k) w := by
  rintro t hrely ht r u ⟨choice, -, hperform⟩
  have hlater := rely_later hown hrely
  have hlive' : t.session = some live := hlater.toSame.session.trans hlive
  obtain ⟨other, hother, rfl⟩ := perform_setLifecycle hperform
  cases hlive'.symm.trans hother
  refine ⟨hinv t hlater ht, ⟨.of_session ?_ hlive' rfl, fun _ => .of_kept rfl rfl⟩,
    hk t hlater ht⟩
  rw [hlater.toSame.owner.trans hown]
  cases slot <;> simp [Slot.other]

/-- **Exchanging the lifecycle**, by the owner, who knows it. -/
theorem safe_exchangeLifecycle {expected next : LifecycleState} {k : LifecycleState → Run α}
    {live : LiveSession} (hown : w.owner = some slot) (hlive : w.session = some live)
    (hstate : live.lifecycle = expected)
    (hinv : ∀ t, w.Later m slot t → t.Inv m → Inv m (t.setLifecycle live next))
    (hk : ∀ t, w.Later m slot t → t.Inv m →
      (arena m slot).Safe Q (k expected) (t.setLifecycle live next)) :
    (arena m slot).Safe Q (.act (.exchangeLifecycle expected next) k) w := by
  rintro t hrely ht r u ⟨choice, -, hperform⟩
  have hlater := rely_later hown hrely
  have hlive' : t.session = some live := hlater.toSame.session.trans hlive
  obtain ⟨other, hother, rfl, rfl⟩ := perform_exchangeLifecycle hperform
  cases hlive'.symm.trans hother
  rw [if_pos hstate, hstate]
  refine ⟨hinv t hlater ht, ⟨.of_session ?_ hlive' rfl, fun _ => .of_kept rfl rfl⟩,
    hk t hlater ht⟩
  rw [hlater.toSame.owner.trans hown]
  cases slot <;> simp [Slot.other]

/-- **Publishing a credential**, by the owner. -/
theorem safe_publish {credential : Credential} {k : Unit → Run α} {live : LiveSession}
    (hown : w.owner = some slot) (hlive : w.session = some live)
    (hinv : ∀ t, w.Later m slot t → t.Inv m →
      Inv m { t with session := some { live with credential := credential } })
    (hk : ∀ t, w.Later m slot t → t.Inv m →
      (arena m slot).Safe Q (k ()) { t with session := some { live with credential := credential } }) :
    (arena m slot).Safe Q (.act (.publish credential) k) w := by
  rintro t hrely ht r u ⟨choice, -, hperform⟩
  have hlater := rely_later hown hrely
  have hlive' : t.session = some live := hlater.toSame.session.trans hlive
  obtain ⟨other, hother, rfl⟩ := perform_publish hperform
  cases hlive'.symm.trans hother
  refine ⟨hinv t hlater ht, ⟨.of_session ?_ hlive' rfl, fun _ => .of_kept rfl rfl⟩,
    hk t hlater ht⟩
  rw [hlater.toSame.owner.trans hown]
  cases slot <;> simp [Slot.other]

/-- **Taking the heartbeat gate** changes nothing else. -/
theorem safe_lockHeartbeat {k : Unit → Run α} (hown : w.owner = some slot)
    (hk : ∀ t, w.Later m slot t → t.Inv m → (arena m slot).Safe Q (k ()) t) :
    (arena m slot).Safe Q (.act .lockHeartbeat k) w := by
  rintro t hrely ht r u ⟨choice, -, hperform⟩
  have hlater := rely_later hown hrely
  obtain rfl := perform_lockHeartbeat hperform
  have hlocked : Inv m { t with gate := some slot } :=
    { sane :=
        { ht.sane with session := fun live hlive => { ht.sane.session live hlive with } }
      truthful := fun hm => { ht.truthful hm with }
      covered := fun hm => { ht.covered hm with }
      neat := fun hm => { ht.neat hm with } }
  refine ⟨hlocked, ⟨⟨rfl, rfl, rfl, Or.inl rfl, fun _ => ⟨t.relay, some slot, rfl⟩⟩,
    fun _ => .of_kept rfl rfl⟩, hk _ (hlater.tail ⟨ht, hlocked, ?_⟩) hlocked⟩
  exact ⟨t.relay, some slot, t.running, rfl, fun _ => rfl, Or.inl rfl⟩

/-! ## Sending and waiting -/

section Perform

variable {choice : Choice}

theorem perform_send {request : Request} {r : Except ClientError Nat}
    (h : w.perform slot (.send request) choice = some (r, u)) :
    (∃ e, e.beforeSend = true ∧ r = .error e ∧ u = w)
      ∨ ∃ drawn relay, w.relay.step (.issue (request.command drawn)) = some relay
          ∧ r = .ok w.relay.calls.length
          ∧ u = noteLeave { w with relay := relay } w.relay.calls.length request := by
  cases choice with
  | refuse e =>
      obtain ⟨hbefore, hstep⟩ := Option.ite_none_right_eq_some.mp h
      cases hstep
      exact Or.inl ⟨e, hbefore, rfl, rfl⟩
  | issue drawn =>
      obtain ⟨relay, hissued, hstep⟩ := Option.map_eq_some_iff.mp h
      cases hstep
      exact Or.inr ⟨drawn, relay, hissued, rfl, rfl⟩
  | _ => cases h

theorem perform_await {i : Nat} {r : Arrival}
    (h : w.perform slot (.await i) choice = some (r, u)) :
    u = w.stopWaiting i ∧ w.relay.Delivers i r := by
  cases choice with
  | answered =>
      obtain ⟨arrival, harrived, hstep⟩ := Option.map_eq_some_iff.mp h
      cases hstep
      simp only [arrived, Option.bind_eq_bind, Option.bind_eq_some_iff] at harrived
      obtain ⟨c, hc, response, hresponse, ⟨⟩⟩ := harrived
      exact ⟨rfl, fun _ heq => by cases heq; exact ⟨c, hc, hresponse⟩⟩
  | lost timedOut =>
      cases h
      exact ⟨rfl, fun _ heq => by cases timedOut <;> cases heq⟩
  | _ => cases h

end Perform

omit [Sha256] in
theorem stopWaiting_of_quiet (h : w.waiting = none) (i : Nat) : w.stopWaiting i = w := by
  cases w
  cases h
  rfl

/-- What the owner learns of a call it made. -/
structure Hears (m : Mode) (w : Site) (i : Nat) (command : StoreCommand) (P : Store → Prop)
    (arrival : Arrival) : Prop where
  calls : w.Calls i command P
  delivers : w.relay.Delivers i arrival
  latest : m.punctual = true → w.Latest i

theorem Hears.later {i : Nat} {command : StoreCommand} {P : Store → Prop} {arrival : Arrival}
    (h : w.Hears m i command P arrival) (hP : ∀ s t : Store, s.Grows t → P s → P t)
    (hquiet : w.waiting = none) (hlater : w.Later m slot t) : t.Hears m i command P arrival where
  calls := h.calls.later hP hlater
  delivers := delivers_later h.delivers hlater
  latest hm := (h.latest hm).later hm hquiet hlater

/-- A call just made has not run, and no leave is behind it. -/
theorem calls_of_issue (hw : w.Inv m) {command : StoreCommand} {P : Store → Prop}
    (hnow : P w.relay.store) {relay : Relay}
    (hstep : w.relay.step (.issue command) = some relay) :
    Calls { w with relay := relay } w.relay.calls.length command P
      ∧ Latest { w with relay := relay } w.relay.calls.length := by
  have hr : relay = _ := Relay.step_issue hstep
  have hunscheduled : w.relay.calls.length ∉ relay.schedule := by
    rw [hr]
    exact fun hmem => absurd (hw.sane.relay.lt_of_mem_schedule hmem) (Nat.lt_irrefl _)
  refine ⟨⟨⟨⟨command, .inFlight, .unsent⟩, ?_, rfl⟩, ?_, .of_not_ran ?_⟩, fun p _ hsub => ?_⟩
  · simp [hr]
  · rw [hr]
    exact hnow
  · rintro ⟨e, he, hcall⟩
    exact hunscheduled (List.mem_append_left _ (List.mem_map.mpr ⟨e, he, hcall⟩))
  · exact hunscheduled (hsub.subset (List.mem_cons_self ..))

/-- **Asking**, for any request but a leave: nothing but time passes, and the answer is about
a store where `P` held. -/
theorem safe_transport {request : Request} (hrequest : ∀ squad c, request ≠ .leave squad c)
    (hown : w.owner = some slot) (hquiet : w.waiting = none) {P : Store → Prop}
    (hP : ∀ s t : Store, s.Grows t → P s → P t) (hnow : P w.relay.store) :
    (arena m slot).Safe
      (fun result t => w.Later m slot t ∧ match result with
        | .error e => e.beforeSend = true
        | .ok arrival => ∃ i drawn, t.Hears m i (request.command drawn) P arrival)
      (transport request) w := by
  rintro t hrely ht r u ⟨choice, -, hperform⟩
  have hlater := rely_later hown hrely
  have hown' := hlater.toSame.owner.trans hown
  rcases perform_send hperform with ⟨e, he, rfl, rfl⟩ | ⟨drawn, relay, hstep, rfl, rfl⟩
  · refine ⟨ht, ⟨.refl slot u, fun _ => .of_kept rfl rfl⟩, fun v hrely _ => ?_⟩
    exact ⟨hlater.trans (rely_later hown' hrely), he⟩
  have hnote : noteLeave { t with relay := relay } t.relay.calls.length request
      = { t with relay := relay } := by
    cases request with
    | leave squad c => exact absurd rfl (hrequest squad c)
    | _ => rfl
  rw [hnote]
  have hissued : Inv m { t with relay := relay } := ht.relayStep (m.admits_issue t _) hstep
  have hpasses : Passes m slot t { t with relay := relay } :=
    ⟨ht, hissued, relay, t.gate, t.running, rfl, fun _ => rfl,
      Or.inr ⟨_, m.admits_issue t _, hstep⟩⟩
  have hcall := calls_of_issue (P := P) ht (hP _ _ hlater.grows hnow) hstep
  have hquiet' : t.waiting = none := hlater.toSame.waiting.trans hquiet
  refine ⟨hissued, ⟨⟨rfl, rfl, rfl, Or.inr ⟨_, hstep⟩, fun _ => ⟨relay, t.gate, rfl⟩⟩,
    fun _ => .of_kept rfl rfl⟩, ?_⟩
  -- the wait
  rintro v hrely hv arrival x ⟨choice, -, hperform⟩
  have hlater' : Later m slot { t with relay := relay } v := rely_later hown' hrely
  have hquietv : v.waiting = none := hlater'.toSame.waiting.trans hquiet'
  obtain ⟨rfl, hdelivers⟩ := perform_await hperform
  rw [stopWaiting_of_quiet hquietv]
  have hhears : v.Hears m t.relay.calls.length (request.command drawn) P arrival :=
    ⟨hcall.1.later hP hlater', hdelivers, fun hm => hcall.2.later hm hquiet' hlater'⟩
  refine ⟨hv, ⟨.refl slot v, fun _ => .of_kept rfl rfl⟩, fun y hrely _ => ?_⟩
  have hlatery := rely_later (hlater'.toSame.owner.trans hown') hrely
  exact ⟨(hlater.tail hpasses).trans (hlater'.trans hlatery), _, drawn,
    hhears.later hP hquietv hlatery⟩

/-! ## Cleaning up after a leave -/

/-- Everything on disk may go: the membership is over, or was never bound. -/
structure Dismissed (m : Mode) (w : Site) : Prop where
  owner : w.owner = some .operation
  concluded : m.tidy = true → w.disk.Concluded
  whole : m.tidy = true → ¬ w.disk.HalfBound
  metadata : m.monotone = true → ∀ b ∈ w.disk.metadata, w.relay.store.Finished b.memberId
  credential : m.monotone = true → ∀ record ∈ w.disk.credential,
    w.relay.store.Finished record.binding.memberId
      ∨ (record.binding.memberId ∉ w.bound ∧ w.running = some .recover)

theorem Dismissed.later (h : w.Dismissed m) (hlater : w.Later m .operation t) :
    t.Dismissed m := by
  have hsame := hlater.toSame
  refine ⟨hsame.owner.trans h.owner, hsame.disk ▸ h.concluded, hsame.disk ▸ h.whole, ?_, ?_⟩
  · rw [hsame.disk]
    exact fun hm b hb => (h.metadata hm b hb).grows hlater.grows
  · rw [hsame.disk, hsame.bound, hlater.running]
    exact fun hm record hrecord =>
      (h.credential hm record hrecord).imp_left fun hfinished => hfinished.grows hlater.grows

omit [Sha256] in
theorem unstarted_of_owner (h : w.owner = some .operation) : w.Unstarted := by
  intro live hlive
  unfold Site.owner at h
  rw [show w.session = some live from hlive] at h
  cases hstate : live.lifecycle <;> simp [hstate] at h <;> rfl

omit [Sha256] in
/-- Removing more does not change that. -/
theorem Dismissed.setDisk (h : w.Dismissed m) {d : Disk}
    (hmetadata : ∀ b ∈ d.metadata, b ∈ w.disk.metadata)
    (hcredential : ∀ record ∈ d.credential, record ∈ w.disk.credential)
    (hconcluded : m.tidy = true → d.Concluded) (hwhole : m.tidy = true → ¬ d.HalfBound) :
    (w.setDisk d).Dismissed m where
  owner := h.owner
  concluded := hconcluded
  whole := hwhole
  metadata hm b hb := h.metadata hm b (hmetadata b hb)
  credential hm record hrecord := h.credential hm record (hcredential record hrecord)

omit [Sha256] in
theorem Dismissed.justified (h : w.Dismissed m) (hm : m.monotone = true) (u : Site) :
    w.Justified u where
  metadata b hb _ := h.metadata hm b hb
  credential record hrecord _ :=
    (h.credential hm record hrecord).imp_right fun hnew => ⟨hnew.1, Or.inr hnew.2⟩

/-- How far a clean-up that began in `w` has come. -/
structure Swept (m : Mode) (w t : Site) : Prop extends t.Dismissed m where
  session : t.session = w.session
  waiting : t.waiting = w.waiting
  grows : w.relay.store.Grows t.relay.store

theorem Swept.later (h : Swept m w t) (hlater : t.Later m .operation u) : Swept m w u where
  toDismissed := h.toDismissed.later hlater
  session := hlater.toSame.session.trans h.session
  waiting := hlater.toSame.waiting.trans h.waiting
  grows := h.grows.trans hlater.grows

theorem Swept.ret (h : Swept m w t) {a : α} :
    (arena m .operation).Safe (fun _ u => Swept m w u) (.ret a) t :=
  fun _ hrely _ => h.later (rely_later h.owner hrely)

theorem safe_sweepJournal {k : Option Unit → Run α} (h : Swept m w t)
    (hcredential : t.disk.credential = none) (hmetadata : t.disk.metadata = none)
    (hk : ∀ r u, Swept m w u → (arena m .operation).Safe Q (k r) u) :
    (arena m .operation).Safe Q (.act .removeJournal k) t := by
  have hswept : ∀ u, t.Later m .operation u →
      Swept m w (u.setDisk { u.disk with journal := none }) := by
    intro u hlater
    have hu := h.later hlater
    have hnone : u.disk.metadata = none := hlater.toSame.disk ▸ hmetadata
    exact
      { hu with
        toDismissed := hu.toDismissed.setDisk (fun _ hb => hb) (fun _ hr => hr)
          (fun _ => Or.inl hnone) hu.whole }
  refine safe_write Effect.reported (fun d => { d with journal := none })
    (fun _ _ _ _ => perform_removeJournal) h.owner ?_ ?_
  · intro u hlater hu e _ _
    have hdisk := hlater.toSame.disk
    have hforgets : ∀ member, u.disk.Forgets member := by
      refine fun member => ⟨fun b hb => ?_, fun record hrecord => ?_⟩
      · rw [hdisk, hmetadata] at hb
        cases hb
      · rw [hdisk, hcredential] at hrecord
        cases hrecord
    exact ⟨hu.removeJournal (fun _ p _ _ => hforgets p.2) fun _ => Or.inl (hdisk ▸ hmetadata),
      fun hm => (h.later hlater).justified hm _⟩
  · intro u hlater hu e _
    cases e with
    | failed => exact hk _ _ (h.later hlater)
    | unsynced => exact hk _ _ (hswept u hlater)
    | done => exact hk _ _ (hswept u hlater)

theorem safe_sweepProfile {k : Option Unit → Run α} (h : Swept m w t)
    (hcredential : t.disk.credential = none)
    (hfailed : ∀ u, Swept m w u → (arena m .operation).Safe Q (k none) u)
    (hdone : ∀ u, Swept m w u → u.disk.credential = none → u.disk.metadata = none →
      (arena m .operation).Safe Q (k (some ())) u) :
    (arena m .operation).Safe Q (.act .clearProfile k) t := by
  have hnone : ∀ u, t.Later m .operation u → u.disk.credential = none :=
    fun u hlater => hlater.toSame.disk ▸ hcredential
  have hswept : ∀ u, t.Later m .operation u →
      Swept m w (u.setDisk { u.disk with metadata := none }) := by
    intro u hlater
    have hu := h.later hlater
    exact
      { hu with
        toDismissed := hu.toDismissed.setDisk (fun _ hb => by cases hb) (fun _ hr => hr)
          (fun _ => Or.inl rfl)
          fun _ hhalf => by rw [Disk.HalfBound, hnone u hlater] at hhalf; cases hhalf.1 }
  refine safe_write Effect.reported (fun d => { d with metadata := none })
    (fun _ _ _ _ => perform_clearProfile) h.owner ?_ ?_
  · intro u hlater hu e _ _
    have hd := h.later hlater
    exact ⟨hu.clearProfile (unstarted_of_owner hd.owner) (hnone u hlater) hd.concluded,
      fun hm => hd.justified hm _⟩
  · intro u hlater hu e _
    cases e with
    | failed => exact hfailed _ (h.later hlater)
    | unsynced => exact hfailed _ (hswept u hlater)
    | done => exact hdone _ (hswept u hlater) (hnone u hlater) rfl

theorem safe_sweepCredential {k : Option Unit → Run α} (h : Swept m w t)
    (hfailed : ∀ u, Swept m w u → (arena m .operation).Safe Q (k none) u)
    (hdone : ∀ u, Swept m w u → u.disk.credential = none →
      (arena m .operation).Safe Q (k (some ())) u) :
    (arena m .operation).Safe Q (.act .clearCredential k) t := by
  have hswept : ∀ u, t.Later m .operation u →
      Swept m w (u.setDisk { u.disk with credential := none }) := by
    intro u hlater
    have hu := h.later hlater
    exact
      { hu with
        toDismissed := hu.toDismissed.setDisk (fun _ hb => hb) (fun _ hr => by cases hr)
          hu.concluded fun _ hhalf => by cases hhalf.1 }
  refine safe_write Effect.reported (fun d => { d with credential := none })
    (fun _ _ _ _ => perform_clearCredential) h.owner ?_ ?_
  · intro u hlater hu e _ _
    have hd := h.later hlater
    exact ⟨hu.clearCredential (unstarted_of_owner hd.owner) hd.concluded,
      fun hm => hd.justified hm _⟩
  · intro u hlater hu e _
    cases e with
    | failed => exact hfailed _ (h.later hlater)
    | unsynced => exact hfailed _ (hswept u hlater)
    | done => exact hdone _ (hswept u hlater) rfl

/-- **Cleaning up** keeps the promise wherever it stops. -/
theorem safe_cleanupConfirmedLeave (h : w.Dismissed m) :
    (arena m .operation).Safe (fun _ t => Swept m w t) cleanupConfirmedLeave w := by
  have hw : Swept m w w := ⟨h, rfl, rfl, .refl _⟩
  unfold cleanupConfirmedLeave
  simp only [Prog.perform_bind]
  refine safe_sweepCredential hw (fun u hu => hu.ret) fun t ht hcredential => ?_
  refine safe_sweepProfile ht hcredential (fun u hu => hu.ret) fun u hu hcredential hmetadata => ?_
  refine safe_sweepJournal hu hcredential hmetadata fun r v hv => ?_
  cases r with
  | none => exact hv.ret
  | some _ => exact hv.ret

end Site

end Psst
