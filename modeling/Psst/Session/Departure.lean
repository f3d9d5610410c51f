import Psst.Session.Safety

/-!
# Leaves and heartbeats keep the promise

The two programs that run beside each other in a started session. A leave owns the files from
the moment it takes the lifecycle from `Ready`; a heartbeat owns them while it resumes an
expired lease.
-/

namespace Psst

namespace Site

variable [Sha256] {m : Mode} {slot : Slot} {w t u : Site}

/-! ## Ways out of a leave -/

section Exits

variable {α : Type} {profile : ProfileBinding} {credential : Credential}

/-- A program that promises nothing about its result may end anywhere. -/
theorem safe_ret {a : α} : (arena m slot).Safe (fun _ _ => True) (.ret a) w :=
  fun _ _ _ => trivial

theorem safe_rollbackLeave (h : w.Leaving m profile credential) :
    (arena m .operation).Safe (fun _ _ => True) rollbackLeave w := by
  have hK := lasting_leaving m profile credential
  unfold rollbackLeave
  simp only [Prog.perform_bind]
  refine safe_read rfl fun t hrely ht stopping _ => ?_
  have hkt := hK.later w t h (rely_later (hK.owner w h) hrely)
  split
  · exact safe_ret
  refine safe_read rfl fun u hrely hu stopping _ => ?_
  have hku := hK.later t u hkt (rely_later (hK.owner t hkt) hrely)
  split
  · exact safe_ret
  refine safe_setLifecycle (hK.owner u hku) hku.session (fun v hlater hv => ?_)
    fun _ _ _ => safe_ret
  have hkv := hK.later u v hku hlater
  exact hv.setSession hkv.session rfl (hv.sane.session _ hkv.session).issued (Or.inl hkv.quiet)
    (fun _ => ⟨hkv.metadata, hkv.credential, hkv.settled⟩) (fun hleft => by cases hleft)

theorem safe_giveUpLeave {error : SessionError} {live : LiveSession}
    (hown : w.owner = some .operation) (hlive : w.session = some live)
    (hquiet : w.waiting = none) :
    (arena m .operation).Safe (fun _ _ => True) (giveUpLeave (α := α) error) w := by
  unfold giveUpLeave
  simp only [Prog.perform_bind]
  refine safe_setLifecycle hown hlive (fun t hlater ht => ?_) fun _ _ _ => safe_ret
  have hlive' := hlater.toSame.session.trans hlive
  exact ht.setSession hlive' rfl (ht.sane.session _ hlive').issued
    (Or.inl (hlater.toSame.waiting.trans hquiet)) (fun hstarted => by cases hstarted)
    (fun hleft => by cases hleft)

theorem safe_finishLeave {intent : LeaveJournal} {live : LiveSession}
    {response : Except ClientError LeaveSquadResponse}
    (h : w.Concluding m profile (some live)) (hprofile : live.profile = profile)
    (hloads : intent.Loads profile) :
    (arena m .operation).Safe (fun _ _ => True) (finishLeave intent response) w := by
  unfold finishLeave
  refine Arena.Safe.bind ((safe_journalConfirmation h hloads).imp ?_)
  rintro (e | ⟨⟩) t ⟨hk, hjournal⟩
  · exact safe_giveUpLeave hk.owner hk.session hk.quiet
  refine Arena.Safe.of_rely fun u hrely hu => ?_
  have hlater := rely_later hk.owner hrely
  have hku := (lasting_concluding m profile (some live)).later t u hk hlater
  refine Arena.Safe.bind ((safe_cleanupConfirmedLeave
    (hku.dismissed hu (hlater.toSame.disk ▸ hjournal rfl))).imp ?_)
  rintro cleanup v hv
  -- whatever is left of the files, the membership is over
  have hlive : v.session = some live := hv.session.trans hku.session
  simp only [Prog.perform_bind]
  refine safe_setLifecycle hv.owner hlive (fun x hlater hx => ?_) fun x _ _ => ?_
  · have hx' := hv.later hlater
    have hlive' := hlater.toSame.session.trans hlive
    refine hx.setSession hlive' rfl (hx.sane.session _ hlive').issued
      (Or.inl (hx'.waiting.trans hku.quiet)) (fun hstarted => by cases hstarted) fun _ =>
      ⟨fun hm => ?_, hx'.concluded⟩
    rw [hprofile]
    exact (hku.finished hm).grows hx'.grows
  · refine safe_read rfl fun y _ _ r _ => ?_
    cases r with
    | none => exact safe_ret
    | some _ =>
        cases cleanup with
        | error e => exact safe_ret
        | ok _ => exact safe_ret

end Exits

/-! ## The leave itself -/

/-- Call `i` is the only leave of the membership that may still happen. -/
def OthersSettled (w : Site) (i : Nat) (member : MembershipId) : Prop :=
  ∀ p ∈ w.leaves, p.2 = member → p.1 ≠ i → ¬ w.Pending p.1

theorem OthersSettled.later {i : Nat} {member : MembershipId} (hm : m.punctual = true)
    (h : w.OthersSettled i member) (hlater : w.Later m slot t) : t.OthersSettled i member :=
  hlater.keeps (K := fun u => u.OthersSettled i member) (fun _ _ _ hu => hu)
    (fun _ _ _ hinv hl hstep hu p hp hmember hne hpending =>
      hu p hp hmember hne
        (hpending.of_relayStep hinv.sane (hl.2 hm) hstep (List.mem_map_of_mem hp))) h

/-- The session is leaving, and its journal says so. -/
structure Departing (m : Mode) (profile : ProfileBinding) (credential : Credential)
    (intent : LeaveJournal) (w : Site) : Prop where
  session : w.session = some ⟨profile, credential, .leaving⟩
  metadata : w.disk.metadata = some profile
  credential : m.tidy = true → w.disk.credential ≠ none
  journal : w.disk.journal = some intent

theorem lasting_departing (m : Mode) (profile : ProfileBinding) (credential : Credential)
    (intent : LeaveJournal) : Lasting m .operation (Departing m profile credential intent) where
  owner _ h := by simp [Site.owner, h.session]
  later _ _ h hlater := by
    have hsame := hlater.toSame
    exact ⟨hsame.session.trans h.session, hsame.disk ▸ h.metadata, hsame.disk ▸ h.credential,
      hsame.disk ▸ h.journal⟩

/-- What the answer to a leave proves. -/
structure Answers (m : Mode) (member : MembershipId)
    (result : Except ClientError LeaveSquadResponse) (w : Site) : Prop where
  left : ∀ body, result = .ok body → w.relay.store.Left body.membershipId
  denied : ∀ status code retryable, result = .error (.api status code retryable) →
    code.denies = true → m.monotone = true → w.relay.store.Finished member
  refused : ∀ status code retryable, result = .error (.api status code retryable) →
    m.punctual = true → code.denies = false → w.Settled member

theorem Answers.later {member : MembershipId} {result : Except ClientError LeaveSquadResponse}
    (h : w.Answers m member result) (hlater : w.Later m slot t) : t.Answers m member result where
  left body heq := (h.left body heq).grows hlater.grows
  denied status code retryable heq hcode hm :=
    (h.denied status code retryable heq hcode hm).grows hlater.grows
  refused status code retryable heq hm hcode :=
    (h.refused status code retryable heq hm hcode).later hm hlater

theorem answers_of_hears {profile : ProfileBinding} {credential : Credential} {squad : SquadName}
    {i : Nat} {arrival : Arrival} (hw : w.Inv m)
    (hcalls : w.Calls i (.leave credential squad) fun s => s.Issued credential profile.memberId)
    (hdelivers : w.relay.Delivers i arrival) (hmem : (i, profile.memberId) ∈ w.leaves)
    (hothers : m.punctual = true → w.OthersSettled i profile.memberId) :
    (w.stopWaiting i).Answers m profile.memberId (Client.leave arrival) := by
  rcases hw.sane.relay.leave_result hdelivers hcalls.asked with ⟨body, outcome, heq, hanswer, hid⟩
    | ⟨code, heq, hrefuses⟩ | heq
  · rw [heq]
    refine ⟨?_, (fun _ _ _ h => by cases h), fun _ _ _ h => by cases h⟩
    rintro _ ⟨⟩
    rw [hid]
    exact hw.sane.relay.left_of_answered hanswer
  · rw [heq]
    refine ⟨(fun _ h => by cases h), ?_, ?_⟩
    · rintro _ _ _ ⟨⟩ hcode hm
      obtain ⟨e, he, hanswer⟩ := hrefuses.denied hcode
      exact hw.sane.relay.denied (hw.truthful hm).orderly he hanswer hcalls.asked rfl hcalls.ran
    · rintro _ _ _ ⟨⟩ hm -
      obtain ⟨hheld, heffective⟩ := hw.sane.relay.refused_leave hcalls.asked hrefuses
        ((hw.covered hm).timely _ hmem) (hw.covered hm).calendar
      intro p hp hmember hpending
      by_cases hi : p.1 = i
      · rw [hi] at hpending
        rcases hpending with h | h | h
        · exact hheld h
        · exact heffective h
        · simp only [stopWaiting] at h
          split at h
          · cases h
          · next hne => exact hne h
      · refine hothers hm p hp hmember hi ?_
        rcases hpending with h | h | h
        · exact Or.inl h
        · exact Or.inr (Or.inl h)
        · simp only [stopWaiting] at h
          split at h
          · cases h
          · exact Or.inr (Or.inr h)
  · rw [heq]
    exact ⟨(fun _ h => by cases h), (fun _ _ _ h => by cases h), fun _ _ _ h => by cases h⟩

/-- **Leaving.** The journal covers the leave while it is on its way. -/
theorem safe_leave {profile : ProfileBinding} {credential : Credential} {intent : LeaveJournal}
    {squad : SquadName} (h : w.Departing m profile credential intent)
    (hintent : intent.binding = profile) (hquiet : w.waiting = none)
    (hsettled : m.punctual = true → w.Settled profile.memberId) :
    (arena m .operation).Safe
      (fun result t => t.Departing m profile credential intent ∧ t.waiting = none
        ∧ t.Answers m profile.memberId result)
      (Transport.leave squad credential) w := by
  have hK := lasting_departing m profile credential intent
  unfold Transport.leave transport
  simp only [Prog.perform_bind]
  rintro t hrely ht r u ⟨choice, -, hperform⟩
  have hlater := rely_later (hK.owner w h) hrely
  have hkt := hK.later w t h hlater
  have hquiet' : t.waiting = none := hlater.toSame.waiting.trans hquiet
  rcases perform_send hperform with ⟨e, he, rfl, rfl⟩ | ⟨drawn, relay, hstep, rfl, rfl⟩
  · refine ⟨ht, ⟨.refl .operation u, fun _ => .of_kept rfl rfl⟩, fun v hrely _ => ?_⟩
    have hlater' := rely_later (hK.owner u hkt) hrely
    refine ⟨hK.later u v hkt hlater', hlater'.toSame.waiting.trans hquiet', ?_⟩
    refine ⟨(fun _ h => by cases h), ?_, ?_⟩
    · rintro _ _ _ ⟨⟩
      cases he
    · rintro _ _ _ ⟨⟩
      cases he
  have hnote : noteLeave { t with relay := relay } t.relay.calls.length (.leave squad credential)
      = { t with
          relay := relay
          leaves := t.leaves ++ [(t.relay.calls.length, profile.memberId)]
          waiting := some t.relay.calls.length } := by
    simp only [noteLeave, hkt.session]
  rw [hnote]
  have hsent := ht.sendLeave hkt.session rfl hstep
    ⟨intent, hkt.journal, congrArg ProfileBinding.memberId hintent⟩
  have hcall := (calls_of_issue (P := fun s => s.Issued credential profile.memberId) ht
    (ht.sane.session _ hkt.session).issued hstep).1
  refine ⟨hsent, ⟨⟨rfl, rfl, rfl, Or.inr ⟨_, hstep⟩, fun hother => ?_⟩,
    fun _ => .of_kept rfl rfl⟩, ?_⟩
  · rw [hK.owner t hkt] at hother
    cases hother
  generalize hu : ({ t with
    relay := relay
    leaves := t.leaves ++ [(t.relay.calls.length, profile.memberId)]
    waiting := some t.relay.calls.length } : Site) = u at hsent ⊢
  have hku : u.Departing m profile credential intent := by
    rw [← hu]
    exact { hkt with }
  have hcalls : u.Calls t.relay.calls.length (.leave credential squad)
      fun s => s.Issued credential profile.memberId := by
    rw [← hu]
    exact { hcall with }
  have hothers : m.punctual = true → u.OthersSettled t.relay.calls.length profile.memberId := by
    intro hm p hp hmember hne hpending
    rw [← hu] at hp hpending
    rcases List.mem_append.mp hp with hp | hp
    · refine ((hsettled hm).later hm hlater).relayStep ht.sane
        ((m.admits_issue t _).2 hm) hstep p hp hmember ?_
      rcases hpending with hheld | heffective | hwaiting
      · exact Or.inl hheld
      · exact Or.inr (Or.inl heffective)
      · exact absurd (Option.some.inj hwaiting).symm hne
    · rw [List.mem_singleton.mp hp] at hne
      exact hne rfl
  have hmem : (t.relay.calls.length, profile.memberId) ∈ u.leaves := by
    rw [← hu]
    exact List.mem_append_right _ (List.mem_singleton_self _)
  have hwaiting : u.waiting = some t.relay.calls.length := by rw [← hu]
  -- the wait
  rintro v hrely hv arrival x ⟨choice, -, hperform⟩
  have hlater' := rely_later (hK.owner u hku) hrely
  obtain ⟨rfl, hdelivers⟩ := perform_await hperform
  have hkv := hK.later u v hku hlater'
  have hstopped : Departing m profile credential intent (v.stopWaiting t.relay.calls.length) :=
    { hkv with }
  have hanswers := answers_of_hears hv
    (hcalls.later (issued_grows credential profile.memberId) hlater') hdelivers
    (hlater'.toSame.leaves ▸ hmem) fun hm => (hothers hm).later hm hlater'
  have hnone : (v.stopWaiting t.relay.calls.length).waiting = none := by
    simp [stopWaiting, hlater'.toSame.waiting, hwaiting]
  refine ⟨hv.stopWaiting _, ⟨⟨rfl, rfl, rfl, Or.inl rfl, fun hother => ?_⟩,
    fun _ => .of_kept rfl rfl⟩, fun y hrely _ => ?_⟩
  · rw [hK.owner v hkv] at hother
    cases hother
  · have hlatery := rely_later (hK.owner _ hstopped) hrely
    exact ⟨hK.later _ y hstopped hlatery, hlatery.toSame.waiting.trans hnone,
      hanswers.later hlatery⟩

theorem safe_classifyLeave {profile : ProfileBinding} {credential : Credential}
    {intent : LeaveJournal} {result : Except ClientError LeaveSquadResponse}
    (h : w.Departing m profile credential intent) (hloads : intent.Loads profile)
    (hquiet : w.waiting = none) (hanswers : w.Answers m profile.memberId result) :
    (arena m .operation).Safe (fun _ _ => True) (classifyLeave profile intent result) w := by
  have hK := lasting_departing m profile credential intent
  have hown := hK.owner w h
  have hconcluding : (m.monotone = true → w.relay.store.Finished profile.memberId) →
      w.Concluding m profile (some ⟨profile, credential, .leaving⟩) := by
    refine fun hfinished => ⟨hown, h.session, fun live hlive => ?_, h.metadata, hquiet, hfinished⟩
    cases h.session.symm.trans hlive
    simp
  unfold classifyLeave
  split
  · next body =>
      split
      · next hmember =>
          refine safe_finishLeave (hconcluding fun _ => ?_) rfl hloads
          rw [← hmember]
          exact (hanswers.left body rfl).finished
      · exact safe_giveUpLeave hown h.session hquiet
  · next status code retryable =>
      split
      · next hcode =>
          have hdenies : code.denies = true := by rcases hcode with rfl | rfl <;> rfl
          exact safe_finishLeave
            (hconcluding (hanswers.denied status code retryable rfl hdenies)) rfl hloads
      · next hcode =>
          have hrefused : code.denies = false := by
            cases code <;> first | rfl | exact absurd (by simp) hcode
          simp only [Prog.perform_bind]
          refine safe_write Effect.reported (fun d => { d with journal := none })
            (fun _ _ _ _ => perform_removeJournal) hown ?_ ?_
          · intro t hlater ht e _ _
            have hkt := hK.later w t h hlater
            refine ⟨ht.removeJournal (fun hm => forgets_of_settled ht hkt.metadata
              ((hanswers.later hlater).refused status code retryable rfl hm hrefused))
              fun hm => Or.inr ⟨hkt.credential hm, fun live hlive => ?_⟩,
              fun _ => .of_kept rfl rfl⟩
            cases hkt.session.symm.trans hlive
            simp
          · intro t hlater ht e _
            have hkt := hK.later w t h hlater
            have hquiet' := hlater.toSame.waiting.trans hquiet
            have hstays : (arena m .operation).Safe (fun _ _ => True)
                (giveUpLeave (α := LeaveSquadResponse) (.local .os)) (t.setJournal none) :=
              safe_giveUpLeave (hK.owner t hkt) hkt.session hquiet'
            cases e with
            | failed => exact safe_giveUpLeave (hK.owner t hkt) hkt.session hquiet'
            | unsynced => exact hstays
            | done =>
                have hleaving : Leaving m profile credential (t.setJournal none) :=
                  ⟨hkt.session, hkt.metadata, hkt.credential, hquiet', fun hm =>
                    (hanswers.later hlater).refused status code retryable rfl hm hrefused⟩
                exact Arena.Safe.bind ((safe_rollbackLeave hleaving).imp fun _ _ _ => safe_ret)
  · exact safe_giveUpLeave hown h.session hquiet

/-- **Beginning a leave** takes the lifecycle, and with it the files. -/
theorem safe_beginLeave {profile : ProfileBinding}
    (hprofile : w.session.map LiveSession.profile = some profile)
    (hrunning : w.running = some .leave) :
    (arena m .operation).Safe
      (fun result t => result = .ok () → ∃ credential, t.Leaving m profile credential)
      beginLeave w := by
  have hfailed : ∀ {e : SessionError} {u : Site}, (arena m .operation).Safe
      (fun (result : Except SessionError Unit) t =>
        result = .ok () → ∃ credential, t.Leaving m profile credential) (.ret (.error e)) u :=
    fun _ _ _ heq => by cases heq
  unfold beginLeave
  simp only [Prog.perform_bind]
  rintro t hrely ht r u ⟨choice, -, hperform⟩
  have hdrifts := rely_drifts hrely
  obtain ⟨live, hlive, rfl, rfl⟩ := perform_exchangeLifecycle hperform
  have hlp : live.profile = profile := by
    have hmap := hdrifts.profile
    rw [hlive, Option.map_some, hprofile] at hmap
    exact Option.some.inj hmap
  have hholds := ht.sane.session live hlive
  have hsame : live.lifecycle ≠ .ready →
      Inv m (if live.lifecycle = .ready then t.setLifecycle live .leaving else t)
        ∧ (arena m .operation).guar t
          (if live.lifecycle = .ready then t.setLifecycle live .leaving else t) := by
    intro hne
    rw [if_neg hne]
    exact ⟨ht, .refl .operation t, fun _ => .of_kept rfl rfl⟩
  cases hstate : live.lifecycle with
  | ready =>
      have hquiet : t.waiting = none := by
        refine ht.sane.idle fun other hother => ?_
        cases hlive.symm.trans hother
        simp [hstate]
      have hstarted : live.lifecycle.started = true := by rw [hstate]; rfl
      have hleaving : Leaving m profile live.credential (t.setLifecycle live .leaving) := by
        refine ⟨by rw [← hlp]; rfl, ?_, ?_, hquiet, ?_⟩
        · rw [← hlp]
          exact hholds.started hstarted
        · exact fun hm => (ht.neat hm).started live hlive hstarted
        · rw [← hlp]
          exact fun hm => (ht.covered hm).settled live hlive hstarted
      rw [if_pos rfl]
      refine ⟨ht.setSession hlive rfl hholds.issued (Or.inr rfl) (fun h => by cases h)
        (fun h => by cases h), ⟨.of_session ?_ hlive rfl, fun _ => .of_kept rfl rfl⟩,
        (lasting_leaving m profile live.credential).ret hleaving fun _ h _ => ⟨_, h⟩⟩
      simp [Site.owner, hlive, hstate]
  | left =>
      rw [hstate] at hsame
      obtain ⟨hinv, hguar⟩ := hsame (by simp)
      refine ⟨hinv, hguar, ?_⟩
      rw [if_neg (by simp)]
      have hdismissed : t.Dismissed m :=
        { owner := by simp [Site.owner, hlive, hstate]
          concluded := fun hm => (ht.neat hm).left live hlive hstate
          whole := fun hm hhalf => by
            cases (((rely_running hrely).trans hrunning).symm.trans ((ht.neat hm).half hhalf))
          metadata := fun hm b hb => by
            rw [hholds.metadata b hb]
            exact (ht.truthful hm).left live hlive hstate
          credential := fun hm record hrecord => by
            rw [hholds.credential record hrecord]
            exact Or.inl ((ht.truthful hm).left live hlive hstate) }
      refine Arena.Safe.bind ((safe_cleanupConfirmedLeave hdismissed).imp ?_)
      rintro (e | ⟨⟩) v -
      · exact hfailed
      · exact hfailed
  | starting | leaving | recovering | rotationFailed | outcomeUnknown =>
      rw [hstate] at hsame
      obtain ⟨hinv, hguar⟩ := hsame (by simp)
      exact ⟨hinv, hguar, hfailed⟩

/-- **`leave`.** -/
theorem safe_leaveSession {profile : ProfileBinding}
    (hprofile : w.session.map LiveSession.profile = some profile)
    (hrunning : w.running = some .leave) :
    (arena m .operation).Safe (fun _ _ => True) (leaveSession profile) w := by
  have hback : ∀ {u : Site} {credential : Credential} {e : SessionError},
      u.Leaving m profile credential → (arena m .operation).Safe (fun _ _ => True)
        (do
          rollbackLeave
          return (.error e : Except SessionError LeaveSquadResponse)) u :=
    fun hu => Arena.Safe.bind ((safe_rollbackLeave hu).imp fun _ _ _ => safe_ret)
  unfold leaveSession
  simp only [Prog.perform_bind]
  refine safe_read rfl fun t hrely ht drained _ => ?_
  cases drained with
  | none => exact safe_ret
  | some _ =>
  refine Arena.Safe.bind ((safe_beginLeave ((rely_drifts hrely).profile.trans hprofile)
    ((rely_running hrely).trans hrunning)).imp ?_)
  rintro (e | ⟨⟩) u hu
  · exact safe_ret
  obtain ⟨credential, hku⟩ := hu rfl
  have hK := lasting_leaving m profile credential
  refine safe_read rfl fun v hrely hv drained _ => ?_
  have hkv := hK.later u v hku (rely_later (hK.owner u hku) hrely)
  cases drained with
  | none => exact hback hkv
  | some _ =>
  refine safe_lockHeartbeat (hK.owner v hkv) fun x hlater hx => ?_
  have hkx := hK.later v x hkv hlater
  refine safe_read rfl fun y hrely hy shared hshared => ?_
  have hky := hK.later x y hkx (rely_later (hK.owner x hkx) hrely)
  obtain rfl : shared = credential := by
    obtain ⟨live, hlive, rfl⟩ := hshared
    cases hky.session.symm.trans hlive
    rfl
  refine Arena.Safe.bind ((safe_journalIntent hky).imp ?_)
  rintro (e | intent) z ⟨hkz, hjournal⟩
  · exact hback hkz
  obtain ⟨hstored, -, hloads⟩ := hjournal intent rfl
  have hdeparting : z.Departing m profile shared intent :=
    ⟨hkz.session, hkz.metadata, hkz.credential, hstored⟩
  refine Arena.Safe.bind ((safe_leave hdeparting hloads.binding hkz.quiet hkz.settled).imp ?_)
  exact fun result _ h => safe_classifyLeave h.1 hloads h.2.1 h.2.2

/-! ## Heartbeats -/

/-- What a resume leaves the session in. -/
theorem Inv.recovered (h : w.Inv m) {profile : ProfileBinding} {live : LiveSession}
    (hrecovering : live.lifecycle = .recovering) (hbound : w.Bound .pulse profile (some live))
    {state : LifecycleState} (hstate : state ≠ .left) : Inv m (w.setLifecycle live state) := by
  have hholds := h.sane.session _ hbound.session
  have hstarted : live.lifecycle.started = true := by rw [hrecovering]; rfl
  exact h.setSession hbound.session rfl hholds.issued (Or.inl hbound.quiet)
    (fun _ => ⟨hholds.started hstarted, fun hm => (h.neat hm).started _ hbound.session hstarted,
      fun hm => (h.covered hm).settled _ hbound.session hstarted⟩)
    (fun hleft => absurd hleft hstate)

/-- **Resuming an expired lease** of a running session. -/
theorem safe_recoverLease {profile : ProfileBinding} {request : ResumeSquadRequest}
    {credential : Credential} (hprofile : w.session.map LiveSession.profile = some profile)
    (hissued : w.relay.store.Issued credential profile.memberId) :
    (arena m .pulse).Safe (fun _ _ => True) (recoverLease profile request credential) w := by
  unfold recoverLease
  simp only [Prog.perform_bind]
  rintro t hrely ht r u ⟨choice, -, hperform⟩
  have hdrifts := rely_drifts hrely
  obtain ⟨live, hlive, rfl, rfl⟩ := perform_exchangeLifecycle hperform
  have hlp : live.profile = profile := by
    have hmap := hdrifts.profile
    rw [hlive, Option.map_some, hprofile] at hmap
    exact Option.some.inj hmap
  have hholds := ht.sane.session live hlive
  by_cases hstate : live.lifecycle = .ready
  · rw [hstate, if_pos rfl]
    have hstarted : live.lifecycle.started = true := by rw [hstate]; rfl
    have hquiet : t.waiting = none := by
      refine ht.sane.idle fun other hother => ?_
      cases hlive.symm.trans hother
      simp [hstate]
    refine ⟨ht.setSession hlive rfl hholds.issued (Or.inl hquiet)
      (fun _ => ⟨hholds.started hstarted, fun hm => (ht.neat hm).started live hlive hstarted,
        fun hm => (ht.covered hm).settled live hlive hstarted⟩) (fun h => by cases h),
      ⟨.of_session (by simp [Site.owner, hlive, hstate]) hlive rfl, fun _ => .of_kept rfl rfl⟩, ?_⟩
    have hbound : Bound .pulse profile (some { live with lifecycle := .recovering })
        (t.setLifecycle live .recovering) :=
      ⟨rfl, rfl, by rw [← hlp]; exact hholds.started hstarted, hquiet⟩
    refine Arena.Safe.bind ((safe_resumeTransaction hbound (hissued.grows hdrifts.grows)).imp ?_)
    rintro (e | resumed) v ⟨hv, hresumed⟩
    · refine safe_exchangeLifecycle hv.owner hv.session rfl (fun x hlater hx => ?_)
        fun _ _ _ => safe_ret
      exact hx.recovered rfl ((lasting_bound m .pulse profile _).later v x hv hlater) (by
        cases e with
        | relay error => cases error <;> simp [ResumeTransactionError.lifecycle]
        | persist _ => simp [ResumeTransactionError.lifecycle])
    · obtain ⟨hconfirmed, -⟩ := hresumed resumed rfl
      have hK := lasting_confirmed m .pulse profile
        (some { live with lifecycle := .recovering }) resumed.credential
      refine safe_publish hconfirmed.owner hconfirmed.session (fun x hlater hx => ?_)
        fun x hlater hx => ?_
      · have hkx := hK.later v x hconfirmed hlater
        have hlx := hx.sane.session _ hkx.session
        exact hx.setSession hkx.session rfl (hlp ▸ hkx.issued) (Or.inl hkx.quiet)
          (fun _ => ⟨hlx.started rfl, fun hm => (hx.neat hm).started _ hkx.session rfl,
            fun hm => (hx.covered hm).settled _ hkx.session rfl⟩) (fun h => by cases h)
      · have hkx := hK.later v x hconfirmed hlater
        refine safe_exchangeLifecycle rfl rfl rfl (fun y hlater' hy => ?_) fun _ _ _ => safe_ret
        have hpublished : Bound .pulse profile
            (some ⟨live.profile, resumed.credential, .recovering⟩)
            { x with session := some ⟨live.profile, resumed.credential, .recovering⟩ } :=
          ⟨rfl, rfl, hkx.metadata, hkx.quiet⟩
        exact hy.recovered rfl ((lasting_bound m .pulse profile _).later _ y hpublished hlater')
          (by simp)
  · rw [if_neg hstate]
    refine ⟨ht, ⟨.refl .pulse t, fun _ => .of_kept rfl rfl⟩, ?_⟩
    cases hl : live.lifecycle with
    | ready => exact absurd hl hstate
    | _ => exact safe_ret

/-- Sending a heartbeat is no affair of the other thread. -/
theorem safe_sendHeartbeat {request : HeartbeatRequest} {credential : Credential} {α : Type}
    {Q : α → Site → Prop} {k : Except ClientError Nat → Run α}
    (hk : ∀ t u, w.Drifts t → t.relay.store.Grows u.relay.store → u.session = t.session →
      ∀ r, (arena m slot).Safe Q (k r) u) :
    (arena m slot).Safe Q (.act (.send (.heartbeat request credential)) k) w := by
  rintro t hrely ht r u ⟨choice, -, hperform⟩
  rcases perform_send hperform with ⟨e, -, rfl, rfl⟩ | ⟨drawn, relay, hstep, rfl, rfl⟩
  · exact ⟨ht, ⟨.refl slot u, fun _ => .of_kept rfl rfl⟩,
      hk u u (rely_drifts hrely) (.refl _) rfl _⟩
  · refine ⟨ht.relayStep (m.admits_issue t _) hstep, ⟨?_, fun _ => .of_kept rfl rfl⟩,
      hk t { t with relay := relay } (rely_drifts hrely) (Relay.step_grows hstep) rfl _⟩
    exact ⟨rfl, rfl, rfl, Or.inr ⟨_, hstep⟩, fun _ => ⟨relay, t.gate, rfl⟩⟩

/-- A heartbeat is on its way: only an expired lease leads to anything. -/
theorem safe_hearBeat {profile : ProfileBinding} {resume : ResumeSquadRequest}
    {credential : Credential} {call : Nat}
    (hprofile : w.session.map LiveSession.profile = some profile)
    (hissued : w.relay.store.Issued credential profile.memberId) :
    (arena m .pulse).Safe (fun _ _ => True) (hearBeat profile resume credential call) w := by
  unfold hearBeat
  simp only [Prog.perform_bind]
  refine safe_read rfl fun x hrely hx arrival _ => ?_
  have hxp := (rely_drifts hrely).profile.trans hprofile
  have hxissued := hissued.grows (rely_drifts hrely).grows
  cases arrival with
  | none => exact safe_ret
  | some arrival =>
      refine safe_read rfl fun y hrely hy state _ => ?_
      have hyp := (rely_drifts hrely).profile.trans hxp
      have hyissued := hxissued.grows (rely_drifts hrely).grows
      cases state with
      | ready =>
          dsimp only
          split
          · exact safe_ret
          · split
            · exact safe_recoverLease hyp hyissued
            · exact safe_ret
          · exact safe_ret
      | _ => exact safe_ret

theorem safe_beat {profile : ProfileBinding} {request : HeartbeatRequest}
    {resume : ResumeSquadRequest}
    (hprofile : w.session.map LiveSession.profile = some profile) :
    (arena m .pulse).Safe (fun _ _ => True) (beat profile request resume) w := by
  unfold beat
  simp only [Prog.perform_bind]
  refine safe_read rfl fun t hrely ht state _ => ?_
  have htp := (rely_drifts hrely).profile.trans hprofile
  cases state with
  | ready =>
      refine safe_read rfl fun u hrely hu credential hcredential => ?_
      have hup := (rely_drifts hrely).profile.trans htp
      have hissued : u.relay.store.Issued credential profile.memberId := by
        obtain ⟨live, hlive, rfl⟩ := hcredential
        rw [hlive] at hup
        cases hup
        exact (hu.sane.session live hlive).issued
      refine safe_sendHeartbeat fun t' v hdrifts hgrows hsession r => ?_
      have hvp : v.session.map LiveSession.profile = some profile := by
        rw [hsession]
        exact hdrifts.profile.trans hup
      have hvissued := (hissued.grows hdrifts.grows).grows hgrows
      cases r with
      | error e => exact safe_ret
      | ok call => exact safe_hearBeat hvp hvissued
  | _ => exact safe_ret

end Site

end Psst
