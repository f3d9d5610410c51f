import Psst.Session.Invariant

/-!
# What keeps the invariant

One lemma for each way a thread changes the shared state, with what that change needs.
-/

namespace Psst

/-- No session is ready or resuming. -/
def Site.Unstarted (w : Site) : Prop := ∀ live ∈ w.session, live.lifecycle.started = false

namespace Site

variable [Sha256] {m : Mode} {w : Site}

omit [Sha256] in
theorem Unstarted.absurd (h : w.Unstarted) {live : LiveSession} (hlive : live ∈ w.session)
    (hstarted : live.lifecycle.started = true) {P : Prop} : P := by
  rw [h live hlive] at hstarted
  cases hstarted

/-! ## Removing -/

theorem Inv.clearCredential (h : w.Inv m) (hunstarted : w.Unstarted)
    (htidy : m.tidy = true → w.disk.Concluded) : Inv m (w.setCredential none) where
  sane :=
    { h.sane with
      issued := fun _ hr => by cases hr
      agree := fun _ _ _ hr => by cases hr
      session := fun live hlive =>
        { h.sane.session live hlive with credential := fun _ hr => by cases hr }
      unbound := fun _ _ hr => by cases hr }
  truthful hm := { h.truthful hm with }
  covered hm :=
    { h.covered hm with
      covers := fun p hp hpending =>
        ((h.covered hm).covers p hp hpending).imp_right fun hforgets =>
          { hforgets with credential := fun _ hr => by cases hr } }
  neat hm :=
    { h.neat hm with
      complete := Or.inr (htidy hm)
      half := fun hhalf => by cases hhalf.1
      started := fun live hlive hstarted => hunstarted.absurd hlive hstarted }

theorem Inv.clearProfile (h : w.Inv m) (hunstarted : w.Unstarted)
    (hcredential : w.disk.credential = none) (htidy : m.tidy = true → w.disk.Concluded) :
    Inv m (w.setMetadata none) where
  sane :=
    { h.sane with
      key := fun _ hb => by cases hb
      agree := fun _ hb => by cases hb
      session := fun live hlive =>
        { h.sane.session live hlive with
          metadata := fun _ hb => by cases hb
          started := fun hstarted => hunstarted.absurd hlive hstarted }
      unbound := fun _ record hrecord => by
        rw [show (w.setMetadata none).disk.credential = none from hcredential] at hrecord
        cases hrecord }
  truthful hm := { h.truthful hm with }
  covered hm :=
    { h.covered hm with
      covers := fun p hp hpending =>
        ((h.covered hm).covers p hp hpending).imp_right fun hforgets =>
          { hforgets with metadata := fun _ hb => by cases hb } }
  neat hm :=
    { h.neat hm with
      journal := fun _ _ _ hb => by cases hb
      complete := Or.inr (Or.inl rfl)
      orphan := fun _ j hj => by
        rcases htidy hm with hmetadata | ⟨i, hi, hconfirmed⟩
        · exact (h.neat hm).orphan hmetadata j hj
        · cases hi.symm.trans hj
          exact hconfirmed
      half := fun hhalf => by
        have hsome : w.disk.credential.isSome = true := hhalf.1
        rw [hcredential] at hsome
        cases hsome
      left := fun _ _ _ => Or.inl rfl }

theorem Inv.removeJournal (h : w.Inv m)
    (hforgets : m.punctual = true → ∀ p ∈ w.leaves, w.Pending p.1 → w.disk.Forgets p.2)
    (htidy : m.tidy = true → w.disk.metadata = none
      ∨ (w.disk.credential ≠ none ∧ ∀ live ∈ w.session, live.lifecycle ≠ .left)) :
    Inv m (w.setJournal none) where
  sane :=
    { h.sane with
      journal := fun _ hj => by cases hj
      session := fun live hlive => { h.sane.session live hlive with } }
  truthful hm := { h.truthful hm with confirmed := fun _ hj => by cases hj }
  covered hm :=
    { h.covered hm with
      covers := fun p hp hpending => Or.inr { hforgets hm p hp hpending with } }
  neat hm :=
    { h.neat hm with
      journal := fun _ hj => by cases hj
      complete := (htidy hm).elim (fun hnone => Or.inr (Or.inl hnone)) fun hkept => Or.inl hkept.1
      orphan := fun _ _ hj => by cases hj
      left := fun live hlive hleft =>
        (htidy hm).elim Or.inl fun hkept => absurd hleft (hkept.2 live hlive) }

/-! ## Storing -/

/-- A journal of the binding on disk. -/
theorem Inv.storeJournal (h : w.Inv m) {j : LeaveJournal}
    (hmetadata : w.disk.metadata = some j.binding) (hloads : j.Loads j.binding)
    (hfinished : m.monotone = true → j.phase = .confirmed →
      w.relay.store.Finished j.binding.memberId)
    (htidy : m.tidy = true → j.phase = .confirmed
      ∨ (w.disk.credential ≠ none ∧ ∀ live ∈ w.session, live.lifecycle ≠ .left)) :
    Inv m (w.setJournal (some j)) where
  sane :=
    { h.sane with
      journal := fun i hi => by
        cases hi
        exact ⟨hloads, h.sane.key _ hmetadata⟩
      session := fun live hlive => { h.sane.session live hlive with } }
  truthful hm :=
    { h.truthful hm with
      confirmed := fun i hi hphase => by
        cases hi
        exact hfinished hm hphase }
  covered hm :=
    { h.covered hm with
      covers := fun p hp hpending => by
        by_cases hmember : j.binding.memberId = p.2
        · exact Or.inl ⟨j, rfl, hmember⟩
        · refine Or.inr ⟨fun b hb => ?_, fun record hrecord => ?_⟩
          · cases hmetadata.symm.trans hb
            exact hmember
          · rw [h.sane.agree _ hmetadata record hrecord]
            exact hmember }
  neat hm :=
    { h.neat hm with
      journal := fun i hi b hb => by
        cases hi
        cases hmetadata.symm.trans hb
        rfl
      complete := (htidy hm).elim (fun hphase => Or.inr (Or.inr ⟨j, rfl, hphase⟩))
        fun hkept => Or.inl hkept.1
      orphan := fun hnone => by
        cases hmetadata.symm.trans (show w.disk.metadata = none from hnone)
      left := fun live hlive hleft =>
        (htidy hm).elim (fun hphase => Or.inr ⟨j, rfl, hphase⟩)
          fun hkept => absurd hleft (hkept.2 live hlive) }

/-- A credential for the binding on disk. -/
theorem Inv.storeCredential (h : w.Inv m) {profile : ProfileBinding} {credential : Credential}
    (hmetadata : w.disk.metadata = some profile)
    (hissued : w.relay.store.Issued credential profile.memberId) :
    Inv m (w.setCredential (some ⟨profile.credentialBinding, credential⟩)) where
  sane :=
    { h.sane with
      issued := fun record hrecord => by
        cases hrecord
        exact hissued
      agree := fun b hb record hrecord => by
        cases hrecord
        cases hmetadata.symm.trans hb
        rfl
      session := fun live hlive =>
        { h.sane.session live hlive with
          credential := fun record hrecord => by
            cases hrecord
            rw [(h.sane.session live hlive).metadata _ hmetadata] }
      unbound := fun hnone => by
        cases hmetadata.symm.trans (show w.disk.metadata = none from hnone) }
  truthful hm := { h.truthful hm with }
  covered hm :=
    { h.covered hm with
      covers := fun p hp hpending =>
        ((h.covered hm).covers p hp hpending).imp_right fun hforgets =>
          { hforgets with
            credential := fun record hrecord => by
              cases hrecord
              exact hforgets.metadata _ hmetadata } }
  neat hm :=
    { h.neat hm with
      complete := Or.inl (by simp [setCredential, setDisk])
      half := fun hhalf => by
        cases hmetadata.symm.trans (show w.disk.metadata = none from hhalf.2)
      started := fun _ _ _ => by simp [setCredential, setDisk] }

/-- The membership is new to this profile. -/
structure Fresh (w : Site) (member : MembershipId) : Prop where
  bound : member ∉ w.bound
  leaves : ∀ p ∈ w.leaves, p.2 ≠ member

/-- The credential of a membership just joined, ahead of its metadata. -/
theorem Inv.joinCredential (h : w.Inv m) (hsession : w.session = none)
    (hmetadata : w.disk.metadata = none) {profile : ProfileBinding} {credential : Credential}
    (hissued : w.relay.store.Issued credential profile.memberId)
    (hfresh : w.Fresh profile.memberId) (hrunning : w.running = some .joinAndBind) :
    Inv m (w.setCredential (some ⟨profile.credentialBinding, credential⟩)) where
  sane :=
    { h.sane with
      issued := fun record hrecord => by
        cases hrecord
        exact hissued
      agree := fun b hb => by cases hmetadata.symm.trans hb
      session := fun live hlive => by cases hsession.symm.trans hlive
      unbound := fun _ record hrecord => by
        cases hrecord
        exact hfresh.bound }
  truthful hm := { h.truthful hm with }
  covered hm :=
    { h.covered hm with
      covers := fun p hp hpending =>
        ((h.covered hm).covers p hp hpending).imp_right fun hforgets =>
          { hforgets with
            credential := fun record hrecord => by
              cases hrecord
              exact fun heq => hfresh.leaves p hp heq.symm } }
  neat hm :=
    { h.neat hm with
      complete := Or.inl (by simp [setCredential, setDisk])
      half := fun _ => hrunning
      started := fun _ _ _ => by simp [setCredential, setDisk] }

/-- The metadata of a membership just joined. -/
theorem Inv.joinProfile (h : w.Inv m) (hsession : w.session = none)
    {profile : ProfileBinding} {credential : Credential}
    (hkey : profile.toProfileKey = w.key)
    (hcredential : w.disk.credential = some ⟨profile.credentialBinding, credential⟩)
    (hfresh : w.Fresh profile.memberId) (hjournal : m.tidy = true → w.disk.journal = none) :
    Inv m (w.setMetadata (some profile)) where
  sane :=
    { h.sane with
      key := fun b hb => by
        cases hb
        exact hkey
      agree := fun b hb record hrecord => by
        cases hb
        cases hcredential.symm.trans hrecord
        rfl
      session := fun live hlive => by cases hsession.symm.trans hlive
      unbound := fun hnone => by cases hnone }
  truthful hm := { h.truthful hm with }
  covered hm :=
    { h.covered hm with
      covers := fun p hp hpending =>
        ((h.covered hm).covers p hp hpending).imp_right fun hforgets =>
          { hforgets with
            metadata := fun b hb => by
              cases hb
              exact fun heq => hfresh.leaves p hp heq.symm } }
  neat hm :=
    { h.neat hm with
      journal := fun j hj => by cases (hjournal hm).symm.trans hj
      complete := Or.inl (by
        rw [show (w.setMetadata (some profile)).disk.credential = _ from hcredential]
        simp)
      orphan := fun hnone => by cases hnone
      half := fun hhalf => by cases hhalf.2
      left := fun live hlive => by cases hsession.symm.trans hlive }

/-- The metadata is reported stored. -/
theorem Inv.bind (h : w.Inv m) (hmetadata : w.disk.metadata ≠ none) {member : MembershipId}
    (henrols : ∃ squad, w.relay.store.Enrols member squad) :
    Inv m { w with bound := w.bound ++ [member] } where
  sane :=
    { h.sane with
      session := fun live hlive => { h.sane.session live hlive with }
      bound := fun other hother => by
        rcases List.mem_append.mp hother with hother | hother
        · exact h.sane.bound other hother
        · rw [List.mem_singleton.mp hother]
          exact henrols
      unbound := fun hnone => absurd hnone hmetadata }
  truthful hm := { h.truthful hm with }
  covered hm := { h.covered hm with }
  neat hm := { h.neat hm with }

/-! ## The session -/

/-- A new lifecycle, or a new credential, for the same profile. -/
theorem Inv.setSession (h : w.Inv m) {live live' : LiveSession} (hlive : w.session = some live)
    (hprofile : live'.profile = live.profile)
    (hissued : w.relay.store.Issued live'.credential live.profile.memberId)
    (hwaiting : w.waiting = none ∨ live'.lifecycle = .leaving)
    (hstarted : live'.lifecycle.started = true →
      w.disk.metadata = some live.profile ∧ (m.tidy = true → w.disk.credential ≠ none)
        ∧ (m.punctual = true → w.Settled live.profile.memberId))
    (hleft : live'.lifecycle = .left →
      (m.monotone = true → w.relay.store.Finished live.profile.memberId)
        ∧ (m.tidy = true → w.disk.Concluded)) :
    Inv m { w with session := some live' } where
  sane :=
    { h.sane with
      session := fun other hother => by
        cases hother
        have hholds := h.sane.session live hlive
        exact
          { key := hprofile ▸ hholds.key
            issued := hprofile ▸ hissued
            metadata := hprofile ▸ hholds.metadata
            credential := hprofile ▸ hholds.credential
            started := fun hs => hprofile ▸ (hstarted hs).1 }
      idle := fun hidle => hwaiting.elim id fun hleaving => absurd hleaving (hidle live' rfl) }
  truthful hm :=
    { h.truthful hm with
      left := fun other hother hl => by
        cases hother
        rw [hprofile]
        exact (hleft hl).1 hm }
  covered hm :=
    { h.covered hm with
      settled := fun other hother hs => by
        cases hother
        rw [hprofile]
        exact (hstarted hs).2.2 hm }
  neat hm :=
    { h.neat hm with
      started := fun other hother hs => by
        cases hother
        exact (hstarted hs).2.1 hm
      left := fun other hother hl => by
        cases hother
        exact (hleft hl).2 hm }

/-! ## Leaves on their way -/

/-- A leave is sent while the journal covers it. -/
theorem Inv.sendLeave (h : w.Inv m) {live : LiveSession} (hlive : w.session = some live)
    (hleaving : live.lifecycle = .leaving) {squad : SquadName} {r : Relay}
    (hstep : w.relay.step (.issue (.leave live.credential squad)) = some r)
    (hjournal : ∃ j ∈ w.disk.journal, j.binding.memberId = live.profile.memberId) :
    Inv m
      { w with
        relay := r
        leaves := w.leaves ++ [(w.relay.calls.length, live.profile.memberId)]
        waiting := some w.relay.calls.length } := by
  have hw := h.relayStep (m.admits_issue w _) hstep
  have hr : r = _ := Relay.step_issue hstep
  -- the earlier leaves are other calls
  have hlt : ∀ p ∈ w.leaves, p.1 < w.relay.calls.length := by
    intro p hp
    obtain ⟨_, _, ⟨c, hc, -⟩, -⟩ := h.sane.leaves p hp
    exact (List.getElem?_eq_some_iff.mp hc).1
  have hunscheduled : w.relay.calls.length ∉ r.schedule := by
    rw [hr]
    exact fun hmem => absurd (h.sane.relay.lt_of_mem_schedule hmem) (Nat.lt_irrefl _)
  have hnew : r.calls[w.relay.calls.length]?
      = some ⟨.leave live.credential squad, .inFlight, .unsent⟩ := by
    rw [hr]
    simp
  refine
    { sane :=
        { hw.sane with
          session := fun other hother => { hw.sane.session other hother with }
          idle := fun hidle => absurd hleaving (hidle live hlive)
          leaves := fun p hp => ?_ }
      truthful := fun hm => { hw.truthful hm with }
      covered := fun hm =>
        { hw.covered hm with
          timely := fun p hp c hc => ?_
          covers := fun p hp hpending => ?_
          settled := fun other hother hs => ?_ }
      neat := fun hm => { hw.neat hm with } }
  · rcases List.mem_append.mp hp with hp | hp
    · exact hw.sane.leaves p hp
    · rw [List.mem_singleton.mp hp]
      refine ⟨live.credential, squad, ⟨_, hnew, rfl⟩, (hw.sane.session live hlive).issued,
        .of_not_ran ?_⟩
      rintro ⟨e, he, hcall⟩
      exact hunscheduled (List.mem_append_left _ (List.mem_map.mpr ⟨e, he, hcall⟩))
  · rcases List.mem_append.mp hp with hp | hp
    · exact (hw.covered hm).timely p hp c hc
    · rw [List.mem_singleton.mp hp] at hc
      cases hnew.symm.trans hc
      simp
  · rcases List.mem_append.mp hp with hp | hp
    · refine (hw.covered hm).covers p hp ?_
      rcases hpending with hheld | heffective | hwaiting
      · exact Or.inl hheld
      · exact Or.inr (Or.inl heffective)
      · exact absurd (Option.some.inj hwaiting).symm (Nat.ne_of_lt (hlt p hp))
    · rw [List.mem_singleton.mp hp]
      exact Or.inl hjournal
  · cases hlive.symm.trans hother
    rw [hleaving] at hs
    cases hs

theorem Inv.stopWaiting (h : w.Inv m) (i : Nat) : Inv m (w.stopWaiting i) := by
  have hquiet : w.waiting = none → (w.stopWaiting i).waiting = none := by
    intro hnone
    simp [Site.stopWaiting, hnone]
  have hpending : ∀ j, (w.stopWaiting i).Pending j → w.Pending j := by
    rintro j (hheld | heffective | hwaiting)
    · exact Or.inl hheld
    · exact Or.inr (Or.inl heffective)
    · refine Or.inr (Or.inr ?_)
      simp only [Site.stopWaiting] at hwaiting
      split at hwaiting
      · cases hwaiting
      · exact hwaiting
  exact
    { sane :=
        { h.sane with
          session := fun live hlive => { h.sane.session live hlive with }
          idle := fun hidle => hquiet (h.sane.idle hidle) }
      truthful := fun hm => { h.truthful hm with }
      covered := fun hm =>
        { h.covered hm with
          covers := fun p hp hp' => (h.covered hm).covers p hp (hpending p.1 hp')
          settled := fun live hlive hs p hp hmember hp' =>
            (h.covered hm).settled live hlive hs p hp hmember (hpending p.1 hp') }
      neat := fun hm => { h.neat hm with } }

end Site

end Psst
