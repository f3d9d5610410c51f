import Psst.Session.Departure

/-!
# Whole runs of a profile and its relay

The invariant of the files, the session and the relay holds in every reachable state, and
every thread is safe where it stands: what one thread does is what the other may expect.
-/

namespace Psst

variable [Sha256] {m : Mode}

/-- The step meets the conditions of the mode. -/
def Mode.Allows (m : Mode) (w : World) (l : WorldStep) : Prop :=
  (m.monotone = true → Monotone w l) ∧ (m.punctual = true → Punctual w l)
    ∧ (m.tidy = true → Tidy w l)

/-- What an operation ends with: a session that is ready, and no half-made binding. -/
structure Ended (m : Mode) (running : Option Operation)
    (result : Except SessionError (Option Runtime)) (w : Site) : Prop where
  ready : ∀ runtime, result = .ok (some runtime) → w.Ready m runtime
  whole : m.tidy = true → running = some .joinAndBind → ¬ w.disk.HalfBound

theorem Site.Started.ended {result : Except SessionError Runtime} {w : Site}
    (h : Site.Started m result w) (running : Option Operation) :
    Ended m running (result.map some) w where
  ready runtime heq := by
    cases result with
    | error e => cases heq
    | ok runtime' =>
        cases heq
        exact h.ready runtime rfl
  whole hm _ := h.whole hm

namespace World

structure Inv (m : Mode) (w : World) : Prop where
  site : w.site.Inv m
  operation : ∀ p ∈ w.operation,
    (Site.arena m .operation).Safe (Ended m w.site.running) p w.site
  pulse : ∀ p ∈ w.pulse, (Site.arena m .pulse).Safe (fun _ _ => True) p w.site
  alone : w.site.session = none → w.pulse = none
  rest : w.operation = none → w.site.running = none

end World

namespace Site

variable {w w' : Site}

/-- The locks and the name of the operation matter only to half-made bindings. -/
theorem Inv.setLocks (h : w.Inv m) (gate : Option Slot) (running : Option Operation)
    (hwhole : m.tidy = true → w.disk.HalfBound → running = some .joinAndBind) :
    Inv m { w with gate := gate, running := running } where
  sane := { h.sane with session := fun live hlive => { h.sane.session live hlive with } }
  truthful hm := { h.truthful hm with }
  covered hm := { h.covered hm with }
  neat hm := { h.neat hm with half := hwhole hm }

theorem Inv.install (h : w.Inv m) {runtime : Runtime} (hready : w.Ready m runtime) :
    Inv m { w with session := some ⟨runtime.profile, runtime.credential, .ready⟩ } where
  sane :=
    { h.sane with
      session := fun live hlive => by
        cases hlive
        exact
          { key := h.sane.key _ hready.metadata
            issued := hready.issued
            metadata := fun b hb => (Option.some.inj (hready.metadata.symm.trans hb)).symm
            credential := fun record hrecord => h.sane.agree _ hready.metadata record hrecord
            started := fun _ => hready.metadata }
      idle := fun _ => hready.quiet }
  truthful hm :=
    { h.truthful hm with
      left := fun live hlive hleft => by
        cases hlive
        cases hleft }
  covered hm :=
    { h.covered hm with
      settled := fun live hlive _ => by
        cases hlive
        exact hready.settled hm }
  neat hm :=
    { h.neat hm with
      started := fun live hlive _ => by
        rw [show w.disk.credential = _ from hready.keeps]
        simp
      left := fun live hlive hleft => by
        cases hlive
        cases hleft }

/-- A process that stops leaves the files as they are. -/
theorem Inv.crash (h : w.Inv m) (hwhole : m.tidy = true → ¬ w.disk.HalfBound) :
    Inv m { w with session := none, running := none, gate := none, waiting := none } := by
  have hpending : ∀ i, Pending { w with
      session := none, running := none, gate := none, waiting := none } i → w.Pending i := by
    rintro i (hheld | heffective | hwaiting)
    · exact Or.inl hheld
    · exact Or.inr (Or.inl heffective)
    · cases hwaiting
  exact
    { sane := { h.sane with session := (fun _ hl => by cases hl), idle := fun _ => rfl }
      truthful := fun hm => { h.truthful hm with left := fun _ hl => by cases hl }
      covered := fun hm =>
        { h.covered hm with
          covers := fun p hp hp' => (h.covered hm).covers p hp (hpending p.1 hp')
          settled := fun _ hl => by cases hl }
      neat := fun hm =>
        { h.neat hm with
          half := fun hhalf => absurd hhalf (hwhole hm)
          started := (fun _ hl => by cases hl)
          left := fun _ hl => by cases hl } }

theorem fresh_inv (key : ProfileKey) (capacity : Nat) :
    (World.fresh key capacity).site.Inv m where
  sane :=
    { relay := Relay.fresh_sound capacity
      key := fun _ h => by cases h
      issued := fun _ h => by cases h
      agree := fun _ h => by cases h
      journal := fun _ h => by cases h
      session := fun _ h => by cases h
      idle := fun _ => rfl
      bound := fun _ h => by cases h
      unbound := fun _ _ h => by cases h
      leaves := fun _ h => by cases h }
  truthful _ := ⟨List.Pairwise.nil, (fun _ h => by cases h), fun _ h => by cases h⟩
  covered _ := ⟨(fun _ h => by cases h), (fun _ h => by cases h), (fun _ h => by cases h),
    fun _ h => by cases h⟩
  neat _ :=
    { journal := fun _ h => by cases h
      complete := Or.inr (Or.inl rfl)
      orphan := fun _ _ h => by cases h
      half := fun h => by cases h.1
      started := fun _ h => by cases h
      left := fun _ h => by cases h }

end Site

namespace World

open Site

variable {w w' : World}

/-- What nobody's thread does, every thread expects. -/
theorem Inv.passes (h : w.Inv m) {site : Site} (hop : w.site.Passes m .operation site)
    (hpulse : w.site.Passes m .pulse site) (hrunning : site.running = w.site.running)
    (hsession : site.session = w.site.session) : World.Inv m { w with site := site } where
  site := hop.inv'
  operation p hp := by
    show (arena m .operation).Safe (Ended m site.running) p site
    rw [hrunning]
    exact (h.operation p hp).rely (.single (Or.inl hop))
  pulse p hp := (h.pulse p hp).rely (.single (Or.inl hpulse))
  alone hnone := h.alone (hsession.symm.trans hnone)
  rest hnone := hrunning.trans (h.rest hnone)

theorem Inv.relay (h : w.Inv m) {l : RelayStep} (hl : m.Admits w.site l) {r : Relay}
    (hstep : w.site.relay.step l = some r) :
    World.Inv m { w with site := { w.site with relay := r } } := by
  have hpasses : ∀ slot, w.site.Passes m slot { w.site with relay := r } := fun slot =>
    ⟨h.site, h.site.relayStep hl hstep, r, w.site.gate, w.site.running, rfl, fun _ => rfl,
      Or.inr ⟨l, hl, hstep⟩⟩
  exact h.passes (hpasses .operation) (hpasses .pulse) rfl rfl

/-- No binding is half made while nothing runs. -/
theorem Inv.whole (h : w.Inv m) (hrest : w.operation = none) (hm : m.tidy = true) :
    ¬ w.site.disk.HalfBound := by
  intro hhalf
  have hrunning := (h.site.neat hm).half hhalf
  rw [h.rest hrest] at hrunning
  cases hrunning

/-- An operation that takes the profile lock is safe from its first action. -/
theorem Inv.launch (h : w.Inv m) {operation : Operation}
    {program : Run (Except SessionError (Option Runtime))}
    (hsafe : ∀ site : Site, site.Inv m → site.session = none → site.running = some operation →
      site.key = w.site.key → site.disk = w.site.disk →
      (m.tidy = true → ¬ site.disk.HalfBound) →
      (arena m .operation).Safe (Ended m (some operation)) program site)
    (hstep : w.launch operation program = some w') : w'.Inv m := by
  unfold World.launch at hstep
  split at hstep
  · next hsession hrest =>
      cases hstep
      have hlaunched := h.site.setLocks w.site.gate (some operation) fun hm hhalf =>
        absurd hhalf (h.whole hrest hm)
      refine ⟨hlaunched, ?_, ?_, fun _ => h.alone hsession, fun hnone => by cases hnone⟩
      · rintro p ⟨⟩
        exact hsafe _ hlaunched hsession rfl rfl rfl (h.whole hrest)
      · intro p hp
        rw [show w.pulse = none from h.alone hsession] at hp
        cases hp
  · cases hstep

theorem Inv.leave (h : w.Inv m) (hstep : w.step .leave = some w') : w'.Inv m := by
  simp only [World.step] at hstep
  split at hstep
  · next live hlive hrest =>
      cases hstep
      have hlaunched := h.site.setLocks w.site.gate (some .leave) fun hm hhalf =>
        absurd hhalf (h.whole hrest hm)
      refine ⟨hlaunched, ?_, ?_, ?_, fun hnone => by cases hnone⟩
      · rintro p ⟨⟩
        have hprofile : w.site.session.map LiveSession.profile = some live.profile := by
          rw [hlive, Option.map_some]
        have hsafe : (arena m .operation).Safe (fun _ _ => True) (leaveSession live.profile)
            { w.site with running := some .leave } := safe_leaveSession hprofile rfl
        refine Arena.Safe.map (hsafe.imp fun result t _ => ⟨fun runtime heq => ?_, ?_⟩)
        · cases result <;> cases heq
        · exact fun _ heq => by cases heq
      · intro p hp
        exact (h.pulse p hp).rely (.single (Or.inl ⟨h.site, hlaunched, w.site.relay, w.site.gate,
          some .leave, rfl, (fun heq => by cases heq), Or.inl rfl⟩))
      · intro hnone
        cases hlive.symm.trans hnone
  · cases hstep

theorem Inv.launchPulse (h : w.Inv m) {program : ProfileBinding → Run Unit}
    (hsafe : ∀ (site : Site) profile, site.session.map LiveSession.profile = some profile →
      (arena m .pulse).Safe (fun _ _ => True) (program profile) site)
    (hstep : w.launchPulse program = some w') : w'.Inv m := by
  unfold World.launchPulse at hstep
  split at hstep
  · next live hlive hgate hpulse =>
      cases hstep
      have hlocked := h.site.setLocks (some .pulse) w.site.running fun hm =>
        (h.site.neat hm).half
      refine ⟨hlocked, ?_, ?_, ?_, h.rest⟩
      · intro p hp
        exact (h.operation p hp).rely (.single (Or.inl ⟨h.site, hlocked, w.site.relay,
          some .pulse, w.site.running, rfl, fun _ => rfl, Or.inl rfl⟩))
      · rintro p ⟨⟩
        exact hsafe _ live.profile (by
          show w.site.session.map _ = _
          rw [hlive, Option.map_some])
      · intro hnone
        cases hlive.symm.trans hnone
  · cases hstep

omit [Sha256] in
theorem tidyAct_operation {a : Action} {k} (hop : w.operation = some (.act a k)) {choice : Choice}
    (h : m.tidy = true → Tidy w (.act .operation choice)) :
    m.tidy = true → w.site.TidyAct a choice := by
  intro hm
  have hact := h hm
  simp only [Tidy, hop] at hact
  exact hact

omit [Sha256] in
theorem tidyAct_pulse {a : Action} {k} (hpulse : w.pulse = some (.act a k)) {choice : Choice}
    (h : m.tidy = true → Tidy w (.act .pulse choice)) :
    m.tidy = true → w.site.TidyAct a choice := by
  intro hm
  have hact := h hm
  simp only [Tidy, hpulse] at hact
  exact hact

/-- **An action of the operation in progress.** -/
theorem Inv.actOperation (h : w.Inv m) {choice : Choice}
    (hl : m.tidy = true → Tidy w (.act .operation choice))
    (hstep : w.step (.act .operation choice) = some w') : w'.Inv m := by
  obtain ⟨a, k, r, site, hop, hperform, rfl⟩ := step_actOperation hstep
  obtain ⟨hsite, ⟨hcourteous, -⟩, hrest⟩ :=
    h.operation _ hop w.site .refl h.site r site ⟨choice, tidyAct_operation hop hl, hperform⟩
  refine ⟨hsite, ?_, ?_, ?_, fun hnone => by cases hnone⟩
  · rintro p ⟨⟩
    show (arena m .operation).Safe (Ended m site.running) (k r) site
    rw [hcourteous.running]
    exact hrest
  · intro p hp
    exact (h.pulse p hp).rely (.single (Or.inr ⟨h.site, hsite, hcourteous⟩))
  · intro hnone
    refine h.alone ?_
    have hprofile := hcourteous.profile
    rw [show site.session = none from hnone] at hprofile
    exact Option.map_eq_none_iff.mp hprofile.symm

/-- **An action of the holder of the heartbeat gate.** -/
theorem Inv.actPulse (h : w.Inv m) {choice : Choice}
    (hl : m.tidy = true → Tidy w (.act .pulse choice))
    (hstep : w.step (.act .pulse choice) = some w') : w'.Inv m := by
  obtain ⟨a, k, r, site, hpulse, hperform, rfl⟩ := step_actPulse hstep
  obtain ⟨hsite, ⟨hcourteous, -⟩, hrest⟩ :=
    h.pulse _ hpulse w.site .refl h.site r site ⟨choice, tidyAct_pulse hpulse hl, hperform⟩
  refine ⟨hsite, ?_, ?_, ?_, fun hnone => hcourteous.running.trans (h.rest hnone)⟩
  · intro p hp
    show (arena m .operation).Safe (Ended m site.running) p site
    rw [hcourteous.running]
    exact (h.operation p hp).rely (.single (Or.inr ⟨h.site, hsite, hcourteous⟩))
  · rintro p ⟨⟩
    exact hrest
  · intro hnone
    have hprofile := hcourteous.profile
    rw [show site.session = none from hnone] at hprofile
    have halone := h.alone (Option.map_eq_none_iff.mp hprofile.symm)
    rw [halone] at hpulse
    cases hpulse

theorem Inv.finishOperation (h : w.Inv m) (hstep : w.step (.finish .operation) = some w') :
    w'.Inv m := by
  simp only [World.step] at hstep
  split at hstep
  · next result hop =>
      cases hstep
      have hended : Ended m w.site.running result w.site :=
        h.operation _ hop w.site .refl h.site
      have hwhole : m.tidy = true → ¬ w.site.disk.HalfBound := fun hm hhalf =>
        hended.whole hm ((h.site.neat hm).half hhalf) hhalf
      have hlocks := h.site.setLocks
        (if w.site.gate = some .operation then none else w.site.gate) none
        fun hm hhalf => absurd hhalf (hwhole hm)
      -- a session is installed only where there was none
      have hkept : (∀ runtime, result ≠ .ok (some runtime)) →
          World.install w.site result = w.site.session := by
        intro hnone
        unfold World.install
        split
        · next runtime => exact absurd rfl (hnone runtime)
        · rfl
      by_cases hresult : ∃ runtime, result = .ok (some runtime)
      · obtain ⟨runtime, rfl⟩ := hresult
        have hready := hended.ready runtime rfl
        refine ⟨hlocks.install { hready with }, (fun p hp => by cases hp), ?_,
          (fun hnone => by cases hnone), fun _ => rfl⟩
        intro p hp
        rw [show w.pulse = none from h.alone hready.session] at hp
        cases hp
      · have hsession := hkept fun runtime heq => hresult ⟨runtime, heq⟩
        rw [hsession]
        refine ⟨hlocks, (fun p hp => by cases hp), ?_, h.alone, fun _ => rfl⟩
        intro p hp
        exact (h.pulse p hp).rely (.single (Or.inl ⟨h.site, hlocks, w.site.relay, _, none, rfl,
          (fun heq => by cases heq), Or.inl rfl⟩))
  · cases hstep

theorem Inv.finishPulse (h : w.Inv m) (hstep : w.step (.finish .pulse) = some w') :
    w'.Inv m := by
  simp only [World.step] at hstep
  split at hstep
  · cases hstep
    have hlocks := h.site.setLocks (if w.site.gate = some .pulse then none else w.site.gate)
      w.site.running fun hm => (h.site.neat hm).half
    refine ⟨hlocks, ?_, (fun p hp => by cases hp), fun _ => rfl, h.rest⟩
    intro p hp
    exact (h.operation p hp).rely (.single (Or.inl ⟨h.site, hlocks, w.site.relay, _,
      w.site.running, rfl, fun _ => rfl, Or.inl rfl⟩))
  · cases hstep

theorem fresh_inv (key : ProfileKey) (capacity : Nat) : (World.fresh key capacity).Inv m where
  site := Site.fresh_inv key capacity
  operation _ hp := by cases hp
  pulse _ hp := by cases hp
  alone _ := rfl
  rest _ := rfl

/-- **Every step of the world keeps the invariant.** -/
theorem Inv.step (h : w.Inv m) {l : WorldStep} (hl : m.Allows w l) (hstep : w.step l = some w') :
    w'.Inv m := by
  cases l with
  | relay l =>
      obtain ⟨r, hrelay, rfl⟩ := Option.map_eq_some_iff.mp hstep
      exact h.relay ⟨hl.1, hl.2.1⟩ hrelay
  | start spec =>
      refine h.launch (fun site hsite hsession hrunning _ hdisk hwhole => ?_) hstep
      exact Arena.Safe.map ((safe_start hsession hwhole).imp fun _ _ hstarted => hstarted.ended _)
  | joinAndBind squad request =>
      refine h.launch (fun site hsite hsession hrunning hkey hdisk hwhole => ?_) hstep
      exact Arena.Safe.map ((safe_joinAndBind hsession hrunning hkey.symm hwhole fun hm =>
        hdisk ▸ hl.2.2 hm).imp fun _ _ hstarted => hstarted.ended _)
  | recover =>
      refine h.launch (fun site hsite hsession hrunning _ _ _ => ?_) hstep
      refine Arena.Safe.map ((safe_recoverOrphanedLeave hsession hrunning).imp fun result t _ =>
        ⟨fun runtime heq => ?_, fun _ heq => by cases heq⟩)
      cases result <;> cases heq
  | leave => exact h.leave hstep
  | heartbeat request resume =>
      simp only [World.step] at hstep
      refine h.launchPulse (fun site profile hprofile => ?_) hstep
      exact Arena.Safe.bind ((safe_beat hprofile).imp fun _ _ _ => safe_ret)
  | reportAvailability availability resume =>
      simp only [World.step] at hstep
      refine h.launchPulse (fun site profile hprofile => ?_) hstep
      exact Arena.Safe.map (safe_beat hprofile)
  | act slot choice =>
      cases slot with
      | operation => exact h.actOperation hl.2.2 hstep
      | pulse => exact h.actPulse hl.2.2 hstep
  | finish slot =>
      cases slot with
      | operation => exact h.finishOperation hstep
      | pulse => exact h.finishPulse hstep
  | crash =>
      cases hstep
      exact ⟨h.site.crash hl.2.2, (fun p hp => by cases hp), (fun p hp => by cases hp),
        fun _ => rfl, fun _ => rfl⟩

end World

theorem reach_inv {w : World} (h : worldLts.Reach m.Allows w) : w.Inv m := by
  refine h.invariant ?_ fun w l w' hw hl hstep => hw.step hl hstep
  rintro _ ⟨key, capacity, rfl⟩
  exact World.fresh_inv key capacity

end Psst
