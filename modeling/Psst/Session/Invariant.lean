import Psst.Client.Conclusion
import Psst.Session.System

/-!
# What holds between the files, the session and the relay

One invariant in four parts. The first holds in every run; the others hold in runs that meet
the condition they are named after: a relay clock that never goes back, leaves that are
answered on time, and a process that does not stop while it binds. The relay keeps all four
whatever it does.
-/

namespace Psst

/-- Which conditions a run meets. -/
structure Mode where
  monotone : Bool
  punctual : Bool
  tidy : Bool

/-- The relay step meets them. -/
def Mode.Admits (m : Mode) (w : Site) (l : RelayStep) : Prop :=
  (m.monotone = true → w.Forward l) ∧ (m.punctual = true → w.OnTime l)

theorem Mode.admits_issue (m : Mode) (w : Site) (command : StoreCommand) :
    m.Admits w (.issue command) :=
  ⟨(fun _ _ h => by cases h),
    fun _ => ⟨(fun _ h => by cases h), (fun _ h => by cases h), (fun _ h => by cases h)⟩⟩

/-! ## Leaves -/

/-- Call `i` may still take effect, or has. -/
def Site.Pending (w : Site) (i : Nat) : Prop :=
  i ∈ w.relay.held ∨ w.relay.Effective i ∨ w.waiting = some i

/-- No leave of the membership took effect or may. -/
def Site.Settled (w : Site) (member : MembershipId) : Prop :=
  ∀ p ∈ w.leaves, p.2 = member → ¬ w.Pending p.1

/-- Nothing of the membership is on disk. -/
structure Disk.Forgets (d : Disk) (member : MembershipId) : Prop where
  metadata : ∀ b ∈ d.metadata, b.memberId ≠ member
  credential : ∀ record ∈ d.credential, record.binding.memberId ≠ member

/-- A leave of the membership is on record, or nothing of the membership is left. -/
def Disk.Covers (d : Disk) (member : MembershipId) : Prop :=
  (∃ j ∈ d.journal, j.binding.memberId = member) ∨ d.Forgets member

/-- No metadata is left, or the journal says it is about to go. -/
def Disk.Concluded (d : Disk) : Prop :=
  d.metadata = none ∨ ∃ j ∈ d.journal, j.phase = .confirmed

/-! ## The invariant -/

/-- The session is ready or resuming. -/
def LifecycleState.started : LifecycleState → Bool
  | .ready | .recovering => true
  | _ => false

namespace Site

variable [Sha256]

/-- The session belongs to what is on disk, and the relay knows its credential. -/
structure Holds (w : Site) (live : LiveSession) : Prop where
  key : live.profile.toProfileKey = w.key
  issued : w.relay.store.Issued live.credential live.profile.memberId
  metadata : ∀ b ∈ w.disk.metadata, b = live.profile
  credential : ∀ record ∈ w.disk.credential, record.binding = live.profile.credentialBinding
  started : live.lifecycle.started = true → w.disk.metadata = some live.profile

/-- In every run. -/
structure Sane (w : Site) : Prop where
  relay : w.relay.Sound
  key : ∀ b ∈ w.disk.metadata, b.toProfileKey = w.key
  issued : ∀ record ∈ w.disk.credential,
    w.relay.store.Issued record.credential record.binding.memberId
  agree : ∀ b ∈ w.disk.metadata, ∀ record ∈ w.disk.credential,
    record.binding = b.credentialBinding
  journal : ∀ j ∈ w.disk.journal, j.Loads j.binding ∧ j.binding.toProfileKey = w.key
  session : ∀ live ∈ w.session, w.Holds live
  idle : (∀ live ∈ w.session, live.lifecycle ≠ .leaving) → w.waiting = none
  bound : ∀ member ∈ w.bound, ∃ squad, w.relay.store.Enrols member squad
  unbound : w.disk.metadata = none → ∀ record ∈ w.disk.credential,
    record.binding.memberId ∉ w.bound
  leaves : ∀ p ∈ w.leaves, w.relay.LeaveOf p.1 p.2

/-- Under a monotone clock: what is taken for left or archived is. -/
structure Truthful (w : Site) : Prop where
  orderly : w.relay.Orderly
  confirmed : ∀ j ∈ w.disk.journal, j.phase = .confirmed →
    w.relay.store.Finished j.binding.memberId
  left : ∀ live ∈ w.session, live.lifecycle = .left →
    w.relay.store.Finished live.profile.memberId

/-- When leaves are answered on time: no leave is lost. -/
structure Covered (w : Site) : Prop where
  timely : ∀ p ∈ w.leaves, ∀ c, w.relay.calls[p.1]? = some c →
    c.stage ≠ .returned (.error .timeout)
  calendar : ∀ e ∈ w.relay.log, e.result.isOk = true → e.now.InCalendar
  covers : ∀ p ∈ w.leaves, w.Pending p.1 → w.disk.Covers p.2
  settled : ∀ live ∈ w.session, live.lifecycle.started = true → w.Settled live.profile.memberId

/-- When the process does not stop half way through a binding: the files fit together. -/
structure Neat (w : Site) : Prop where
  journal : ∀ j ∈ w.disk.journal, ∀ b ∈ w.disk.metadata, j.binding = b
  complete : w.disk.credential ≠ none ∨ w.disk.Concluded
  orphan : w.disk.metadata = none → ∀ j ∈ w.disk.journal, j.phase = .confirmed
  half : w.disk.HalfBound → w.running = some .joinAndBind
  started : ∀ live ∈ w.session, live.lifecycle.started = true → w.disk.credential ≠ none
  left : ∀ live ∈ w.session, live.lifecycle = .left → w.disk.Concluded

structure Inv (m : Mode) (w : Site) : Prop where
  sane : w.Sane
  truthful : m.monotone = true → w.Truthful
  covered : m.punctual = true → w.Covered
  neat : m.tidy = true → w.Neat

/-! ## The relay keeps it -/

variable {m : Mode} {w : Site} {l : RelayStep} {r : Relay}

theorem Sane.relayStep (h : w.Sane) (hstep : w.relay.step l = some r) :
    Sane { w with relay := r } := by
  have hgrows := Relay.step_grows hstep
  refine
    { relay := h.relay.step hstep
      key := h.key
      issued := fun record hrecord => (h.issued record hrecord).grows hgrows
      agree := h.agree
      journal := h.journal
      session := fun live hlive => ?_
      idle := h.idle
      bound := fun member hmember => ?_
      unbound := h.unbound
      leaves := fun p hp => (h.leaves p hp).step h.relay hstep }
  · have hholds := h.session live hlive
    exact ⟨hholds.key, hholds.issued.grows hgrows, hholds.metadata, hholds.credential,
      hholds.started⟩
  · obtain ⟨squad, henrols⟩ := h.bound member hmember
    exact ⟨squad, henrols.grows hgrows⟩

theorem Truthful.relayStep (h : w.Truthful) (hl : w.Forward l) (hstep : w.relay.step l = some r) :
    Truthful { w with relay := r } where
  orderly := h.orderly.step hl hstep
  confirmed j hj hphase := (h.confirmed j hj hphase).grows (Relay.step_grows hstep)
  left live hlive hleft := (h.left live hlive hleft).grows (Relay.step_grows hstep)

/-- **No step revives a leave.** -/
theorem Pending.of_relayStep {i : Nat} (hsane : w.Sane) (hl : w.OnTime l)
    (hstep : w.relay.step l = some r) (hleave : w.IsLeave i)
    (hi : Pending { w with relay := r } i) : w.Pending i := by
  rcases hi with hheld | heffective | hwaiting
  · rcases Relay.step_held hstep hheld (hsane.relay.step hstep).toCoherent with hheld | rfl
    · exact Or.inl hheld
    · exact Or.inr (Or.inr (hl.2.1 i rfl hleave))
  · rcases Relay.step_effective hstep heffective with heffective | hheld
    · exact Or.inr (Or.inl heffective)
    · exact Or.inl hheld
  · exact Or.inr (Or.inr hwaiting)

theorem Settled.relayStep {member : MembershipId} (h : w.Settled member) (hsane : w.Sane)
    (hl : w.OnTime l) (hstep : w.relay.step l = some r) :
    Settled { w with relay := r } member :=
  fun p hp hmember hpending =>
    h p hp hmember (hpending.of_relayStep hsane hl hstep (List.mem_map_of_mem hp))

theorem Covered.relayStep (h : w.Covered) (hsane : w.Sane) (hl : w.OnTime l)
    (hstep : w.relay.step l = some r) : Covered { w with relay := r } where
  timely p hp c' hc' := by
    obtain ⟨credential, squad, ⟨c, hc, -⟩, -⟩ := hsane.leaves p hp
    obtain ⟨d, hd, hmoves⟩ := Relay.step_call hstep hc
    obtain rfl : d = c' := Option.some.inj (hd.symm.trans hc')
    intro hstage
    rcases hmoves.stage with hsame | ⟨-, hentered⟩
    · exact h.timely p hp c hc (hsame ▸ hstage)
    · rw [hstage] at hentered
      have hexpire : l = .expire p.1 := hentered
      subst hexpire
      exact hl.1 p.1 rfl (List.mem_map_of_mem hp)
  calendar e he hok := by
    rcases Relay.step_log hstep with ⟨hlog, -⟩ | ⟨_, _, now, _, rfl, _, _, hlog, -⟩
      | ⟨_, _, _, _, _, _, _, _, hlog, -⟩
    · exact h.calendar e (hlog ▸ he) hok
    · rw [show r.log = _ from hlog] at he
      rcases List.mem_append.mp he with he | he
      · exact h.calendar e he hok
      · rw [List.mem_singleton.mp he]
        exact hl.2.2 now rfl
    · rw [show r.log = _ from hlog] at he
      rcases List.mem_append.mp he with he | he
      · exact h.calendar e he hok
      · rw [List.mem_singleton.mp he] at hok
        cases hok
  covers p hp hpending :=
    h.covers p hp (hpending.of_relayStep hsane hl hstep (List.mem_map_of_mem hp))
  settled live hlive hstarted := (h.settled live hlive hstarted).relayStep hsane hl hstep

theorem Inv.relayStep (h : w.Inv m) (hl : m.Admits w l) (hstep : w.relay.step l = some r) :
    Inv m { w with relay := r } where
  sane := h.sane.relayStep hstep
  truthful hm := (h.truthful hm).relayStep (hl.1 hm) hstep
  covered hm := (h.covered hm).relayStep h.sane (hl.2 hm) hstep
  neat hm :=
    let hneat := h.neat hm
    ⟨hneat.journal, hneat.complete, hneat.orphan, hneat.half, hneat.started, hneat.left⟩

end Site

end Psst
