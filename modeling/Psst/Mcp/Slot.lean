import Psst.Lib.Gate
import Psst.Mcp.Operation
import Psst.Session.Lost

/-!
# The slot and the files

A tool call that leaves the slot in `Transition` is the only one that touches the profile until
it puts something else there. So the slot and the files agree whenever no such call is under way,
if every operation leaves behind what its result says.
-/

namespace Psst

/-! ## One process -/

/-- A join is not let down after its metadata was written, a start does not remove the metadata,
and a leave is neither told that there is nothing to leave nor let down after it was
confirmed. -/
def DispatchPoint.orderly (s : ProfileSite) (fate : Fate) : DispatchPoint → Bool
  | .binding (.act a _) => s.joinFate a fate
  | .starting _ _ (.act a _) => s.startFate a fate
  | .leaving _ (.act a _) => s.leaveFate a fate
  | _ => true

structure Dispatching where
  state : DispatchState
  tasks : List DispatchPoint

inductive DispatchStep where
  | call (point : DispatchPoint)
  | act (task : Nat) (fate : Fate)
  | pulse (runtime : Nat) (after : LifecycleState) (rotated : Option Credential)

/-- A dispatcher over the files it was opened with. -/
def DispatchState.opened (key : ProfileKey) (mode : AgentMode) (client : ClientMetadata)
    (disk : Disk) : DispatchState where
  key := key
  mode := mode
  client := client
  slot := match disk.metadata with
    | some profile => .dormant profile
    | none => .unbound
  site := ⟨disk, [], []⟩

namespace Dispatching

def step (w : Dispatching) : DispatchStep → Option Dispatching
  | .call point => if point.entry then some { w with tasks := w.tasks ++ [point] } else none
  | .act i fate =>
    (w.tasks[i]?).bind fun point =>
      (point.step w.state fate).map fun (point, s) => ⟨s, w.tasks.set i point⟩
  | .pulse r after rotated =>
    (w.state.site.pulse r after rotated).map fun site => { w with state := w.state.setSite site }

/-- No operation is let down where the slot would not notice. -/
def orderly (w : Dispatching) : DispatchStep → Bool
  | .act i fate => (w.tasks[i]?).all (DispatchPoint.orderly w.state.site fate)
  | _ => true

end Dispatching

def Orderly (w : Dispatching) (l : DispatchStep) : Prop := w.orderly l = true

instance (w : Dispatching) (l : DispatchStep) : Decidable (Orderly w l) :=
  inferInstanceAs (Decidable (_ = _))

/-- One MCP process. It starts only when no leave is pending without metadata. -/
def dispatchLts : Lts Dispatching DispatchStep :=
  .ofStep (fun w => ∃ key mode client disk, (disk.metadata = none → disk.journal = none)
    ∧ w = ⟨.opened key mode client disk, []⟩) Dispatching.step

/-! ## Agreement -/

/-- **The slot agrees with the files.** -/
structure DispatchState.Agrees (s : DispatchState) : Prop where
  unbound : s.slot = .unbound ↔ s.site.disk.metadata = none
  bound : ∀ r, s.slot = .bound r →
    ∃ live, s.site.runtimes[r]? = some live ∧ live.lifecycle ≠ .left
  dormant : ∀ profile, s.slot = .dormant profile → s.site.disk.metadata = some profile

/-- What a call that has the slot to itself, or has just put it back, leaves it with. -/
structure DispatchPoint.Fits (s : DispatchState) (p : DispatchPoint) : Prop where
  transition : s.slot = .transition ↔ p.owns = true
  unbound : s.slot = .unbound → s.site.disk.metadata = none ∧ s.site.disk.journal = none
  dormant : ∀ profile, s.slot = .dormant profile → s.site.disk.metadata = some profile
  bound : ∀ r, s.slot = .bound r → s.site.disk.metadata ≠ none ∧ s.site.hasLeft r = some false
  alive : ∀ r, s.site.hasLeft r = some false → s.slot = .bound r ∨ ∃ program, p = .leaving r program
  joins : ∀ program, p = .binding program → Joining.arena.Safe JoinLeaves program s.site
  starts : ∀ asker profile program, p = .starting asker profile program →
    (operationArena none ProfileSite.startFate).Safe
      (fun _ u => u.disk.metadata = some profile) program s.site
  leaves : ∀ r program, p = .leaving r program →
    (Leaving.arena r).Safe (LeaveLeaves r) program s.site

/-- Some call, in progress or over, fits the slot, and no other has a claim on it. -/
structure Dispatching.Inv (w : Dispatching) : Prop where
  fits : ∃ p : DispatchPoint, p.Fits w.state ∧ (p.owns = true → ∃ i : Nat, w.tasks[i]? = some p)
  one : ∀ (i j : Nat) (p q : DispatchPoint), w.tasks[i]? = some p → p.owns = true →
    w.tasks[j]? = some q → q.owns = true → i = j
  owned : ∀ (i : Nat) (p : DispatchPoint), w.tasks[i]? = some p → p.owns = true →
    w.state.slot = .transition

namespace ProfileSite

variable {s u : ProfileSite} {a : Action} {fate : Fate}

/-- An operation without a runtime leaves the runtimes alone. -/
theorem perform_runtimes {x : Answer a} (h : s.perform none a fate = some (x, u)) :
    u.runtimes = s.runtimes := by
  cases a with
  | storeCredential | storeProfile | storeJournal | clearCredential | clearProfile
  | removeJournal =>
      cases fate with
      | effect e =>
          cases h
          cases e <;> rfl
      | _ => cases h
  | send request =>
      cases fate with
      | refuse e =>
          obtain ⟨-, -, rfl⟩ := perform_refuse h
          rfl
      | plain =>
          cases h
          rfl
      | _ => cases h
  | _ => cases fate <;> cases h <;> rfl

/-- An operation on runtime `r` leaves the others alone. -/
theorem perform_hasLeft {r r' : Nat} (hne : r' ≠ r) {x : Answer a}
    (h : s.perform (some r) a fate = some (x, u)) : u.hasLeft r' = s.hasLeft r' := by
  have hset : ∀ live state, (s.setLifecycle (some r) live state).hasLeft r' = s.hasLeft r' := by
    intro live state
    simp [setLifecycle, hasLeft, List.getElem?_set_ne (Ne.symm hne)]
  cases a with
  | storeCredential | storeProfile | storeJournal | clearCredential | clearProfile
  | removeJournal =>
      cases fate with
      | effect e =>
          cases h
          cases e <;> rfl
      | _ => cases h
  | send request =>
      cases fate with
      | refuse e =>
          obtain ⟨-, -, rfl⟩ := perform_refuse h
          rfl
      | plain =>
          cases h
          rfl
      | _ => cases h
  | setLifecycle state | exchangeLifecycle expected next | lifecycle | credential =>
      cases fate with
      | plain =>
          obtain ⟨live, -, heq⟩ := Option.map_eq_some_iff.mp h
          cases heq
          first
            | rfl
            | exact hset live _
            | (split; exact hset live _; rfl)
      | _ => cases h
  | _ => cases fate <;> cases h <;> rfl

theorem hasLeft_append {live : LiveSession} {r : Nat} :
    hasLeft { s with runtimes := s.runtimes ++ [live] } r
      = if r = s.runtimes.length then some (decide (live.lifecycle = .left)) else s.hasLeft r := by
  unfold hasLeft
  split
  · rename_i heq
    simp [heq]
  · rename_i hne
    rcases Nat.lt_or_gt_of_ne hne with hlt | hgt
    · rw [List.getElem?_append_left hlt]
    · rw [List.getElem?_eq_none (by simp; omega), List.getElem?_eq_none (by omega)]

end ProfileSite

/-! ## What a step leaves of it -/

namespace DispatchPoint.Fits

variable {s s' : DispatchState} {fate : Fate} {p p' q : DispatchPoint}

/-- Without a session in the slot and a leave under way, no heartbeat is left. -/
theorem quiet (h : q.Fits s) (hq : q.owns = false) (hslot : ∀ r, s.slot ≠ .bound r) :
    s.site.Quiet := by
  intro live hlive
  obtain ⟨r, hr⟩ := List.mem_iff_getElem?.mp hlive
  by_contra hleft
  have halive : s.site.hasLeft r = some false := by simp [ProfileSite.hasLeft, hr, hleft]
  rcases h.alive r halive with hbound | ⟨program, rfl⟩
  · exact hslot r hbound
  · cases hq

/-- No runtime is alive but the one in the slot. -/
theorem not_alive (h : q.Fits s) (hq : ∀ r program, q ≠ .leaving r program)
    (hslot : ∀ r, s.slot ≠ .bound r) (r : Nat) : s.site.hasLeft r ≠ some false := by
  intro halive
  rcases h.alive r halive with hbound | ⟨program, hleaving⟩
  · exact hslot r hbound
  · exact hq r program hleaving

theorem not_owns (h : q.Fits s) (hslot : s.slot ≠ .transition) : q.owns = false := by
  by_contra hne
  exact hslot (h.transition.mpr (by simpa using hne))

/-- A call takes an unbound slot for a join. -/
theorem takes_unbound {squad : SquadName} {request : JoinSquadRequest}
    {program : Run (Except SessionError Runtime)} (h : q.Fits s) (hslot : s.slot = .unbound)
    (htext : program = joinAndBind ⟨s.key, squad⟩ request
      ∨ program = .ret (.error (.local .os))) :
    Fits (s.setSlot .transition) (.binding program) := by
  have hq := h.not_owns (by simp [hslot])
  have hbound : ∀ r, s.slot ≠ .bound r := by simp [hslot]
  have hquiet := h.quiet hq hbound
  obtain ⟨hmetadata, hjournal⟩ := h.unbound hslot
  refine ⟨⟨fun _ => rfl, fun _ => rfl⟩, nofun, nofun, nofun, ?_, ?_, nofun, nofun⟩
  · intro r halive
    exact absurd halive (h.not_alive (fun r program hp => by rw [hp] at hq; cases hq) hbound r)
  · rintro _ ⟨⟩
    rcases htext with rfl | rfl
    · exact Joining.safe_joinAndBind hquiet hmetadata hjournal _ _
    · exact Joining.safe_ret hquiet ⟨hmetadata, hjournal⟩

/-- A call takes a dormant slot for a start. -/
theorem takes_dormant {asker : Asker} {profile : ProfileBinding} (h : q.Fits s)
    (hslot : s.slot = .dormant profile) (program : Run (Except SessionError Runtime)) :
    Fits (s.setSlot .transition) (.starting asker profile program) := by
  have hq := h.not_owns (by simp [hslot])
  refine ⟨⟨fun _ => rfl, fun _ => rfl⟩, nofun, nofun, nofun, ?_, nofun, ?_, nofun⟩
  · intro r halive
    exact absurd halive (h.not_alive (fun r program hp => by rw [hp] at hq; cases hq)
      (by simp [hslot]) r)
  · rintro _ _ _ ⟨⟩
    exact Starting.safe_start program (h.dormant profile hslot)

/-- A call takes a bound slot for a leave. -/
theorem takes_bound {runtime : Nat} (h : q.Fits s) (hslot : s.slot = .bound runtime)
    (profile : ProfileBinding) :
    Fits (s.setSlot .transition) (.leaving runtime (leaveSession profile)) := by
  have hq := h.not_owns (by simp [hslot])
  obtain ⟨hmetadata, hleft⟩ := h.bound runtime hslot
  refine ⟨⟨fun _ => rfl, fun _ => rfl⟩, nofun, nofun, nofun, ?_, nofun, nofun, ?_⟩
  · intro r halive
    rcases h.alive r halive with hbound | ⟨program, rfl⟩
    · cases hslot.symm.trans hbound
      exact Or.inr ⟨_, rfl⟩
    · cases hq
  · rintro _ _ ⟨⟩
    exact Leaving.safe_leaveSession hmetadata hleft profile

/-- The program of the call that has the slot goes on. -/
theorem binds {a : Action} {k : Answer a → Run (Except SessionError Runtime)} {x : Answer a}
    {site : ProfileSite} (h : Fits s (.binding (.act a k))) (hok : s.site.joinFate a fate = true)
    (hact : s.site.perform none a fate = some (x, site)) :
    Fits (s.setSite site) (.binding (k x)) := by
  have hslot : s.slot = .transition := h.transition.mpr rfl
  refine ⟨⟨fun _ => rfl, fun _ => hslot⟩, ?_, ?_, ?_, ?_, ?_, nofun, nofun⟩
  · exact fun hother => by cases hslot.symm.trans hother
  · exact fun _ hother => by cases hslot.symm.trans hother
  · exact fun _ hother => by cases hslot.symm.trans hother
  · intro r halive
    have hsame : site.hasLeft r = s.site.hasLeft r := by
      simp only [ProfileSite.hasLeft, ProfileSite.perform_runtimes hact]
    exact absurd (hsame.symm.trans halive)
      (h.not_alive (fun _ _ hp => by cases hp) (by simp [hslot]) r)
  · rintro _ ⟨⟩
    exact ((h.joins _ rfl) s.site .refl trivial x site ⟨fate, hok, hact⟩).2.2

theorem boots {asker : Asker} {profile : ProfileBinding} {a : Action}
    {k : Answer a → Run (Except SessionError Runtime)} {x : Answer a} {site : ProfileSite}
    (h : Fits s (.starting asker profile (.act a k))) (hok : s.site.startFate a fate = true)
    (hact : s.site.perform none a fate = some (x, site)) :
    Fits (s.setSite site) (.starting asker profile (k x)) := by
  have hslot : s.slot = .transition := h.transition.mpr rfl
  refine ⟨⟨fun _ => rfl, fun _ => hslot⟩, ?_, ?_, ?_, ?_, nofun, ?_, nofun⟩
  · exact fun hother => by cases hslot.symm.trans hother
  · exact fun _ hother => by cases hslot.symm.trans hother
  · exact fun _ hother => by cases hslot.symm.trans hother
  · intro r halive
    have hsame : site.hasLeft r = s.site.hasLeft r := by
      simp only [ProfileSite.hasLeft, ProfileSite.perform_runtimes hact]
    exact absurd (hsame.symm.trans halive)
      (h.not_alive (fun _ _ hp => by cases hp) (by simp [hslot]) r)
  · rintro _ _ _ ⟨⟩
    exact ((h.starts _ _ _ rfl) s.site .refl trivial x site ⟨fate, hok, hact⟩).2.2

theorem departs {runtime : Nat} {a : Action}
    {k : Answer a → Run (Except SessionError LeaveSquadResponse)} {x : Answer a}
    {site : ProfileSite} (h : Fits s (.leaving runtime (.act a k)))
    (hok : s.site.leaveFate a fate = true)
    (hact : s.site.perform (some runtime) a fate = some (x, site)) :
    Fits (s.setSite site) (.leaving runtime (k x)) := by
  have hslot : s.slot = .transition := h.transition.mpr rfl
  refine ⟨⟨fun _ => rfl, fun _ => hslot⟩, ?_, ?_, ?_, ?_, nofun, nofun, ?_⟩
  · exact fun hother => by cases hslot.symm.trans hother
  · exact fun _ hother => by cases hslot.symm.trans hother
  · exact fun _ hother => by cases hslot.symm.trans hother
  · intro r halive
    by_cases hr : r = runtime
    · subst hr
      exact Or.inr ⟨_, rfl⟩
    · have hsame := ProfileSite.perform_hasLeft hr hact
      rcases h.alive r (hsame.symm.trans halive) with hbound | ⟨program, heq⟩
      · cases hslot.symm.trans hbound
      · cases heq
        exact absurd rfl hr
  · rintro _ _ ⟨⟩
    exact ((h.leaves _ _ rfl) s.site .refl trivial x site ⟨fate, hok, hact⟩).2.2

/-- A started runtime is the only one alive. -/
theorem installs (hmetadata : s.site.disk.metadata ≠ none)
    (hdead : ∀ r, s.site.hasLeft r ≠ some false) (hp' : p'.owns = false) (runtime : Runtime) :
    Fits (s.install runtime) p' := by
  refine ⟨⟨nofun, fun hown => by rw [hp'] at hown; cases hown⟩, nofun, nofun, ?_, ?_, ?_, ?_, ?_⟩
  · rintro _ ⟨⟩
    refine ⟨hmetadata, ?_⟩
    simp only [DispatchState.install, ProfileSite.hasLeft_append, if_true]
    rfl
  · intro r halive
    simp only [DispatchState.install, ProfileSite.hasLeft_append] at halive
    split at halive
    · rename_i heq
      exact Or.inl (by rw [heq]; rfl)
    · exact absurd halive (hdead r)
  · rintro _ rfl
    cases hp'
  · rintro _ _ _ rfl
    cases hp'
  · rintro _ _ rfl
    cases hp'

/-- A call puts the slot back. -/
theorem restores {slot : RuntimeSlot} (hslot : slot ≠ .transition) (hp' : p'.owns = false)
    (hunbound : slot = .unbound → s.site.disk.metadata = none ∧ s.site.disk.journal = none)
    (hdormant : ∀ profile, slot = .dormant profile → s.site.disk.metadata = some profile)
    (hbound : ∀ r, slot = .bound r →
      s.site.disk.metadata ≠ none ∧ s.site.hasLeft r = some false)
    (halive : ∀ r, s.site.hasLeft r = some false → slot = .bound r) :
    Fits (s.setSlot slot) p' := by
  refine ⟨⟨fun h => absurd h hslot, fun hown => by rw [hp'] at hown; cases hown⟩, hunbound,
    hdormant, hbound, fun r hr => Or.inl (halive r hr), ?_, ?_, ?_⟩
  · rintro _ rfl
    cases hp'
  · rintro _ _ _ rfl
    cases hp'
  · rintro _ _ rfl
    cases hp'

/-- **Every step of the call that has the slot fits it again.** -/
theorem move (h : q.Fits s) (hown : p.owns = true → q = p)
    (hok : p.orderly s.site fate = true) (hmove : p.Move s fate p' s') :
    p'.Fits s' ∨ s' = s ∧ p.owns = false ∧ p'.owns = false := by
  cases hmove with
  | idle before after => exact Or.inr ⟨rfl, before, after⟩
  | joins slot text => exact Or.inl (h.takes_unbound slot text)
  | starts slot _ => exact Or.inl (h.takes_dormant slot _)
  | takes slot _ => exact Or.inl (h.takes_bound slot _)
  | binds act =>
      cases hown rfl
      exact Or.inl (h.binds hok act)
  | boots act =>
      cases hown rfl
      exact Or.inl (h.boots hok act)
  | departs act =>
      cases hown rfl
      exact Or.inl (h.departs hok act)
  | joined =>
      cases hown rfl
      have hslot := h.transition.mpr rfl
      have hleaves : s.site.disk.metadata ≠ none := h.joins _ rfl s.site .refl trivial
      exact Or.inl (installs hleaves (h.not_alive nofun (by simp [hslot])) rfl _)
  | started =>
      cases hown rfl
      have hslot := h.transition.mpr rfl
      have hkept := h.starts _ _ _ rfl s.site .refl trivial
      exact Or.inl (installs (by simp [hkept]) (h.not_alive nofun (by simp [hslot]))
        (Asker.owns_next _ _) _)
  | unjoined =>
      cases hown rfl
      have hslot := h.transition.mpr rfl
      have hleaves := h.joins _ rfl s.site .refl trivial
      exact Or.inl (restores nofun rfl (fun _ => hleaves) nofun nofun
        fun r hr => absurd hr (h.not_alive nofun (by simp [hslot]) r))
  | unstarted =>
      cases hown rfl
      have hslot := h.transition.mpr rfl
      have hkept := h.starts _ _ _ rfl s.site .refl trivial
      refine Or.inl (restores nofun rfl nofun ?_ nofun
        fun r hr => absurd hr (h.not_alive nofun (by simp [hslot]) r))
      rintro _ ⟨⟩
      exact hkept
  | left =>
      cases hown rfl
      have hslot := h.transition.mpr rfl
      obtain ⟨hmetadata, hjournal, hleft⟩ := h.leaves _ _ rfl s.site .refl trivial
      refine Or.inl (restores nofun rfl (fun _ => ⟨hmetadata, hjournal⟩) nofun nofun ?_)
      intro r hr
      rcases h.alive r hr with hbound | ⟨program, heq⟩
      · cases hslot.symm.trans hbound
      · cases heq
        cases hleft.symm.trans hr
  | unleft =>
      cases hown rfl
      have hslot := h.transition.mpr rfl
      obtain ⟨hmetadata, hleft⟩ := h.leaves _ _ rfl s.site .refl trivial
      refine Or.inl (restores nofun rfl nofun nofun ?_ ?_)
      · rintro _ ⟨⟩
        exact ⟨hmetadata, hleft⟩
      · intro r hr
        rcases h.alive r hr with hbound | ⟨program, heq⟩
        · cases hslot.symm.trans hbound
        · cases heq
          rfl

/-- Heartbeats are no affair of the slot. -/
theorem pulse {r : Nat} {after : LifecycleState} {rotated : Option Credential} {site : ProfileSite}
    (h : q.Fits s) (hpulse : s.site.pulse r after rotated = some site) :
    q.Fits (s.setSite site) := by
  obtain ⟨hmetadata, hjournal, -⟩ := ProfileSite.pulse_view hpulse 0
  have hleft : ∀ r, site.hasLeft r = s.site.hasLeft r :=
    fun r => (ProfileSite.pulse_view hpulse r).2.2
  have hrely : ∀ runtime ok, (operationArena runtime ok).rely s.site site :=
    fun _ _ => .single ⟨r, after, rotated, hpulse⟩
  refine ⟨h.transition, ?_, ?_, ?_, ?_, ?_, ?_, ?_⟩
  · intro hslot
    show site.disk.metadata = none ∧ site.disk.journal = none
    rw [hmetadata, hjournal]
    exact h.unbound hslot
  · intro profile hslot
    exact hmetadata.trans (h.dormant profile hslot)
  · intro r hslot
    show site.disk.metadata ≠ none ∧ site.hasLeft r = some false
    rw [hmetadata, hleft]
    exact h.bound r hslot
  · intro r halive
    exact h.alive r ((hleft r).symm.trans halive)
  · intro program hprogram
    exact (h.joins program hprogram).rely (hrely _ _)
  · intro asker profile program hprogram
    exact (h.starts asker profile program hprogram).rely (hrely _ _)
  · intro r program hprogram
    exact (h.leaves r program hprogram).rely (hrely _ _)

end DispatchPoint.Fits

namespace Dispatching

variable {w w' : Dispatching} {l : DispatchStep}

theorem Inv.act {i : Nat} {fate : Fate} {p p' : DispatchPoint} {s' : DispatchState} (h : w.Inv)
    (hi : w.tasks[i]? = some p) (hok : p.orderly w.state.site fate = true)
    (hmove : p.Move w.state fate p' s') : Inv ⟨s', w.tasks.set i p'⟩ := by
  obtain ⟨q, hq, hqtask⟩ := h.fits
  obtain ⟨hlt, -⟩ := List.getElem?_eq_some_iff.mp hi
  have hself : (w.tasks.set i p')[i]? = some p' := List.getElem?_set_self hlt
  -- the call that fits the slot is the acting one, if that one has the slot
  have hown : p.owns = true → q = p := by
    intro hp
    obtain ⟨j, hj⟩ := hqtask (hq.transition.mp (h.owned i p hi hp))
    have hji := h.one j i q p hj (hq.transition.mp (h.owned i p hi hp)) hi hp
    subst hji
    exact Option.some.inj (hj.symm.trans hi)
  rcases hq.move hown hok hmove with hfits | ⟨rfl, hp, hp'⟩
  · -- nobody else has it, before or after
    have hothers : ∀ (j : Nat) (t : DispatchPoint), j ≠ i → w.tasks[j]? = some t →
        t.owns = false := by
      intro j t hj ht
      by_contra hne
      have htowns : t.owns = true := by simpa using hne
      have hslot := h.owned j t ht htowns
      cases hmove with
      | idle before after carries =>
          have := hfits.transition.mp hslot
          simp [after] at this
      | joins slot _ => cases slot.symm.trans hslot
      | starts slot _ => cases slot.symm.trans hslot
      | takes slot _ => cases slot.symm.trans hslot
      | _ => exact hj (h.one j i t _ ht htowns hi rfl)
    refine ⟨⟨p', hfits, fun _ => ⟨i, hself⟩⟩, ?_, ?_⟩
    · intro j k t u ht htowns hu huowns
      rcases getElem?_set_cases ht with ⟨rfl, -⟩ | ⟨hj, ht'⟩
      · rcases getElem?_set_cases hu with ⟨rfl, -⟩ | ⟨hk, hu'⟩
        · rfl
        · simp [hothers k u hk hu'] at huowns
      · simp [hothers j t hj ht'] at htowns
    · intro j t ht htowns
      rcases getElem?_set_cases ht with ⟨-, rfl⟩ | ⟨hj, ht'⟩
      · exact hfits.transition.mpr htowns
      · simp [hothers j t hj ht'] at htowns
  · refine ⟨⟨q, hq, ?_⟩, ?_, ?_⟩
    · intro hqowns
      obtain ⟨j, hj⟩ := hqtask hqowns
      refine ⟨j, ?_⟩
      have hne : i ≠ j := by
        rintro rfl
        cases hi.symm.trans hj
        simp [hp] at hqowns
      exact (List.getElem?_set_ne hne).trans hj
    · intro j k t u ht htowns hu huowns
      rcases getElem?_set_cases ht with ⟨-, rfl⟩ | ⟨-, ht'⟩
      · simp [hp'] at htowns
      · rcases getElem?_set_cases hu with ⟨-, rfl⟩ | ⟨-, hu'⟩
        · simp [hp'] at huowns
        · exact h.one j k t u ht' htowns hu' huowns
    · intro j t ht htowns
      rcases getElem?_set_cases ht with ⟨-, rfl⟩ | ⟨-, ht'⟩
      · simp [hp'] at htowns
      · exact h.owned j t ht' htowns

theorem Inv.call {p : DispatchPoint} (h : w.Inv) (hp : p.entry = true) :
    Inv { w with tasks := w.tasks ++ [p] } := by
  have hfresh : p.owns = false := by
    cases p <;> first | rfl | cases hp
  obtain ⟨q, hq, hqtask⟩ := h.fits
  refine ⟨⟨q, hq, ?_⟩, ?_, ?_⟩
  · intro hqowns
    obtain ⟨j, hj⟩ := hqtask hqowns
    refine ⟨j, ?_⟩
    exact (List.getElem?_append_left (List.getElem?_eq_some_iff.mp hj).1).trans hj
  · intro j k t u ht htowns hu huowns
    rcases getElem?_append_cases ht with ht' | rfl
    · rcases getElem?_append_cases hu with hu' | rfl
      · exact h.one j k t u ht' htowns hu' huowns
      · simp [hfresh] at huowns
    · simp [hfresh] at htowns
  · intro j t ht htowns
    rcases getElem?_append_cases ht with ht' | rfl
    · exact h.owned j t ht' htowns
    · simp [hfresh] at htowns

theorem Inv.step (h : w.Inv) (hok : Orderly w l) (hstep : w.step l = some w') : w'.Inv := by
  cases l with
  | call p =>
      simp only [Dispatching.step, Option.ite_none_right_eq_some, Option.some.injEq] at hstep
      obtain ⟨hp, rfl⟩ := hstep
      exact h.call hp
  | act i fate =>
      simp only [Dispatching.step, Option.bind_eq_some_iff, Option.map_eq_some_iff] at hstep
      obtain ⟨p, hi, ⟨p', s'⟩, hp, rfl⟩ := hstep
      have horderly : p.orderly w.state.site fate = true := by
        simpa [Orderly, orderly, hi] using hok
      exact h.act hi horderly (DispatchPoint.step_move hp)
  | pulse r after rotated =>
      obtain ⟨site, hpulse, rfl⟩ := Option.map_eq_some_iff.mp hstep
      obtain ⟨q, hq, hqtask⟩ := h.fits
      exact ⟨⟨q, hq.pulse hpulse, hqtask⟩, h.one, h.owned⟩

theorem Inv.opened {key : ProfileKey} {mode : AgentMode} {client : ClientMetadata} {disk : Disk}
    (hdisk : disk.metadata = none → disk.journal = none) :
    Inv ⟨.opened key mode client disk, []⟩ := by
  have hidle : ∀ i : Nat, ([] : List DispatchPoint)[i]? = none := fun i => List.getElem?_nil
  suffices hfits : DispatchPoint.working.Fits (.opened key mode client disk) by
    refine ⟨⟨.working, hfits, fun howns => ?_⟩, fun i j p q hi => ?_, fun i p hi => ?_⟩
    · cases howns
    · cases (hidle i).symm.trans hi
    · cases (hidle i).symm.trans hi
  have hslot : (DispatchState.opened key mode client disk).slot = match disk.metadata with
    | some profile => .dormant profile
    | none => .unbound := rfl
  cases hmetadata : disk.metadata with
  | none =>
      rw [hmetadata] at hslot
      refine ⟨?_, fun _ => ⟨hmetadata, hdisk hmetadata⟩, ?_, ?_, nofun, nofun, nofun, nofun⟩
      · simp [hslot, DispatchPoint.owns]
      · simp [hslot]
      · simp [hslot]
  | some profile =>
      rw [hmetadata] at hslot
      refine ⟨?_, ?_, ?_, ?_, nofun, nofun, nofun, nofun⟩
      · simp [hslot, DispatchPoint.owns]
      · simp [hslot]
      · simp [DispatchState.opened, hmetadata]
      · simp [hslot]

end Dispatching

/-- A call that has returned. -/
def DispatchPoint.over : DispatchPoint → Bool
  | .returned _ => true
  | _ => false

/-- **The slot agrees with the durable profile.** In a run in which no operation is let down where
the slot would not notice: whenever no call is in progress, the slot is `Unbound` exactly when no
metadata is stored, `Bound` only with a runtime that has not left, and `Dormant` only with the
stored binding. -/
theorem slot_agrees_with_profile {w : Dispatching} (h : dispatchLts.Reach Orderly w)
    (hrest : ∀ p ∈ w.tasks, p.over = true) : w.state.Agrees := by
  have hinv : w.Inv := by
    refine h.invariant (P := Dispatching.Inv) ?_ fun s l t hs hok hstep => hs.step hok hstep
    rintro _ ⟨key, mode, client, disk, hdisk, rfl⟩
    exact .opened hdisk
  obtain ⟨q, hq, hqtask⟩ := hinv.fits
  have hslot : w.state.slot ≠ .transition := by
    intro htransition
    obtain ⟨i, hi⟩ := hqtask (hq.transition.mp htransition)
    have hover := hrest q (List.mem_of_getElem? hi)
    have howns := hq.transition.mp htransition
    cases q with
    | returned => cases howns
    | _ => cases hover
  refine ⟨⟨fun hunbound => (hq.unbound hunbound).1, ?_⟩, ?_, hq.dormant⟩
  · intro hmetadata
    cases hcase : w.state.slot with
    | unbound => rfl
    | transition => exact absurd hcase hslot
    | dormant profile =>
        have hstored := hq.dormant profile hcase
        cases hmetadata.symm.trans hstored
    | bound r => exact absurd hmetadata (hq.bound r hcase).1
  · intro r hbound
    have hleft := (hq.bound r hbound).2
    unfold ProfileSite.hasLeft at hleft
    obtain ⟨live, hlive, hnot⟩ := Option.map_eq_some_iff.mp hleft
    exact ⟨live, hlive, of_decide_eq_false hnot⟩

namespace Sample

/-- Alice's process calls `squad_join` and gets as far as the first heartbeat. -/
def joinsSquad : List DispatchStep :=
  [.call (.joining alpha aliceRequest)] ++ List.replicate 4 (.act 0 .plain)
    ++ [.act 0 (.arrives (.response
          (okResponse (some ⟨aliceInstance, aliceToken⟩)
            (.session (aliceSession aliceToken).response)))),
        .act 0 (.effect .done), .act 0 (.effect .done)]
    ++ List.replicate 3 (.act 0 .plain)

/-- The relay takes the heartbeat. -/
def beaten : Arrival :=
  .response (okResponse none (.heartbeat ⟨⟨instant 90101, by decide⟩, 30⟩))

def nobody : Dispatching := ⟨.opened home .cooperative client ⟨none, none, none⟩, []⟩

theorem nobody_init : dispatchLts.init nobody :=
  ⟨home, .cooperative, client, ⟨none, none, none⟩, fun _ => rfl, rfl⟩

end Sample

open Sample in
/-- Alice has joined. -/
theorem slot_agrees_with_profile_alice :
    ∃ w, dispatchLts.Reach Orderly w ∧ w.state.slot = .bound 0 ∧ w.state.Agrees := by
  have hrun : (Lts.follow Dispatching.step Orderly nobody
      (joinsSquad ++ [.act 0 (.arrives beaten), .act 0 .plain])).any (fun w =>
        decide (w.state.slot = .bound 0) && w.tasks.all DispatchPoint.over) = true := by
    decide
  obtain ⟨w, hw, hcheck⟩ := Lts.exists_steps_of_follow _ hrun
  simp only [Bool.and_eq_true, decide_eq_true_eq, List.all_eq_true] at hcheck
  have hreach : dispatchLts.Reach Orderly w := ⟨_, nobody_init, hw⟩
  exact ⟨w, hreach, hcheck.1, slot_agrees_with_profile hreach hcheck.2⟩

open Sample in
/-- **A join that fails late.** The binding is stored, the first heartbeat is lost, and the slot
goes back to `Unbound`. -/
theorem late_join_failure_forgets_profile :
    ¬ ∀ w, dispatchLts.Reach Lts.always w → (∀ p ∈ w.tasks, p.over = true) → w.state.Agrees := by
  intro hclaim
  have hrun : (Lts.follow Dispatching.step Lts.always nobody
      (joinsSquad ++ [.act 0 (.arrives .transport), .act 0 .plain])).any (fun w =>
        decide (w.state.slot = .unbound) && w.state.site.disk.metadata.isSome
          && w.tasks.all DispatchPoint.over) = true := by
    decide
  obtain ⟨w, hw, hcheck⟩ := Lts.exists_steps_of_follow _ hrun
  simp only [Bool.and_eq_true, decide_eq_true_eq, List.all_eq_true] at hcheck
  obtain ⟨⟨hslot, hmetadata⟩, hrest⟩ := hcheck
  have hagrees := hclaim w ⟨_, nobody_init, hw⟩ hrest
  simp [hagrees.unbound.mp hslot] at hmetadata

end Psst
