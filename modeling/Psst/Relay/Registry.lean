import Mathlib.Data.List.Perm.Basic
import Psst.Store.Repository

/-!
# The notification registry

One entry for every membership somebody waits for: the sending half of a watch channel and
the number of its subscriptions. The last subscription to go takes the entry with it, and the
next one opens a new channel. A watch channel is its version here: a receiver remembers the
version it saw last, and the value that is sent is never read.

Each function below runs under the lock of the registry, so each is one action.
-/

namespace Psst

def maxInboxWaiters : Nat := 128

structure NotificationEntry where
  /-- The channel whose sender the entry owns. -/
  channel : Nat
  registrations : Nat
  deriving DecidableEq

structure NotificationSubscription where
  key : MembershipId
  /-- The channel the receiver is attached to. -/
  channel : Nat
  /-- The version the receiver saw last. -/
  seen : Nat
  deriving DecidableEq

structure NotificationRegistry where
  entries : MembershipId → Option NotificationEntry
  permits : Nat
  /-- How often each channel was sent to. -/
  versions : Nat → Nat
  /-- How many channels were opened. -/
  channels : Nat

/-- What `changed` finds. -/
inductive Changed where
  | ready
  | pending
  | closed
  deriving DecidableEq

namespace NotificationRegistry

def bounded : NotificationRegistry where
  entries := fun _ => none
  permits := maxInboxWaiters
  versions := fun _ => 0
  channels := 0

/-- `try_acquire_owned` on the semaphore. -/
def tryAcquire (g : NotificationRegistry) : Option NotificationRegistry :=
  if g.permits = 0 then none else some { g with permits := g.permits - 1 }

/-- The rest of `subscribe`, with the permit in hand. -/
def subscribe (g : NotificationRegistry) (member : MembershipId) :
    NotificationSubscription × NotificationRegistry :=
  match g.entries member with
  | some entry =>
    (⟨member, entry.channel, g.versions entry.channel⟩,
      { g with
        entries := Function.update g.entries member
          (some { entry with registrations := entry.registrations + 1 }) })
  | none =>
    (⟨member, g.channels, 0⟩,
      { g with
        entries := Function.update g.entries member (some ⟨g.channels, 1⟩)
        versions := Function.update g.versions g.channels 0
        channels := g.channels + 1 })

def notify (g : NotificationRegistry) (member : MembershipId) : NotificationRegistry :=
  match g.entries member with
  | some entry =>
    { g with
      versions := Function.update g.versions entry.channel (g.versions entry.channel + 1) }
  | none => g

/-- `Drop for NotificationSubscription`; the permit goes back after it. -/
def drop (g : NotificationRegistry) (sub : NotificationSubscription) : NotificationRegistry :=
  match g.entries sub.key with
  | some entry =>
    { g with
      entries := Function.update g.entries sub.key
        (if entry.registrations - 1 = 0 then none
          else some { entry with registrations := entry.registrations - 1 }) }
  | none => g

def release (g : NotificationRegistry) : NotificationRegistry :=
  { g with permits := g.permits + 1 }

/-- The sender of a receiver's channel is the one stored for its key. -/
def Attached (g : NotificationRegistry) (sub : NotificationSubscription) : Prop :=
  ∃ entry, g.entries sub.key = some entry ∧ entry.channel = sub.channel

instance (g : NotificationRegistry) (sub : NotificationSubscription) :
    Decidable (g.Attached sub) :=
  decidable_of_iff ((g.entries sub.key).map NotificationEntry.channel = some sub.channel) (by
    simp [Attached, Option.map_eq_some_iff])

/-- `changed` on the receiver: an unseen version first, then a sender that is gone. -/
def changed (g : NotificationRegistry) (sub : NotificationSubscription) : Changed :=
  if sub.seen ≠ g.versions sub.channel then .ready
  else if g.Attached sub then .pending
  else .closed

/-- A receiver that took the change in. -/
def observe (g : NotificationRegistry) (sub : NotificationSubscription) :
    NotificationSubscription :=
  { sub with seen := g.versions sub.channel }

/-! ## The registry and its subscriptions -/

/-- The registry agrees with the subscriptions that are alive. -/
structure Tracks (g : NotificationRegistry) (subs : List NotificationSubscription) : Prop where
  /-- An entry counts the subscriptions of its key, and there is one. -/
  counted : ∀ member entry, g.entries member = some entry →
    entry.registrations = subs.countP (·.key = member) ∧ 0 < entry.registrations
  attached : ∀ sub ∈ subs, g.Attached sub
  seen : ∀ sub ∈ subs, sub.seen ≤ g.versions sub.channel
  opened : ∀ member entry, g.entries member = some entry → entry.channel < g.channels
  distinct : ∀ member entry member' entry', g.entries member = some entry →
    g.entries member' = some entry' → entry.channel = entry'.channel → member = member'

namespace Tracks

variable {g : NotificationRegistry} {sub : NotificationSubscription}
  {subs subs' : List NotificationSubscription}

theorem perm (h : g.Tracks subs) (hperm : subs.Perm subs') : g.Tracks subs' where
  counted member entry hentry := by
    rw [← hperm.countP_eq]
    exact h.counted member entry hentry
  attached sub hsub := h.attached sub (hperm.mem_iff.mpr hsub)
  seen sub hsub := h.seen sub (hperm.mem_iff.mpr hsub)
  opened := h.opened
  distinct := h.distinct

theorem bounded : NotificationRegistry.bounded.Tracks [] where
  counted _ _ h := by cases h
  attached _ h := by cases h
  seen _ h := by cases h
  opened _ _ h := by cases h
  distinct _ _ _ _ h := by cases h

/-- Without an entry there is no subscription. -/
theorem not_mem (h : g.Tracks subs) {member : MembershipId} (hnone : g.entries member = none) :
    ∀ sub ∈ subs, sub.key ≠ member := by
  rintro sub hsub rfl
  obtain ⟨entry, hentry, -⟩ := h.attached sub hsub
  rw [hnone] at hentry
  cases hentry

/-- **An entry is there exactly while it has subscriptions.** -/
theorem entry_iff (h : g.Tracks subs) (member : MembershipId) :
    (g.entries member).isSome = true ↔ ∃ sub ∈ subs, sub.key = member := by
  constructor
  · intro hsome
    obtain ⟨entry, hentry⟩ := Option.isSome_iff_exists.mp hsome
    obtain ⟨hcount, hpos⟩ := h.counted member entry hentry
    rw [hcount, List.countP_pos_iff] at hpos
    simpa using hpos
  · rintro ⟨sub, hsub, rfl⟩
    obtain ⟨entry, hentry, -⟩ := h.attached sub hsub
    rw [hentry]
    rfl

/-- **A live receiver never finds its sender gone.** -/
theorem changed_ne_closed (h : g.Tracks subs) (hsub : sub ∈ subs) : g.changed sub ≠ .closed := by
  unfold changed
  rw [if_pos (h.attached sub hsub)]
  split <;> simp

/-- What only the permits differ in is tracked alike. -/
theorem of_permits (h : g.Tracks subs) (permits : Nat) :
    ({ g with permits := permits } : NotificationRegistry).Tracks subs :=
  ⟨h.counted, h.attached, h.seen, h.opened, h.distinct⟩

/-- Another subscription of a key that has some. -/
theorem join (h : g.Tracks subs) {member : MembershipId} {entry : NotificationEntry}
    (hmember : g.entries member = some entry) :
    Tracks
      { g with
        entries := Function.update g.entries member
          (some { entry with registrations := entry.registrations + 1 }) }
      (⟨member, entry.channel, g.versions entry.channel⟩ :: subs) := by
  obtain ⟨hcount, hpos⟩ := h.counted member entry hmember
  -- the changed entry keeps its channel
  have hback : ∀ key e, Function.update g.entries member
      (some { entry with registrations := entry.registrations + 1 }) key = some e →
        (key = member ∧ e = { entry with registrations := entry.registrations + 1 })
          ∨ (key ≠ member ∧ g.entries key = some e) := by
    intro key e he
    by_cases hkey : key = member
    · subst hkey
      rw [Function.update_self] at he
      exact Or.inl ⟨rfl, (Option.some.inj he).symm⟩
    · rw [Function.update_of_ne hkey] at he
      exact Or.inr ⟨hkey, he⟩
  have hchannel : ∀ key e, Function.update g.entries member
      (some { entry with registrations := entry.registrations + 1 }) key = some e →
        ∃ e', g.entries key = some e' ∧ e'.channel = e.channel := by
    intro key e he
    rcases hback key e he with ⟨rfl, rfl⟩ | ⟨-, he⟩
    · exact ⟨entry, hmember, rfl⟩
    · exact ⟨e, he, rfl⟩
  constructor
  · intro key e he
    rcases hback key e he with ⟨rfl, rfl⟩ | ⟨hkey, he⟩
    · simp [hcount]
    · rw [List.countP_cons_of_neg (by simpa using Ne.symm hkey)]
      exact h.counted key e he
  · intro sub hsub
    rcases List.mem_cons.mp hsub with rfl | hsub
    · exact ⟨_, Function.update_self .., rfl⟩
    · obtain ⟨e, he, hsame⟩ := h.attached sub hsub
      by_cases hkey : sub.key = member
      · rw [hkey, hmember] at he
        cases he
        refine ⟨{ entry with registrations := entry.registrations + 1 }, ?_, hsame⟩
        show Function.update g.entries member _ sub.key = _
        rw [hkey, Function.update_self]
      · exact ⟨e, (Function.update_of_ne hkey ..).trans he, hsame⟩
  · intro sub hsub
    rcases List.mem_cons.mp hsub with rfl | hsub
    · exact le_refl _
    · exact h.seen sub hsub
  · intro key e he
    obtain ⟨e', he', hsame⟩ := hchannel key e he
    rw [← hsame]
    exact h.opened key e' he'
  · intro key e key' e' he he' hsame
    obtain ⟨d, hd, hdc⟩ := hchannel key e he
    obtain ⟨d', hd', hdc'⟩ := hchannel key' e' he'
    exact h.distinct key d key' d' hd hd' (by rw [hdc, hdc', hsame])

/-- The first subscription of a key opens a channel nobody has. -/
theorem first (h : g.Tracks subs) {member : MembershipId} (hmember : g.entries member = none) :
    Tracks
      { g with
        entries := Function.update g.entries member (some ⟨g.channels, 1⟩)
        versions := Function.update g.versions g.channels 0
        channels := g.channels + 1 }
      (⟨member, g.channels, 0⟩ :: subs) := by
  have hother := h.not_mem hmember
  have hback : ∀ key e, Function.update g.entries member (some ⟨g.channels, 1⟩) key = some e →
      (key = member ∧ e = ⟨g.channels, 1⟩)
        ∨ (key ≠ member ∧ g.entries key = some e ∧ e.channel < g.channels) := by
    intro key e he
    by_cases hkey : key = member
    · subst hkey
      rw [Function.update_self] at he
      exact Or.inl ⟨rfl, (Option.some.inj he).symm⟩
    · rw [Function.update_of_ne hkey] at he
      exact Or.inr ⟨hkey, he, h.opened key e he⟩
  constructor
  · intro key e he
    rcases hback key e he with ⟨rfl, rfl⟩ | ⟨hkey, he, -⟩
    · have hcount : subs.countP (·.key = key) = 0 := by
        rw [List.countP_eq_zero]
        simpa using hother
      simp [hcount]
    · rw [List.countP_cons_of_neg (by simpa using Ne.symm hkey)]
      exact h.counted key e he
  · intro sub hsub
    rcases List.mem_cons.mp hsub with rfl | hsub
    · exact ⟨_, Function.update_self .., rfl⟩
    · obtain ⟨e, he, hsame⟩ := h.attached sub hsub
      exact ⟨e, (Function.update_of_ne (hother sub hsub) ..).trans he, hsame⟩
  · intro sub hsub
    rcases List.mem_cons.mp hsub with rfl | hsub
    · exact Nat.zero_le _
    · obtain ⟨e, he, hsame⟩ := h.attached sub hsub
      have hlt := h.opened _ e he
      show sub.seen ≤ Function.update g.versions g.channels 0 sub.channel
      rw [Function.update_of_ne (by omega)]
      exact h.seen sub hsub
  · intro key e he
    show e.channel < g.channels + 1
    rcases hback key e he with ⟨rfl, rfl⟩ | ⟨-, -, hlt⟩
    · exact Nat.lt_succ_self _
    · omega
  · intro key e key' e' he he' hsame
    rcases hback key e he with ⟨rfl, rfl⟩ | ⟨-, hold, hlt⟩ <;>
      rcases hback key' e' he' with ⟨rfl, rfl⟩ | ⟨-, hold', hlt'⟩
    · rfl
    · exact absurd hsame (Nat.ne_of_gt hlt')
    · exact absurd hsame (Nat.ne_of_lt hlt)
    · exact h.distinct key e key' e' hold hold' hsame

theorem subscribe (h : g.Tracks subs) (member : MembershipId) :
    (g.subscribe member).2.Tracks ((g.subscribe member).1 :: subs) := by
  unfold NotificationRegistry.subscribe
  split
  · next entry hmember => exact h.join hmember
  · next hmember => exact h.first hmember

/-- A subscription moves no version a live receiver looks at. -/
theorem versions_subscribe (h : g.Tracks subs) (hsub : sub ∈ subs) (member : MembershipId) :
    (g.subscribe member).2.versions sub.channel = g.versions sub.channel := by
  unfold NotificationRegistry.subscribe
  split
  · rfl
  · obtain ⟨e, he, hsame⟩ := h.attached sub hsub
    have hlt := h.opened _ e he
    exact Function.update_of_ne (by omega) ..

theorem notify (h : g.Tracks subs) (member : MembershipId) : (g.notify member).Tracks subs := by
  unfold NotificationRegistry.notify
  split
  · next entry hentry =>
      refine ⟨h.counted, h.attached, fun sub hsub => ?_, h.opened, h.distinct⟩
      have hseen := h.seen sub hsub
      show sub.seen ≤ Function.update g.versions entry.channel _ sub.channel
      by_cases hchannel : sub.channel = entry.channel
      · rw [hchannel, Function.update_self]
        rw [hchannel] at hseen
        omega
      · rw [Function.update_of_ne hchannel]
        exact hseen
  · exact h

/-- **A notification reaches the subscriptions of its key** and no others. -/
theorem versions_notify (h : g.Tracks subs) (hsub : sub ∈ subs) (member : MembershipId) :
    (g.notify member).versions sub.channel =
      if sub.key = member then g.versions sub.channel + 1 else g.versions sub.channel := by
  obtain ⟨e, he, hchannel⟩ := h.attached sub hsub
  unfold NotificationRegistry.notify
  by_cases hkey : sub.key = member
  · rw [if_pos hkey, ← hkey, he]
    show Function.update g.versions e.channel _ sub.channel = _
    rw [hchannel, Function.update_self]
  · rw [if_neg hkey]
    cases hmember : g.entries member with
    | none => rfl
    | some entry =>
        have hne : sub.channel ≠ entry.channel := by
          intro heq
          exact hkey (h.distinct _ e _ entry he hmember (hchannel.trans heq))
        exact Function.update_of_ne hne ..

theorem drop (h : g.Tracks (sub :: subs)) : (g.drop sub).Tracks subs := by
  obtain ⟨entry, hentry, hchannel⟩ := h.attached sub (List.mem_cons_self ..)
  obtain ⟨hcount, -⟩ := h.counted _ entry hentry
  rw [List.countP_cons_of_pos (by simp)] at hcount
  unfold NotificationRegistry.drop
  rw [hentry]
  -- what is left of the entry, and that it keeps its channel
  have hback : ∀ key e, Function.update g.entries sub.key
      (if entry.registrations - 1 = 0 then none
        else some { entry with registrations := entry.registrations - 1 }) key = some e →
      ∃ e', g.entries key = some e' ∧ e'.channel = e.channel
        ∧ (key = sub.key → e.registrations = entry.registrations - 1 ∧ 0 < e.registrations)
        ∧ (key ≠ sub.key → e' = e) := by
    intro key e he
    by_cases hkey : key = sub.key
    · subst hkey
      rw [Function.update_self, Option.ite_none_left_eq_some] at he
      obtain ⟨hpos, he⟩ := he
      cases he
      exact ⟨entry, hentry, rfl, fun _ => ⟨rfl, Nat.pos_of_ne_zero hpos⟩,
        fun hne => absurd rfl hne⟩
    · rw [Function.update_of_ne hkey] at he
      exact ⟨e, he, rfl, fun heq => absurd heq hkey, fun _ => rfl⟩
  constructor
  · intro key e he
    obtain ⟨e', he', -, hself, hothers⟩ := hback key e he
    by_cases hkey : key = sub.key
    · obtain ⟨hregistrations, hpos⟩ := hself hkey
      refine ⟨?_, hpos⟩
      rw [hregistrations, hkey, hcount, Nat.add_sub_cancel]
    · obtain ⟨hcount', hpos⟩ := h.counted key e' he'
      rw [List.countP_cons_of_neg (by simpa using Ne.symm hkey)] at hcount'
      rw [← hothers hkey]
      exact ⟨hcount', hpos⟩
  · intro other hother
    obtain ⟨e, he, hchannel'⟩ := h.attached other (List.mem_cons_of_mem _ hother)
    by_cases hkey : other.key = sub.key
    · rw [hkey, hentry] at he
      cases he
      have hpos : 0 < subs.countP (·.key = sub.key) :=
        List.countP_pos_iff.mpr ⟨other, hother, by simpa using hkey⟩
      refine ⟨{ entry with registrations := entry.registrations - 1 }, ?_, hchannel'⟩
      show Function.update g.entries sub.key _ other.key = _
      rw [hkey, Function.update_self, if_neg (by omega)]
    · exact ⟨e, (Function.update_of_ne hkey ..).trans he, hchannel'⟩
  · exact fun other hother => h.seen other (List.mem_cons_of_mem _ hother)
  · intro key e he
    obtain ⟨e', he', hsame, -⟩ := hback key e he
    rw [← hsame]
    exact h.opened key e' he'
  · intro key e key' e' he he' hsame
    obtain ⟨d, hd, hdc, -⟩ := hback key e he
    obtain ⟨d', hd', hdc', -⟩ := hback key' e' he'
    exact h.distinct key d key' d' hd hd' (by rw [hdc, hdc', hsame])

theorem observe (h : g.Tracks (sub :: subs)) : g.Tracks (g.observe sub :: subs) where
  counted member entry hentry := by
    have hcount := h.counted member entry hentry
    rw [List.countP_cons] at hcount ⊢
    exact hcount
  attached other hother := by
    rcases List.mem_cons.mp hother with rfl | hother
    · exact h.attached sub (List.mem_cons_self ..)
    · exact h.attached other (List.mem_cons_of_mem _ hother)
  seen other hother := by
    rcases List.mem_cons.mp hother with rfl | hother
    · exact le_refl _
    · exact h.seen other (List.mem_cons_of_mem _ hother)
  opened := h.opened
  distinct := h.distinct

end Tracks

end NotificationRegistry

end Psst
