import Psst.Relay.Arrival
import Psst.Relay.Handler
import Psst.Relay.Registry
import Psst.Relay.Schedule
import Psst.Store.Growth

/-!
# Long polling

The inbox handler reads the inbox, and when it is empty and the request allows for it, waits.
It subscribes before it reads again, so a message that arrives after that read changes the
version its receiver has seen. The worker commits a send first and notifies afterwards, before
it replies: between the two the message is in the store and nobody has been told.

Here the relay runs together with its registry and its inbox handlers. A handler is named by
its place in `waiters`; its queries are calls of the relay like all others.
-/

namespace Psst

/-- What the handler is about to return; `none` when it is dropped before it returns. The page
is still to be encoded. -/
abbrev InboxOutcome := Option (Except ApiErrorCode InboxPage)

/-- Where an inbox handler is. -/
inductive Waiting where
  /-- The first query. -/
  | preflight (call : Nat)
  /-- Holds a permit and has not locked the registry. -/
  | permitted (member : MembershipId)
  /-- About to query again. -/
  | subscribed (sub : NotificationSubscription)
  | querying (sub : NotificationSubscription) (call : Nat)
  /-- In `select!`, on an empty page. -/
  | parked (sub : NotificationSubscription) (page : InboxPage)
  /-- Done, with the subscription still to be dropped. -/
  | leaving (sub : NotificationSubscription) (outcome : InboxOutcome)
  /-- The subscription is gone and its permit is not back yet. -/
  | releasing (outcome : InboxOutcome)
  | finished (outcome : InboxOutcome)

/-- One `GET` of an inbox. -/
structure Waiter where
  credential : Credential
  limit : Nat
  waitSeconds : Nat
  state : Waiting

structure Polling where
  relay : Relay
  registry : NotificationRegistry
  /-- Whom the worker has still to notify of the send it committed. -/
  due : Option MembershipId
  waiters : List Waiter

/-- The steps of an inbox handler. -/
inductive InboxAction where
  | preflight
  | subscribe
  | query
  | answer
  | changed
  /-- The deadline of the request's own wait. -/
  | elapse
  | shutdown
  /-- The handler is dropped: the client went away, or the request took too long. -/
  | cancel
  | drop
  | release

inductive PollingStep where
  | relay (l : RelayStep)
  | notify
  | request (credential : Credential) (limit waitSeconds : Nat)
  | handle (waiter : Nat) (action : InboxAction)

/-- What an inbox query came back with, if it did. -/
def Stage.inboxAnswer : Stage → Option InboxOutcome
  | .inFlight | .admitted | .awaiting => none
  | .returned (.ok (.page page)) => some (some (.ok page))
  | .returned (.ok _) => none
  | .returned (.error e) => some (some (.error e.apiFailure))
  | .rejected code => some (some (.error code))
  | .timedOut | .dropped => some none

/-- Whom a reply is a send to. -/
def Thread.recipient : Thread → Option MembershipId
  | .replying _ (.ok (.sent outcome)) => some outcome.message.message.semantics.recipient
  | _ => none

namespace Polling

def fresh (capacity : Nat) : Polling where
  relay := Relay.fresh capacity
  registry := .bounded
  due := none
  waiters := []

def answerOf (p : Polling) (call : Nat) : Option InboxOutcome :=
  (p.relay.calls[call]?).bind fun c => c.stage.inboxAnswer

section Step

variable [Sha256]

/-- What an action makes of its handler and of the rest. -/
def handle (p : Polling) (w : Waiter) : InboxAction → Option (Waiting × Polling)
  | .preflight =>
    match w.state with
    | .preflight call =>
      (p.answerOf call).map fun
        | some (.ok page) =>
          if page.pendingCount = 0 ∧ 0 < w.waitSeconds then
            match p.registry.tryAcquire with
            | some registry =>
              (.permitted page.recipientMembership, { p with registry := registry })
            | none => (.finished (some (.error .rateLimited)), p)
          else (.finished (some (.ok page)), p)
        | outcome => (.finished outcome, p)
    | _ => none
  | .subscribe =>
    match w.state with
    | .permitted member =>
      some (.subscribed (p.registry.subscribe member).1,
        { p with registry := (p.registry.subscribe member).2 })
    | _ => none
  | .query =>
    match w.state with
    | .subscribed sub =>
      (p.relay.step (.issue (.pending w.credential w.limit))).map fun relay =>
        (.querying sub p.relay.calls.length, { p with relay := relay })
    | _ => none
  | .answer =>
    match w.state with
    | .querying sub call =>
      (p.answerOf call).map fun
        | some (.ok page) =>
          if page.pendingCount = 0 then (.parked sub page, p)
          else (.leaving sub (some (.ok page)), p)
        | outcome => (.leaving sub outcome, p)
    | _ => none
  | .changed =>
    match w.state with
    | .parked sub _ =>
      match p.registry.changed sub with
      | .ready => some (.subscribed (p.registry.observe sub), p)
      | .closed => some (.leaving sub (some (.error .databaseBusy)), p)
      | .pending => none
    | _ => none
  | .elapse =>
    match w.state with
    | .parked sub page => some (.leaving sub (some (.ok page)), p)
    | _ => none
  | .shutdown =>
    match w.state with
    | .parked sub _ => some (.leaving sub (some (.error .databaseBusy)), p)
    | _ => none
  | .cancel =>
    match w.state with
    | .parked sub _ => some (.leaving sub none, p)
    | _ => none
  | .drop =>
    match w.state with
    | .leaving sub outcome => some (.releasing outcome, { p with registry := p.registry.drop sub })
    | _ => none
  | .release =>
    match w.state with
    | .releasing outcome => some (.finished outcome, { p with registry := p.registry.release })
    | _ => none

def step (p : Polling) : PollingStep → Option Polling
  | .relay (.execute now generated) =>
    (p.relay.step (.execute now generated)).map fun relay =>
      { p with relay := relay, due := relay.thread.recipient }
  | .relay .reply =>
    -- the worker replies to a send after it has notified
    if p.due = none then (p.relay.step .reply).map fun relay => { p with relay := relay }
    else none
  | .relay .restart =>
    (p.relay.step .restart).map fun relay => ⟨relay, .bounded, none, []⟩
  | .relay l => (p.relay.step l).map fun relay => { p with relay := relay }
  | .notify => p.due.map fun member =>
    { p with registry := p.registry.notify member, due := none }
  | .request credential limit waitSeconds =>
    if (1 ≤ limit ∧ limit ≤ 100) ∧ waitSeconds ≤ 30 then
      (p.relay.step (.issue (.pending credential limit))).map fun relay =>
        { p with
          relay := relay
          waiters :=
            p.waiters ++ [⟨credential, limit, waitSeconds, .preflight p.relay.calls.length⟩] }
    else
      some { p with
        waiters := p.waiters ++
          [⟨credential, limit, waitSeconds, .finished (some (.error .invalidRequest))⟩] }
  | .handle w action =>
    (p.waiters[w]?).bind fun waiter =>
      (p.handle waiter action).map fun (state, q) =>
        { q with waiters := p.waiters.set w { waiter with state := state } }

end Step

end Polling

/-- The relay, its registry and its inbox handlers as a transition system. -/
def pollingLts [Sha256] : Lts Polling PollingStep :=
  .ofStep (fun p => ∃ capacity, p = Polling.fresh capacity) Polling.step

/-! ## What a handler holds -/

namespace Waiting

/-- The subscription of a handler, until it is dropped. -/
def subscription : Waiting → Option NotificationSubscription
  | .subscribed sub | .querying sub _ | .parked sub _ | .leaving sub _ => some sub
  | _ => none

def holdsPermit : Waiting → Bool
  | .preflight _ | .finished _ => false
  | _ => true

/-- The query a handler waits for. -/
def call : Waiting → Option Nat
  | .preflight call | .querying _ call => some call
  | _ => none

/-- The membership a handler found its credential to be. -/
def member : Waiting → Option MembershipId
  | .permitted member => some member
  | .subscribed sub | .querying sub _ | .parked sub _ => some sub.key
  | _ => none

/-- The last query of the handler was answered with an empty page. -/
def Settled (r : Relay) : Waiting → NotificationSubscription → Prop
  | .parked sub _, sub' => sub = sub'
  | .querying sub call, sub' => sub = sub'
      ∧ ∃ page, r.Answered call (.ok (.page page)) ∧ page.pendingCount = 0
  | _, _ => False

theorem Settled.subscription {r : Relay} {state : Waiting} {sub : NotificationSubscription}
    (h : state.Settled r sub) : state.subscription = some sub := by
  cases state with
  | parked sub' page => exact congrArg some h
  | querying sub' call => exact congrArg some h.1
  | preflight | permitted | subscribed | leaving | releasing | finished => exact h.elim

end Waiting

namespace Polling

def subscriptions (p : Polling) : List NotificationSubscription :=
  p.waiters.filterMap fun w => w.state.subscription

/-- What is true of one handler at every moment. -/
structure WaiterOk (p : Polling) (w : Waiter) : Prop where
  called : ∀ call, w.state.call = some call →
    ∃ c, p.relay.calls[call]? = some c ∧ c.command = .pending w.credential w.limit
  seated : ∀ member, w.state.member = some member →
    ∃ i ∈ p.relay.store.instances, i.id = w.credential.instanceId ∧ i.membershipId = member
  /-- Behind an empty page nothing has arrived, or the handler's receiver has a change to see,
  or the worker is about to give it one. -/
  covered : ∀ sub, w.state.Settled p.relay sub → sub.seen = p.registry.versions sub.channel →
    p.relay.store.pendingRows sub.key = [] ∨ p.due = some sub.key

variable [Sha256]

structure Ok (p : Polling) : Prop where
  sound : p.relay.Sound
  due : ∀ member, p.due = some member → ∃ i result, p.relay.thread = .replying i result
  tracks : p.registry.Tracks p.subscriptions
  permits : p.registry.permits + p.waiters.countP (fun w => w.state.holdsPermit) = maxInboxWaiters
  waiters : ∀ w ∈ p.waiters, p.WaiterOk w

end Polling

/-! ## Steps of the relay -/

namespace Relay

variable [Sha256] {r r' : Relay}

/-- Until it replies, the worker keeps its result in hand. -/
theorem step_replying {l : RelayStep} (h : r.step l = some r') (hreply : l ≠ .reply)
    (hrestart : l ≠ .restart) {i : Nat} {result : Except RepositoryError Reply}
    (hthread : r.thread = .replying i result) : r'.thread = .replying i result := by
  cases l with
  | reply => exact absurd rfl hreply
  | restart => exact absurd rfl hrestart
  | trySend i =>
      simp only [step] at h
      split at h
      · cases h
        unfold trySend
        grind [setStage]
      · cases h
  | stopAccepting =>
      cases h
      exact hthread
  | issue | reject | arrive | receive | inspect | cancel | stop | execute | fault | panic | deliver
  | expire | deadline | disconnect | raiseShutdown | dropSender =>
      simp only [step] at h
      split at h <;> grind [setStage, setChannel]

/-- Only running a command changes the store or answers a command with success. -/
theorem step_idle {l : RelayStep} (h : r.step l = some r')
    (hl : ∀ now generated, l ≠ .execute now generated) :
    r'.store = r.store ∧ ∀ i reply, r'.Answered i (.ok reply) → r.Answered i (.ok reply) := by
  rcases step_log h with ⟨hlog, hstore⟩ | ⟨_, _, now, generated, rfl, -⟩
    | ⟨j, c, now, error, -, -, -, -, hlog, hstore⟩
  · refine ⟨hstore, fun i reply ⟨e, he, hcall, hresult⟩ => ?_⟩
    exact ⟨e, hlog ▸ he, hcall, hresult⟩
  · exact absurd rfl (hl now generated)
  · refine ⟨hstore, fun i reply ⟨e, he, hcall, hresult⟩ => ?_⟩
    rw [hlog] at he
    rcases List.mem_append.mp he with he | he
    · exact ⟨e, he, hcall, hresult⟩
    · rw [List.mem_singleton.mp he] at hresult
      cases hresult

/-- **What an answered inbox query says now.** The credential's instance is in the store, with
the membership the page names. -/
theorem Sound.page_seated (hr : r.Sound) {i : Nat} {c : Call} {credential : Credential}
    {limit : Nat} {page : InboxPage} (hc : r.calls[i]? = some c)
    (hcommand : c.command = .pending credential limit)
    (hanswer : r.Answered i (.ok (.page page))) :
    ∃ row ∈ r.store.instances, row.id = credential.instanceId
      ∧ row.membershipId = page.recipientMembership := by
  obtain ⟨e, before, after, t, t', he, hcall, hresult, hlog, -, -, hrun, hlater⟩ :=
    hr.answered_run hanswer
  obtain ⟨d, hd, hd'⟩ := hr.ranCall e he
  rw [hcall] at hd
  obtain rfl : c = d := Option.some.inj (hc.symm.trans hd)
  rcases hrun with ⟨hrun, rfl⟩ | ⟨hfault, -⟩
  · rw [← hd', hcommand] at hrun hlater
    have hcommit := hrun.symm
    simp only [Store.execute, Store.answer] at hcommit
    rcases Tx.commit_cases (authenticatedPendingPage (session credential e.now) limit) t with
      ⟨_, -, hc⟩ | ⟨page', u, hpage, hc⟩
    · rw [hc] at hcommit
      cases hcommit
    · rw [hc] at hcommit
      cases hcommit
      obtain ⟨rfl, -, row, hrow, hid, hmember⟩ := authenticatedPendingPage_eq_ok hpage
      simp only [Store.execute, Store.answer, hc] at hlater
      obtain ⟨row', hrow', hev⟩ := (steps_grows hlater).instances row hrow
      exact ⟨row', hrow', hev.id.trans hid, hev.membershipId.trans hmember⟩
  · rcases hfault with hfault | hfault <;> cases hfault

end Relay

namespace Polling

variable [Sha256] {p q : Polling} {w : Waiter}

/-! ## One handler -/

omit [Sha256] in
/-- What the others do to a handler: its query stays what it was, the store grows, and an
empty page stays covered. -/
theorem WaiterOk.frame (h : p.WaiterOk w)
    (hcalls : ∀ (call : Nat) (c : Call), p.relay.calls[call]? = some c →
      ∃ c' : Call, q.relay.calls[call]? = some c' ∧ c'.command = c.command)
    (hgrows : p.relay.store.Grows q.relay.store)
    (hcovered : ∀ sub, w.state.Settled q.relay sub →
      sub.seen = q.registry.versions sub.channel →
        q.relay.store.pendingRows sub.key = [] ∨ q.due = some sub.key) : q.WaiterOk w where
  called call hcall := by
    obtain ⟨c, hc, hcommand⟩ := h.called call hcall
    obtain ⟨c', hc', hsame⟩ := hcalls call c hc
    exact ⟨c', hc', hsame.trans hcommand⟩
  seated member hmember := by
    obtain ⟨row, hrow, hid, hkey⟩ := h.seated member hmember
    obtain ⟨row', hrow', hev⟩ := hgrows.instances row hrow
    exact ⟨row', hrow', hev.id.trans hid, hev.membershipId.trans hkey⟩
  covered := hcovered

omit [Sha256] in
theorem Settled.of_answered {r r' : Relay} {state : Waiting} {sub : NotificationSubscription}
    (h : state.Settled r' sub)
    (hanswered : ∀ i reply, r'.Answered i (.ok reply) → r.Answered i (.ok reply)) :
    state.Settled r sub := by
  cases state with
  | parked sub' page => exact h
  | querying sub' call =>
      obtain ⟨hsub, page, hpage, hempty⟩ := h
      exact ⟨hsub, page, hanswered _ _ hpage, hempty⟩
  | preflight | permitted | subscribed | leaving | releasing | finished => exact h.elim

/-- A command other than the handler's own: an empty inbox stays empty or gets a send the
worker will notify of. -/
theorem WaiterOk.executed (h : p.WaiterOk w) (hp : p.Ok) {now : UnixMillis}
    {generated : Option ResumeToken} {relay : Relay}
    (hstep : p.relay.step (.execute now generated) = some relay) :
    WaiterOk { p with relay := relay, due := relay.thread.recipient } w := by
  have hcalls : ∀ (call : Nat) (c : Call), p.relay.calls[call]? = some c →
      ∃ c' : Call, relay.calls[call]? = some c' ∧ c'.command = c.command := by
    intro call c hc
    obtain ⟨c', hc', hmoves⟩ := Relay.step_call hstep hc
    exact ⟨c', hc', hmoves.command⟩
  refine h.frame hcalls (Relay.step_grows hstep) fun sub hsettled hseen => ?_
  simp only [Relay.step] at hstep
  split at hstep
  · next i hthread =>
      obtain ⟨c, hc, rfl⟩ := Option.map_eq_some_iff.mp hstep
      have hdue : p.due = none := by
        cases hdue : p.due with
        | none => rfl
        | some member =>
            obtain ⟨j, result, hreplying⟩ := hp.due member hdue
            rw [hthread] at hreplying
            cases hreplying
      have harrival : p.relay.store.pendingRows sub.key = [] →
          (p.relay.store.execute c.command now generated).2.pendingRows sub.key = []
            ∨ (Thread.replying i (p.relay.store.execute c.command now generated).1).recipient
                = some sub.key := by
        intro hnil
        rcases Store.execute_arrival hnil c.command now generated with hkept | ⟨outcome, hsent, hto⟩
        · exact Or.inl hkept
        · right
          rw [hsent]
          exact congrArg some hto
      have hold : w.state.Settled p.relay sub → p.relay.store.pendingRows sub.key = [] := by
        intro hbefore
        rcases h.covered sub hbefore hseen with hnil | hsome
        · exact hnil
        · rw [hdue] at hsome
          cases hsome
      cases hstate : w.state with
      | parked sub' page =>
          rw [hstate] at hsettled hold
          exact harrival (hold hsettled)
      | querying sub' call =>
          rw [hstate] at hsettled hold
          obtain ⟨rfl, page, ⟨e, he, hcall, hresult⟩, hempty⟩ := hsettled
          rcases List.mem_append.mp he with he | he
          · exact harrival (hold ⟨rfl, page, ⟨e, he, hcall, hresult⟩, hempty⟩)
          -- the query itself: the page it reads is the inbox of its own membership
          · rw [List.mem_singleton.mp he] at hcall hresult
            obtain ⟨d, hd, hcommand⟩ := h.called call (by rw [hstate]; rfl)
            rw [← hcall] at hd
            obtain rfl : c = d := Option.some.inj (hc.symm.trans hd)
            obtain ⟨row, hrow, hid, hmember⟩ := h.seated sub'.key (by rw [hstate]; rfl)
            left
            simp only [hcommand, Store.execute, Store.answer] at hresult ⊢
            rcases Tx.commit_cases
                (authenticatedPendingPage (session w.credential now) w.limit) p.relay.store with
              ⟨_, -, hcommit⟩ | ⟨page', u, hpage, hcommit⟩
            · rw [hcommit] at hresult
              cases hresult
            · rw [hcommit] at hresult ⊢
              cases hresult
              obtain ⟨rfl, hcount, row', hrow', hid', hmember'⟩ :=
                authenticatedPendingPage_eq_ok hpage
              have hsame : row = row' := by
                refine Table.UniqueKey.eq p.relay.store.constraints.instanceId hrow hrow' ?_
                exact hid.trans hid'.symm
              rw [hsame, hmember'] at hmember
              rw [← hmember, ← List.length_eq_zero_iff, ← hcount, hempty]
      | preflight | permitted | subscribed | leaving | releasing | finished =>
          rw [hstate] at hsettled
          exact hsettled.elim
  · cases hstep

/-- Every other step of the relay. -/
theorem WaiterOk.relay (h : p.WaiterOk w) {l : RelayStep} {relay : Relay}
    (hstep : p.relay.step l = some relay) (hl : ∀ now generated, l ≠ .execute now generated) :
    WaiterOk { p with relay := relay } w := by
  obtain ⟨hstore, hanswered⟩ := Relay.step_idle hstep hl
  refine h.frame ?_ (Relay.step_grows hstep) fun sub hsettled hseen => ?_
  · intro call c hc
    obtain ⟨c', hc', hmoves⟩ := Relay.step_call hstep hc
    exact ⟨c', hc', hmoves.command⟩
  · show relay.store.pendingRows sub.key = [] ∨ p.due = some sub.key
    rw [hstore]
    exact h.covered sub (Settled.of_answered hsettled hanswered) hseen

omit [Sha256] in
/-- A change of the registry that moves no version the handler looks at. -/
theorem WaiterOk.registry (h : p.WaiterOk w) {registry : NotificationRegistry}
    (hversions : ∀ sub, w.state.subscription = some sub →
      registry.versions sub.channel = p.registry.versions sub.channel) :
    WaiterOk { p with registry := registry } w where
  called := h.called
  seated := h.seated
  covered sub hsettled hseen := by
    refine h.covered sub hsettled (hseen.trans ?_)
    exact hversions sub hsettled.subscription

omit [Sha256] in
/-- **Notifying**: the handlers of the recipient get a version they have not seen. -/
theorem WaiterOk.notify (h : p.WaiterOk w) (htracks : p.registry.Tracks p.subscriptions)
    (hw : w ∈ p.waiters) {member : MembershipId} (hdue : p.due = some member) :
    WaiterOk { p with registry := p.registry.notify member, due := none } w where
  called := h.called
  seated := h.seated
  covered sub hsettled hseen := by
    have hsub : sub ∈ p.subscriptions :=
      List.mem_filterMap.mpr ⟨w, hw, hsettled.subscription⟩
    replace hseen : sub.seen = (p.registry.notify member).versions sub.channel := hseen
    rw [htracks.versions_notify hsub] at hseen
    split at hseen
    · have := htracks.seen sub hsub
      omega
    · next hkey =>
        rcases h.covered sub hsettled hseen with hnil | hsome
        · exact Or.inl hnil
        · rw [hdue] at hsome
          exact absurd (Option.some.inj hsome).symm hkey

omit [Sha256] in
/-- The other handlers do not matter. -/
theorem WaiterOk.among (h : p.WaiterOk w) (waiters : List Waiter) :
    WaiterOk { p with waiters := waiters } w :=
  ⟨h.called, h.seated, h.covered⟩

omit [Sha256] in
/-- A handler that waits for nothing and has no subscription to rely on. -/
theorem waiterOk_of_idle (hcall : w.state.call = none) (hmember : w.state.member = none)
    (hsettled : ∀ r sub, ¬ w.state.Settled r sub) : p.WaiterOk w where
  called call h := by
    rw [hcall] at h
    cases h
  seated member h := by
    rw [hmember] at h
    cases h
  covered sub h := absurd h (hsettled _ sub)

/-- A query answered with a page was run with it. -/
theorem Ok.answered (hp : p.Ok) {call : Nat} {page : InboxPage}
    (h : p.answerOf call = some (some (.ok page))) : p.relay.Answered call (.ok (.page page)) := by
  obtain ⟨c, hc, hanswer⟩ := Option.bind_eq_some_iff.mp h
  have hmeans := (hp.sound.call call c hc).stage
  unfold Stage.inboxAnswer at hanswer
  split at hanswer <;> cases hanswer
  next hstage =>
    rw [hstage] at hmeans
    exact hmeans

/-! ## Steps of the whole -/

/-- A handler moves on, and the registry with it. -/
theorem Ok.set (hp : p.Ok) {i : Nat} (hw : p.waiters[i]? = some w) {state : Waiting}
    (registry : NotificationRegistry)
    (htracks : ∀ rest, p.registry.Tracks (w.state.subscription.toList ++ rest) →
      registry.Tracks (state.subscription.toList ++ rest))
    (hpermits : registry.permits + state.holdsPermit.toNat
      = p.registry.permits + w.state.holdsPermit.toNat)
    (hversions : ∀ sub ∈ p.subscriptions,
      registry.versions sub.channel = p.registry.versions sub.channel)
    (hnew : WaiterOk { p with registry := registry } { w with state := state }) :
    Ok { p with
      registry := registry
      waiters := p.waiters.set i { w with state := state } } := by
  obtain ⟨hlt, hget⟩ := List.getElem?_eq_some_iff.mp hw
  have hold : p.waiters.Perm (w :: p.waiters.eraseIdx i) := by
    rw [← hget]
    exact (List.getElem_cons_eraseIdx_perm hlt).symm
  have hset := List.set_perm_cons_eraseIdx hlt { w with state := state }
  have hcons : ∀ (v : Waiter) (rest : List Waiter),
      (v :: rest).filterMap (fun w => w.state.subscription)
        = v.state.subscription.toList ++ rest.filterMap fun w => w.state.subscription := by
    intro v rest
    cases hsub : v.state.subscription <;> simp [hsub]
  refine ⟨hp.sound, hp.due, ?_, ?_, ?_⟩
  · have hsubs : p.subscriptions.Perm _ := hold.filterMap fun w : Waiter => w.state.subscription
    rw [hcons] at hsubs
    refine (htracks _ (hp.tracks.perm hsubs)).perm ?_
    have hafter := hset.filterMap fun w : Waiter => w.state.subscription
    rw [hcons] at hafter
    exact hafter.symm
  · have hcount := hp.permits
    rw [hold.countP_eq, List.countP_cons] at hcount
    show registry.permits + _ = _
    rw [hset.countP_eq, List.countP_cons]
    cases hs : state.holdsPermit <;> cases ho : w.state.holdsPermit <;>
      simp [hs, ho] at hpermits hcount ⊢ <;> omega
  · intro v hv
    rcases List.mem_or_eq_of_mem_set hv with hv | rfl
    · exact ((hp.waiters v hv).registry fun sub hsub =>
        hversions sub (List.mem_filterMap.mpr ⟨v, hv, hsub⟩)).among _
    · exact hnew.among _

/-- A step of the relay that runs no command. -/
theorem Ok.relay (hp : p.Ok) {l : RelayStep} {relay : Relay} (hstep : p.relay.step l = some relay)
    (hexecute : ∀ now generated, l ≠ .execute now generated) (hrestart : l ≠ .restart)
    (hreply : l = .reply → p.due = none) : Ok { p with relay := relay } where
  sound := hp.sound.step hstep
  due member hdue := by
    obtain ⟨i, result, hthread⟩ := hp.due member hdue
    refine ⟨i, result, Relay.step_replying hstep (fun hl => ?_) hrestart hthread⟩
    rw [hreply hl] at hdue
    cases hdue
  tracks := hp.tracks
  permits := hp.permits
  waiters v hv := (hp.waiters v hv).relay hstep hexecute

theorem Ok.execute (hp : p.Ok) {now : UnixMillis} {generated : Option ResumeToken} {relay : Relay}
    (hstep : p.relay.step (.execute now generated) = some relay) :
    Ok { p with relay := relay, due := relay.thread.recipient } where
  sound := hp.sound.step hstep
  due member hdue := by
    replace hdue : relay.thread.recipient = some member := hdue
    unfold Thread.recipient at hdue
    split at hdue
    · next i outcome hthread => exact ⟨i, _, hthread⟩
    · cases hdue
  tracks := hp.tracks
  permits := hp.permits
  waiters v hv := (hp.waiters v hv).executed hp hstep

theorem Ok.notify (hp : p.Ok) {member : MembershipId} (hdue : p.due = some member) :
    Ok { p with registry := p.registry.notify member, due := none } where
  sound := hp.sound
  due _ h := by cases h
  tracks := hp.tracks.notify member
  permits := by
    have hsame : (p.registry.notify member).permits = p.registry.permits := by
      unfold NotificationRegistry.notify
      split <;> rfl
    show (p.registry.notify member).permits + _ = _
    rw [hsame]
    exact hp.permits
  waiters v hv := (hp.waiters v hv).notify hp.tracks hv hdue

/-- A new request, which holds nothing yet. -/
theorem Ok.arrive (hp : p.Ok) (hw : p.WaiterOk w) (hsub : w.state.subscription = none)
    (hpermit : w.state.holdsPermit = false) : Ok { p with waiters := p.waiters ++ [w] } where
  sound := hp.sound
  due := hp.due
  tracks := by
    show p.registry.Tracks ((p.waiters ++ [w]).filterMap fun w => w.state.subscription)
    have hnone : [w].filterMap (fun w => w.state.subscription) = [] := by simp [hsub]
    rw [List.filterMap_append, hnone, List.append_nil]
    exact hp.tracks
  permits := by
    show p.registry.permits + _ = _
    rw [List.countP_append, List.countP_singleton, hpermit]
    exact hp.permits
  waiters v hv := by
    rcases List.mem_append.mp hv with hv | hv
    · exact (hp.waiters v hv).among _
    · rw [List.mem_singleton.mp hv]
      exact hw.among _

/-- **Every action of a handler keeps the whole in order.** -/
theorem Ok.handle (hp : p.Ok) {i : Nat} (hw : p.waiters[i]? = some w) {action : InboxAction}
    {state : Waiting} (h : p.handle w action = some (state, q)) :
    Ok { q with waiters := p.waiters.set i { w with state := state } } := by
  have hok := hp.waiters w (List.mem_of_getElem? hw)
  -- the handler ends, or turns to leave, with what it holds
  have hidle : ∀ state' : Waiting, state'.subscription = w.state.subscription →
      state'.holdsPermit = w.state.holdsPermit → state'.call = none → state'.member = none →
        (∀ r sub, ¬ state'.Settled r sub) →
          Ok { p with waiters := p.waiters.set i { w with state := state' } } := by
    intro state' hsub hpermit hcall hmember hsettled
    refine hp.set hw p.registry (fun rest ht => ?_) ?_ (fun _ _ => rfl) ?_
    · rw [hsub]
      exact ht
    · rw [hpermit]
    · exact waiterOk_of_idle hcall hmember hsettled
  cases action with
  | preflight =>
      simp only [Polling.handle] at h
      split at h
      · next call hstate =>
          have hfinish : ∀ outcome, Ok
              { p with waiters := p.waiters.set i { w with state := .finished outcome } } :=
            fun outcome => hidle (.finished outcome) (by rw [hstate]; rfl) (by rw [hstate]; rfl) rfl rfl
              fun _ _ => id
          obtain ⟨answer, hanswer, h⟩ := Option.map_eq_some_iff.mp h
          split at h
          · next page =>
              split at h
              · split at h
                · next registry hacquire =>
                    cases h
                    unfold NotificationRegistry.tryAcquire at hacquire
                    rw [Option.ite_none_left_eq_some, Option.some.injEq] at hacquire
                    obtain ⟨hpermits, rfl⟩ := hacquire
                    refine hp.set hw _ (fun rest ht => ?_) ?_ (fun _ _ => rfl) ?_
                    · rw [hstate] at ht
                      exact ht.of_permits _
                    · rw [hstate]
                      show p.registry.permits - 1 + 1 = p.registry.permits + 0
                      omega
                    · obtain ⟨c, hc, hcommand⟩ := hok.called call (by rw [hstate]; rfl)
                      refine ⟨(fun _ h => by cases h), fun member hmember => ?_, fun _ => False.elim⟩
                      cases hmember
                      exact hp.sound.page_seated hc hcommand (hp.answered hanswer)
                · cases h
                  exact hfinish _
              · cases h
                exact hfinish _
          · cases h
            exact hfinish _
      · cases h
  | subscribe =>
      simp only [Polling.handle] at h
      split at h
      · next member hstate =>
          cases h
          have hkey : (p.registry.subscribe member).1.key = member := by
            unfold NotificationRegistry.subscribe
            split <;> rfl
          have hpermits : (p.registry.subscribe member).2.permits = p.registry.permits := by
            unfold NotificationRegistry.subscribe
            split <;> rfl
          refine hp.set hw _ (fun rest ht => ?_) ?_ (fun sub hsub => ?_) ?_
          · rw [hstate] at ht
            exact ht.subscribe member
          · rw [hpermits, hstate]
            rfl
          · exact hp.tracks.versions_subscribe hsub member
          · refine ⟨(fun _ h => by cases h), fun key hmember => ?_, fun _ => False.elim⟩
            obtain rfl : (p.registry.subscribe member).1.key = key := Option.some.inj hmember
            rw [hkey]
            exact hok.seated member (by rw [hstate]; rfl)
      · cases h
  | query =>
      simp only [Polling.handle] at h
      split at h
      · next sub hstate =>
          obtain ⟨relay, hrelay, h⟩ := Option.map_eq_some_iff.mp h
          cases h
          have hp' : Ok { p with relay := relay } :=
            hp.relay hrelay (by simp) (by simp) (by simp)
          obtain rfl := Relay.step_issue hrelay
          refine hp'.set hw p.registry (fun rest ht => ?_) ?_ (fun _ _ => rfl) ?_
          · rw [hstate] at ht
            exact ht
          · rw [hstate]
            rfl
          · constructor
            · intro call hcall
              cases hcall
              exact ⟨_, List.getElem?_concat_length, rfl⟩
            · intro key hmember
              exact hok.seated key (by rw [hstate]; exact hmember)
            · -- a query that was just made has no answer
              rintro _ ⟨rfl, page, ⟨e, he, hcall, -⟩, -⟩
              obtain ⟨c, hc, -⟩ := hp.sound.ranCall e he
              rw [hcall, List.getElem?_eq_none (le_refl _)] at hc
              cases hc
      · cases h
  | answer =>
      simp only [Polling.handle] at h
      split at h
      · next sub call hstate =>
          have hleave : ∀ outcome, Ok
              { p with waiters := p.waiters.set i { w with state := .leaving sub outcome } } :=
            fun outcome => hidle (.leaving sub outcome) (by rw [hstate]; rfl) (by rw [hstate]; rfl) rfl rfl
              fun _ _ => id
          obtain ⟨answer, hanswer, h⟩ := Option.map_eq_some_iff.mp h
          split at h
          · next page =>
              split at h
              · next hempty =>
                  cases h
                  refine hp.set hw p.registry (fun rest ht => ?_) ?_ (fun _ _ => rfl)
                    ?_
                  · rw [hstate] at ht
                    exact ht
                  · rw [hstate]
                    rfl
                  · refine ⟨(fun _ h => by cases h), fun key hmember => ?_, ?_⟩
                    · exact hok.seated key (by rw [hstate]; exact hmember)
                    · rintro _ rfl hseen
                      refine hok.covered sub ?_ hseen
                      rw [hstate]
                      exact ⟨rfl, page, hp.answered hanswer, hempty⟩
              · cases h
                exact hleave _
          · cases h
            exact hleave _
      · cases h
  | changed =>
      simp only [Polling.handle] at h
      split at h
      · next sub page hstate =>
          split at h
          · cases h
            refine hp.set hw p.registry (fun rest ht => ?_) ?_ (fun _ _ => rfl) ?_
            · rw [hstate] at ht
              exact ht.observe
            · rw [hstate]
              rfl
            · refine ⟨(fun _ h => by cases h), fun key hmember => ?_, fun _ => False.elim⟩
              exact hok.seated key (by rw [hstate]; exact hmember)
          · cases h
            exact hidle _ (by rw [hstate]; rfl) (by rw [hstate]; rfl) rfl rfl fun _ _ => id
          · cases h
      · cases h
  | elapse | shutdown | cancel =>
      simp only [Polling.handle] at h
      split at h
      · next sub page hstate =>
          cases h
          exact hidle _ (by rw [hstate]; rfl) (by rw [hstate]; rfl) rfl rfl fun _ _ => id
      · cases h
  | drop =>
      simp only [Polling.handle] at h
      split at h
      · next sub outcome hstate =>
          cases h
          refine hp.set hw _ (fun rest ht => ?_) ?_ (fun other _ => ?_) ?_
          · rw [hstate] at ht
            exact ht.drop
          · rw [hstate]
            show (p.registry.drop sub).permits + 1 = p.registry.permits + 1
            unfold NotificationRegistry.drop
            split <;> rfl
          · unfold NotificationRegistry.drop
            split <;> rfl
          · exact waiterOk_of_idle rfl rfl fun _ _ => id
      · cases h
  | release =>
      simp only [Polling.handle] at h
      split at h
      · next outcome hstate =>
          cases h
          refine hp.set hw _ (fun rest ht => ?_) ?_ (fun _ _ => rfl) ?_
          · rw [hstate] at ht
            exact ht.of_permits _
          · rw [hstate]
            rfl
          · exact waiterOk_of_idle rfl rfl fun _ _ => id
      · cases h

theorem Ok.step (hp : p.Ok) {l : PollingStep} (h : p.step l = some q) : q.Ok := by
  cases l with
  | relay l =>
      cases l with
      | execute now generated =>
          obtain ⟨relay, hrelay, rfl⟩ := Option.map_eq_some_iff.mp h
          exact hp.execute hrelay
      | reply =>
          simp only [Polling.step, Option.ite_none_right_eq_some] at h
          obtain ⟨relay, hrelay, rfl⟩ := Option.map_eq_some_iff.mp h.2
          exact hp.relay hrelay (by simp) (by simp) fun _ => h.1
      | restart =>
          -- a new process has a new registry and no handlers
          simp only [Polling.step] at h
          obtain ⟨relay, hrelay, rfl⟩ := Option.map_eq_some_iff.mp h
          exact ⟨hp.sound.step hrelay, (fun _ h => by cases h), .bounded, rfl,
            fun _ hv => absurd hv List.not_mem_nil⟩
      | issue | reject | arrive | trySend | receive | inspect | cancel | stop | fault | panic
      | deliver | expire | deadline | disconnect | stopAccepting | raiseShutdown | dropSender =>
          simp only [Polling.step] at h
          obtain ⟨relay, hrelay, rfl⟩ := Option.map_eq_some_iff.mp h
          exact hp.relay hrelay (by simp) (by simp) (by simp)
  | notify =>
      obtain ⟨member, hdue, rfl⟩ := Option.map_eq_some_iff.mp h
      exact hp.notify hdue
  | request credential limit waitSeconds =>
      simp only [Polling.step] at h
      split at h
      · obtain ⟨relay, hrelay, rfl⟩ := Option.map_eq_some_iff.mp h
        have hp' : Ok { p with relay := relay } := hp.relay hrelay (by simp) (by simp) (by simp)
        obtain rfl := Relay.step_issue hrelay
        refine hp'.arrive ⟨?_, (fun _ h => by cases h), fun _ => False.elim⟩ rfl rfl
        intro call hcall
        cases hcall
        exact ⟨_, List.getElem?_concat_length, rfl⟩
      · cases h
        exact hp.arrive (waiterOk_of_idle rfl rfl fun _ _ => id) rfl rfl
  | handle w action =>
      obtain ⟨waiter, hw, h⟩ := Option.bind_eq_some_iff.mp h
      obtain ⟨⟨state, q⟩, hq, rfl⟩ := Option.map_eq_some_iff.mp h
      exact hp.handle hw hq

end Polling

section Theorem

variable [Sha256] {p : Polling}

theorem reach_pollingOk {ok : Polling → PollingStep → Prop} (h : pollingLts.Reach ok p) : p.Ok := by
  refine h.invariant ?_ fun _ _ _ hp _ hstep => hp.step hstep
  rintro _ ⟨capacity, rfl⟩
  exact ⟨@Relay.reach_sound _ _ Lts.always ⟨_, ⟨capacity, rfl⟩, .refl _⟩,
    (fun _ h => by cases h), .bounded, rfl, fun _ hw => absurd hw List.not_mem_nil⟩

/-- **Long polling loses no wake-up.** A handler that is parked with nothing to see has an
empty inbox whenever the worker has replied to all it ran; and the registry is exactly the
subscriptions that are alive. -/
theorem long_polling_loses_no_wakeup (h : pollingLts.Reach Lts.always p) :
    (∀ w ∈ p.waiters, ∀ sub page, w.state = .parked sub page →
        p.registry.changed sub = .pending →
          (∀ i result, p.relay.thread ≠ .replying i result) →
            p.relay.store.pendingRows sub.key = [])
      ∧ (∀ member, (p.registry.entries member).isSome = true
          ↔ ∃ sub ∈ p.subscriptions, sub.key = member)
      ∧ (∀ member entry, p.registry.entries member = some entry →
          entry.registrations = p.subscriptions.countP (·.key = member))
      ∧ (∀ sub ∈ p.subscriptions, p.registry.Attached sub ∧ p.registry.changed sub ≠ .closed)
      ∧ p.subscriptions.length ≤ maxInboxWaiters := by
  have hp := reach_pollingOk h
  refine ⟨?_, hp.tracks.entry_iff, fun member entry he => (hp.tracks.counted member entry he).1,
    fun sub hsub => ⟨hp.tracks.attached sub hsub, hp.tracks.changed_ne_closed hsub⟩, ?_⟩
  · intro w hw sub page hstate hpending hthread
    have hseen : sub.seen = p.registry.versions sub.channel := by
      by_contra hne
      rw [NotificationRegistry.changed, if_pos hne] at hpending
      cases hpending
    rcases (hp.waiters w hw).covered sub (by rw [hstate]; rfl) hseen with hnil | hdue
    · exact hnil
    · obtain ⟨i, result, hreplying⟩ := hp.due _ hdue
      exact absurd hreplying (hthread i result)
  · -- every subscription has its permit
    have hpermits := hp.permits
    have hle : p.subscriptions.length ≤ p.waiters.countP (fun w => w.state.holdsPermit) := by
      rw [Polling.subscriptions, List.length_filterMap_eq_countP]
      refine List.countP_mono_left fun w _ hsome => ?_
      cases hstate : w.state <;> simp [hstate, Waiting.subscription, Waiting.holdsPermit] at hsome ⊢
    omega

end Theorem

namespace Sample

/-- A call runs and is answered, from its arrival on. -/
def pollServed (call : Nat) (now : UnixMillis) (token : Option ResumeToken) : List PollingStep :=
  [.relay (.arrive call), .relay (.trySend call), .relay .receive, .relay .inspect,
    .relay (.execute now token), .relay .reply, .relay (.deliver call)]

/-- Alice joins `alpha` and asks for her empty inbox, until her handler is parked. -/
def parking : List PollingStep :=
  let request := joinAlpha aliceName aliceAgent alice aliceInstance
    (instant 100)
  let join : WorkerJoin :=
    { membership := request.membership, instanceId := request.instanceId, mode := request.mode,
      clientKind := request.clientKind, hostname := request.hostname,
      availability := request.availability, availabilitySource := request.availabilitySource,
      leasePolicy := request.leasePolicy }
  [.relay (.issue (.join join))] ++ pollServed 0 (instant 100) (some aliceToken)
    ++ [.request ⟨aliceInstance, aliceToken⟩ 10 30] ++ pollServed 1 (instant 110) none
    ++ [.handle 0 .preflight, .handle 0 .subscribe, .handle 0 .query]
    ++ pollServed 2 (instant 120) none ++ [.handle 0 .answer]

/-- A handler parked for Alice under an idle worker. -/
def parkedIdle (p : Polling) (w : Waiter) : Bool :=
  match w.state, p.relay.thread with
  | .parked sub _, .idle => decide (sub.key = alice ∧ p.registry.changed sub = .pending)
  | _, _ => false

end Sample

open Sample in
/-- Alice's handler is parked, and her inbox is empty. -/
theorem long_polling_loses_no_wakeup_alice :
    ∃ p, pollingLts.Reach Lts.always p ∧ p.subscriptions.map (·.key) = [alice]
      ∧ p.relay.store.pendingRows alice = [] := by
  have hrun : (Lts.follow Polling.step Lts.always (Polling.fresh 4) parking).any
      (fun p => decide (p.subscriptions.map (·.key) = [alice])
        && p.waiters.any (parkedIdle p)) = true := by
    decide
  obtain ⟨p, hp, hcheck⟩ := Lts.exists_steps_of_follow parking hrun
  rw [Bool.and_eq_true] at hcheck
  have hreach : pollingLts.Reach Lts.always p := ⟨_, ⟨4, rfl⟩, hp⟩
  refine ⟨p, hreach, of_decide_eq_true hcheck.1, ?_⟩
  obtain ⟨w, hw, hw'⟩ := List.any_eq_true.mp hcheck.2
  unfold parkedIdle at hw'
  split at hw'
  · next sub page hstate hthread =>
      obtain ⟨hkey, hpending⟩ := of_decide_eq_true hw'
      rw [← hkey]
      refine (long_polling_loses_no_wakeup hreach).1 w hw sub page hstate hpending ?_
      intro i result hreplying
      rw [hthread] at hreplying
      cases hreplying
  · cases hw'

end Psst
