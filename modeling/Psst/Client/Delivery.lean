import Psst.Client.Retry
import Psst.Relay.Archive
import Psst.Relay.Answer
import Psst.Store.Routing

/-!
# Sending over a lossy network

A send call of the client against a relay that runs one command at a time. A request that was
handed to the transport may be run at any later moment, also after the call has given up on it or
has returned; it may be lost; and its answer may be lost, late or any error. Other commands run in
between: the session may expire, leave or be replaced. Whatever happens, the key decides: the
requests of a call store at most one message, and a call that succeeds returns the one stored
under its key.
-/

namespace Psst

/-! ## The system -/

/-- `SendMessageRequest`; a prepared send holds one without a pin. -/
structure SendMessageRequest where
  recipientMembershipId : Option MembershipId
  recipient : MemberName
  body : MessageBody
  priority : MessagePriority
  dedupeKey : DedupeKey
  replyTo : Option MessageId
  correlationId : Option CorrelationId

/-- What the handler makes of a request, with the identifier it draws. -/
def SendMessageRequest.byName (request : SendMessageRequest) (id : MessageId) : SendByName where
  id := id
  recipient := request.recipient
  recipientMembershipId := request.recipientMembershipId
  body := request.body
  priority := request.priority
  dedupeKey := request.dedupeKey
  replyTo := request.replyTo
  correlationId := request.correlationId

/-- A request that was handed to the transport, and the relay's reply once it has run it. -/
structure Issued where
  credential : Credential
  request : SendMessageRequest
  reply : Option (Except RepositoryError Reply)

structure Delivery where
  store : Store
  call : CallState SendMessageResponse
  requests : List Issued
  /-- How many message rows the requests of this call have added. -/
  added : Nat

inductive DeliveryStep where
  | call (event : CallEvent SendMessageResponse)
  /-- The relay runs the request, with this clock reading and this message identifier. -/
  | process (request : Nat) (now : UnixMillis) (id : MessageId)
  /-- The relay runs a command of somebody else, or of another call. -/
  | other (task : Task)

section Delivery

variable [Sha256]

/-- The answer a request can be given: any failure, but a message only if the relay has run the
request and this is its reply. -/
def Issued.Answers (issued : Issued) : RequestEnd SendMessageResponse → Prop
  | .failed _ | .answered _ (.error _) => True
  | .answered status (.ok response) =>
    status = 200 ∧ response.message.validate = true
      ∧ ∃ outcome, issued.reply = some (.ok (.sent outcome))
          ∧ sendMessageHandler outcome = .ok response

/-- What a step of the client does to the list of its requests. -/
def CallEvent.issues (credential : Credential) (request : SendMessageRequest) :
    CallEvent SendMessageResponse → List Issued
  | .acquire => [⟨credential, request, none⟩]
  | _ => []

omit [Sha256] in
theorem CallEvent.eq_of_mem_issues {credential : Credential} {request : SendMessageRequest}
    {event : CallEvent SendMessageResponse} {issued : Issued}
    (h : issued ∈ event.issues credential request) : issued = ⟨credential, request, none⟩ := by
  cases event with
  | acquire => exact List.mem_singleton.mp h
  | busy => cases h
  | ended _ => cases h
  | wake => cases h
  | deadline => cases h

/-- A response ends the request it is for: the last one, every earlier one has been given up. -/
def Delivery.Admits (d : Delivery) : CallEvent SendMessageResponse → Prop
  | .ended ended => ∃ issued ∈ d.requests.getLast?, issued.Answers ended
  | _ => True

/-- The relay runs a request of the call. -/
def Delivery.process (d : Delivery) (k : Nat) (issued : Issued) (now : UnixMillis)
    (id : MessageId) : Delivery :=
  let result := d.store.execute (.send issued.credential (issued.request.byName id)) now none
  { d with
    store := result.2
    requests := d.requests.set k { issued with reply := some result.1 }
    added := d.added + (result.2.messages.length - d.store.messages.length) }

/-- One step of the client, of the relay or of somebody else. -/
inductive Delivery.Step (config : ClientConfig) (credential : Credential)
    (request : SendMessageRequest) : Delivery → DeliveryStep → Delivery → Prop where
  | call {d : Delivery} (event : CallEvent SendMessageResponse) {c : CallState SendMessageResponse}
      (hstep : d.call.step config.retry .deduplicated event = some c) (hadmits : d.Admits event) :
      Delivery.Step config credential request d (.call event)
        { d with call := c, requests := d.requests ++ event.issues credential request }
  | process {d : Delivery} {k : Nat} {issued : Issued} (now : UnixMillis) (id : MessageId)
      (hissued : d.requests[k]? = some issued) (hpending : issued.reply = none) :
      Delivery.Step config credential request d (.process k now id) (d.process k issued now id)
  | other {d : Delivery} (task : Task) :
      Delivery.Step config credential request d (.other task)
        { d with store := (d.store.execute task.command task.now task.generated).2 }

/-- A call starts on any store the relay can be in. -/
def deliveryLts (config : ClientConfig) (credential : Credential) (request : SendMessageRequest) :
    Lts Delivery DeliveryStep where
  init d := commandLts.Reach Lts.always d.store ∧ d.call = CallState.start config.retry
    ∧ d.requests = [] ∧ d.added = 0
  step := Delivery.Step config credential request

/-! ## Stored messages -/

/-- A credential of this member. -/
def Store.Vouches (s : Store) (credential : Credential) (m : MembershipRow) : Prop :=
  ∃ i, ∀ now, s.Authenticates (session credential now) i m

/-- The message of the request is stored, with this identifier and sequence number. -/
def Store.Stored (s : Store) (credential : Credential) (request : SendMessageRequest)
    (id : MessageId) (sequence : Nat) : Prop :=
  ∃ m row, s.Vouches credential m ∧ (∀ drawn, s.Repeats m (request.byName drawn) row)
    ∧ row.id = id ∧ row.sequence = sequence

variable {s t : Store} {credential : Credential} {request : SendMessageRequest}

theorem Store.Authenticates.vouches {now : UnixMillis} {i : InstanceRow} {m : MembershipRow}
    (h : s.Authenticates (session credential now) i m) : s.Vouches credential m :=
  ⟨i, fun _ => ⟨h.mem, h.id, h.member, h.memberId, h.token⟩⟩

theorem Store.Vouches.unique {m m' : MembershipRow} (h : s.Vouches credential m)
    (h' : s.Vouches credential m') : m = m' := by
  obtain ⟨i, hi⟩ := h
  obtain ⟨i', hi'⟩ := h'
  exact ((hi ⟨0, by decide⟩).unique (hi' ⟨0, by decide⟩)).2

/-- A credential stays one of the same member. -/
theorem Store.Vouches.steps {m : MembershipRow} (h : s.Vouches credential m)
    (hlater : storeLts.Steps Lts.always s t) :
    ∃ m', t.Vouches credential m' ∧ m'.id = m.id ∧ m'.squadId = m.squadId := by
  obtain ⟨i, hi⟩ := h
  have hauth := hi ⟨0, by decide⟩
  obtain ⟨i', hi', hev⟩ := (steps_grows hlater).instances i hauth.mem
  obtain ⟨m', hm', hid, hsquad, -⟩ := (steps_grows hlater).memberships m hauth.member
  refine ⟨m', ⟨i', fun now => ⟨hi', hev.id.trans hauth.id, hm', ?_, ?_⟩⟩, hid, hsquad⟩
  · rw [hid, hauth.memberId, hev.membershipId]
  · rw [hev.token]
    exact hauth.token

/-- **A stored message stays stored**, under its number. -/
theorem Store.Stored.steps {id : MessageId} {sequence : Nat}
    (h : s.Stored credential request id sequence) (hlater : storeLts.Steps Lts.always s t) :
    t.Stored credential request id sequence := by
  obtain ⟨m, row, hvouches, hrepeats, rfl, rfl⟩ := h
  obtain ⟨m', hvouches', hid, hsquad⟩ := hvouches.steps hlater
  have hold := hrepeats row.id
  obtain ⟨row', hrow', hev⟩ := steps_messagesKept hlater row hold.mem
  obtain ⟨r, hr, hrid, hrname⟩ := hold.recipient
  obtain ⟨r', hr', hrid', hrname'⟩ := steps_namesKept hlater r hr
  have hrecord := hev.record_eq
  have hsemantics : row'.semantics = row.semantics := congrArg MessageRecord.semantics hrecord
  have hrecipient : row'.recipientMembershipId = row.recipientMembershipId :=
    congrArg MessageSemantics.recipient hsemantics
  refine ⟨m', row', hvouches', fun drawn => ?_, congrArg MessageRecord.id hrecord,
    congrArg MessageRecord.sequence hrecord⟩
  exact
    { mem := hrow'
      squad := (congrArg MessageSemantics.squad hsemantics).trans (hold.squad.trans hsquad.symm)
      sender := (congrArg MessageSemantics.sender hsemantics).trans (hold.sender.trans hid.symm)
      key := (congrArg MessageRecord.dedupeKey hrecord).trans hold.key
      body := (congrArg MessageSemantics.body hsemantics).trans hold.body
      priority := (congrArg MessageSemantics.priority hsemantics).trans hold.priority
      replyTo := (congrArg MessageSemantics.replyTo hsemantics).trans hold.replyTo
      correlationId := (congrArg MessageSemantics.correlationId hsemantics).trans
        hold.correlationId
      pin := by
        rw [hrecipient]
        exact hold.pin
      recipient := ⟨r', hr', by rw [hrid', hrid, hrecipient], hrname'.trans hrname⟩ }

/-- A stored message is the only one under its key. -/
theorem Store.Stored.unique {id : MessageId} {sequence : Nat}
    (h : s.Stored credential request id sequence) {m : MembershipRow}
    (hvouches : s.Vouches credential m) :
    ∃ row, (∀ drawn, s.Repeats m (request.byName drawn) row) ∧ row.id = id
      ∧ row.sequence = sequence
      ∧ ∀ row' ∈ s.messages, row'.squadId = m.squadId → row'.senderMembershipId = m.id →
          row'.dedupeKey = request.dedupeKey → row' = row := by
  obtain ⟨m', row, hvouches', hrepeats, hid, hsequence⟩ := h
  obtain rfl := hvouches.unique hvouches'
  refine ⟨row, hrepeats, hid, hsequence, fun row' hrow' hsquad hsender hkey => ?_⟩
  have hold := hrepeats row.id
  refine s.constraints.messageDedupe.eq hrow' hold.mem ?_
  show (row'.squadId, row'.senderMembershipId, row'.dedupeKey) = _
  rw [hsquad, hsender, hkey, hold.squad, hold.sender, hold.key]
  rfl

/-! ## One request -/

/-- **What running a request does**: its message is stored, or the store is left alone. -/
theorem Store.execute_send (hreach : storeLts.Reach Lts.always s) {now : UnixMillis}
    {id : MessageId} {result : Except RepositoryError Reply}
    (hexecute : s.execute (.send credential (request.byName id)) now none = (result, t)) :
    t = s ∧ (∀ outcome, result = .ok (.sent outcome) →
        t.Stored credential request outcome.message.message.id outcome.message.message.sequence)
      ∨ t.messages.length = s.messages.length + 1
        ∧ (∀ stored number, ¬ s.Stored credential request stored number)
        ∧ ∃ outcome, result = .ok (.sent outcome)
          ∧ t.Stored credential request outcome.message.message.id
              outcome.message.message.sequence := by
  have hfst : (s.answer (authenticatedSendByName (session credential now) (request.byName id))
    .sent).1 = result := congrArg Prod.fst hexecute
  have hsnd : (s.answer (authenticatedSendByName (session credential now) (request.byName id))
    .sent).2 = t := congrArg Prod.snd hexecute
  cases result with
  | error e =>
      refine Or.inl ⟨hsnd.symm.trans (Store.answer_of_error hfst), fun outcome h => by cases h⟩
  | ok reply =>
      obtain ⟨outcome, hrun, rfl⟩ := Store.answer_eq_ok.mp hfst
      rw [hsnd] at hrun
      obtain ⟨m, row, hsends⟩ := authenticatedSendByName_eq_ok (reach_named hreach) hrun
      obtain ⟨i, hauth⟩ := hsends.authenticates
      have hlater : storeLts.Steps Lts.always s t := by
        have hstep : storeLts.Steps Lts.always s (s.exec (StoreCommand.op now none
            (.send credential (request.byName id)))) := (Lts.Steps.refl s).tail trivial rfl
        rw [← Store.execute_snd, hexecute] at hstep
        exact hstep
      obtain ⟨m', hvouches, hmid, hmsquad⟩ := hauth.vouches.steps hlater
      have hrepeats := hsends.repeats
      have hstored : t.Stored credential request outcome.message.message.id
          outcome.message.message.sequence := by
        refine ⟨m', row, hvouches, fun drawn => ?_, ?_, ?_⟩
        · exact ⟨hrepeats.mem, hrepeats.squad.trans hmsquad.symm, hrepeats.sender.trans hmid.symm,
            hrepeats.key, hrepeats.body, hrepeats.priority, hrepeats.replyTo,
            hrepeats.correlationId, hrepeats.pin, hrepeats.recipient⟩
        · rw [hsends.views.message]
          rfl
        · rw [hsends.views.message]
          rfl
      rcases hsends.writes with hsame | ⟨hnew, hmessages⟩
      · refine Or.inl ⟨hsame, fun outcome' h => ?_⟩
        cases h
        exact hstored
      · refine Or.inr ⟨by rw [hmessages, List.length_append]; rfl, fun stored number hold => ?_,
          outcome, rfl, hstored⟩
        -- a key that is stored is not free
        obtain ⟨row', hrepeats', -, -, -⟩ := hold.unique hauth.vouches
        have hold' := hrepeats' id
        have hfound : s.messageByDedupe m.squadId m.id (request.byName id).dedupeKey
            = some row' := by
          refine Store.messageByDedupe_eq_some.mpr ⟨hold'.mem, ?_⟩
          rw [hold'.squad, hold'.sender, hold'.key]
        rw [hnew] at hfound
        cases hfound

/-! ## Whole calls -/

variable {config : ClientConfig} {d d' : Delivery}

/-- What holds of a call at every moment. -/
structure Delivery.Sound (config : ClientConfig) (credential : Credential)
    (request : SendMessageRequest) (d : Delivery) : Prop where
  reach : storeLts.Reach Lts.always d.store
  counted : d.call.Counted (RetryClass.attempts config.retry .deduplicated).toNat
  length : d.requests.length = d.call.issued
  same : ∀ issued ∈ d.requests, issued.credential = credential ∧ issued.request = request
  /-- what a request was replied with is stored -/
  replied : ∀ issued ∈ d.requests, ∀ outcome, issued.reply = some (.ok (.sent outcome)) →
    d.store.Stored credential request outcome.message.message.id outcome.message.message.sequence
  /-- the first row a request adds takes the key -/
  added : d.added = 0 ∨ d.added = 1 ∧ ∃ id number, d.store.Stored credential request id number
  returned : ∀ response, d.call.phase = .returned (.ok response) →
    d.store.Stored credential request response.message.id response.message.sequence

omit [Sha256] in
/-- A call that returns a message has just been answered with it. -/
theorem CallState.step_returned {policy : RetryPolicy} {k : RetryClass}
    {c c' : CallState SendMessageResponse} {event : CallEvent SendMessageResponse}
    {response : SendMessageResponse} (hstep : c.step policy k event = some c')
    (hreturned : c'.phase = .returned (.ok response)) :
    ∃ status, event = .ended (.answered status (.ok response)) := by
  obtain ⟨phase, issued⟩ := c
  cases event with
  | ended ended =>
      cases phase with
      | waiting attempt backoff =>
          cases hstep
          rcases afterAttempt_cases (k.attempts policy) attempt backoff ended with
            ⟨result, hafter, hvalue⟩ | ⟨hafter, -⟩
          · have hresult : CallPhase.returned result = .returned (.ok response) :=
              hafter.symm.trans hreturned
            cases hresult
            obtain ⟨status, rfl⟩ := hvalue response rfl
            exact ⟨status, rfl⟩
          · have hsleeping := hafter.symm.trans hreturned
            cases hsleeping
      | ready _ _ => cases hstep
      | sleeping _ _ => cases hstep
      | returned _ => cases hstep
  | acquire =>
      cases phase <;> cases hstep
      cases hreturned
  | busy =>
      cases phase <;> cases hstep
      cases hreturned
  | wake =>
      cases phase <;> cases hstep
      cases hreturned
  | deadline => cases phase <;> cases hstep <;> cases hreturned

omit [Sha256] in
/-- Only taking a permit hands out a request. -/
theorem CallState.step_issued {policy : RetryPolicy} {k : RetryClass}
    {c c' : CallState SendMessageResponse} {event : CallEvent SendMessageResponse}
    (hstep : c.step policy k event = some c') :
    c'.issued = c.issued + (event.issues credential request).length := by
  obtain ⟨phase, issued⟩ := c
  cases event <;> cases phase <;> cases hstep <;> rfl

/-- A message a request can be answered with is stored. -/
theorem Delivery.Sound.answered (h : d.Sound config credential request) {status : Nat}
    {response : SendMessageResponse}
    (hadmits : d.Admits (.ended (.answered status (.ok response)))) :
    d.store.Stored credential request response.message.id response.message.sequence := by
  obtain ⟨issued, hlast, -, -, outcome, hreply, hhandler⟩ := hadmits
  have hstored := h.replied issued (List.mem_of_getLast? hlast) outcome hreply
  obtain ⟨dto, hdto, hresponse⟩ := Except.bind_eq_ok.mp hhandler
  cases hresponse
  obtain ⟨_, _, -, -, rfl⟩ := messageDto_eq_ok hdto
  exact hstored

theorem Delivery.Sound.call (h : d.Sound config credential request)
    {event : CallEvent SendMessageResponse} {c : CallState SendMessageResponse}
    (hstep : d.call.step config.retry .deduplicated event = some c) (hadmits : d.Admits event) :
    Delivery.Sound config credential request
      { d with call := c, requests := d.requests ++ event.issues credential request } where
  reach := h.reach
  counted := h.counted.step hstep
  length := by
    rw [List.length_append, h.length, CallState.step_issued hstep]
  same issued hissued := by
    rcases List.mem_append.mp hissued with hold | hnew
    · exact h.same issued hold
    · rw [CallEvent.eq_of_mem_issues hnew]
      exact ⟨rfl, rfl⟩
  replied issued hissued outcome hreply := by
    rcases List.mem_append.mp hissued with hold | hnew
    · exact h.replied issued hold outcome hreply
    · rw [CallEvent.eq_of_mem_issues hnew] at hreply
      cases hreply
  added := h.added
  returned response hreturned := by
    obtain ⟨status, rfl⟩ := CallState.step_returned hstep hreturned
    exact h.answered hadmits

theorem steps_execute (command : StoreCommand) (now : UnixMillis)
    (generated : Option ResumeToken) :
    storeLts.Steps Lts.always s (s.execute command now generated).2 := by
  rw [Store.execute_snd]
  exact (Lts.Steps.refl s).tail trivial rfl

theorem Delivery.Sound.other (h : d.Sound config credential request) (task : Task) :
    Delivery.Sound config credential request
      { d with store := (d.store.execute task.command task.now task.generated).2 } where
  reach := h.reach.steps (steps_execute _ _ _)
  counted := h.counted
  length := h.length
  same := h.same
  replied issued hissued outcome hreply :=
    (h.replied issued hissued outcome hreply).steps (steps_execute _ _ _)
  added := h.added.imp_right fun ⟨hone, id, number, hstored⟩ =>
    ⟨hone, id, number, hstored.steps (steps_execute _ _ _)⟩
  returned response hreturned := (h.returned response hreturned).steps (steps_execute _ _ _)

/-- **Running a request of the call** adds a row only if its key is still free. -/
theorem Delivery.Sound.process (h : d.Sound config credential request) {k : Nat} {issued : Issued}
    (hissued : d.requests[k]? = some issued) (now : UnixMillis) (id : MessageId) :
    (d.process k issued now id).Sound config credential request := by
  obtain ⟨rfl, rfl⟩ := h.same issued (List.mem_of_getElem? hissued)
  have hlater := steps_execute (s := d.store)
    (.send issued.credential (issued.request.byName id)) now none
  cases hexecute : d.store.execute (.send issued.credential (issued.request.byName id)) now none with
  | mk result t =>
  rw [hexecute] at hlater
  have hsend := Store.execute_send h.reach hexecute
  have hprocess : d.process k issued now id =
      { d with
        store := t
        requests := d.requests.set k { issued with reply := some result }
        added := d.added + (t.messages.length - d.store.messages.length) } := by
    unfold Delivery.process
    rw [hexecute]
  rw [hprocess]
  refine ⟨h.reach.steps hlater, h.counted, ?_, ?_, ?_, ?_, ?_⟩
  · exact (List.length_set ..).trans h.length
  · intro other hother
    rcases List.mem_or_eq_of_mem_set hother with hold | rfl
    · exact h.same other hold
    · exact ⟨rfl, rfl⟩
  · intro other hother outcome hreply
    rcases List.mem_or_eq_of_mem_set hother with hold | rfl
    · exact (h.replied other hold outcome hreply).steps hlater
    · cases hreply
      rcases hsend with ⟨-, hstored⟩ | ⟨-, -, outcome', hresult, hstored⟩
      · exact hstored outcome rfl
      · cases hresult
        exact hstored
  · rcases hsend with ⟨rfl, -⟩ | ⟨hone, hfree, outcome, -, hstored⟩
    · show d.added + (d.store.messages.length - d.store.messages.length) = 0 ∨ _
      rw [Nat.sub_self]
      exact h.added
    · -- the key was free, so no earlier request has added a row
      have hzero : d.added = 0 := by
        rcases h.added with hzero | ⟨-, stored, number, hold⟩
        · exact hzero
        · exact absurd hold (hfree stored number)
      refine Or.inr ⟨?_, _, _, hstored⟩
      show d.added + (t.messages.length - d.store.messages.length) = 1
      rw [hzero, hone]
      omega
  · intro response hreturned
    exact (h.returned response hreturned).steps hlater

theorem reach_delivery (haccepted : config.accepted = true)
    (h : (deliveryLts config credential request).Reach Lts.always d) :
    d.Sound config credential request := by
  refine h.invariant (P := Delivery.Sound config credential request) ?_ ?_
  · rintro ⟨store, call, requests, added⟩ ⟨hstore, rfl, rfl, rfl⟩
    exact
      { reach := commandLts_reach hstore
        counted := ⟨rfl, ClientConfig.attempts_pos haccepted .deduplicated⟩
        length := rfl
        same := fun _ hissued => by cases hissued
        replied := fun _ hissued => by cases hissued
        added := Or.inl rfl
        returned := fun _ hreturned => by cases hreturned }
  · intro d l d' hd _ hstep
    cases hstep with
    | call event hstep hadmits => exact hd.call hstep hadmits
    | process now id hissued _ => exact hd.process hissued now id
    | other task => exact hd.other task

/-- **Sends are exactly-once.** For every accepted configuration and every run: all requests of a
call carry the same credential, key and semantics; there are at most `max_attempts` of them; they
add at most one row; and a call that returns a message returns the identifier and the sequence
number of the one row stored under its key, which has the semantics of the request. A request of
a class that is never retried is handed out at most once. -/
theorem sends_exactly_once (haccepted : config.accepted = true)
    (hreach : (deliveryLts config credential request).Reach Lts.always d) :
    (∀ issued ∈ d.requests, issued.credential = credential ∧ issued.request = request)
      ∧ d.requests.length ≤ config.retry.maxAttempts.toNat
      ∧ d.added ≤ 1
      ∧ (∀ response, d.call.phase = .returned (.ok response) →
          ∃ m row, d.store.Vouches credential m
            ∧ (∀ drawn, d.store.Repeats m (request.byName drawn) row)
            ∧ row.id = response.message.id ∧ row.sequence = response.message.sequence
            ∧ ∀ row' ∈ d.store.messages, row'.squadId = m.squadId →
                row'.senderMembershipId = m.id → row'.dedupeKey = request.dedupeKey → row' = row)
      ∧ ∀ (command : StoreCommand) (α : Type) (c : CallState α), command.retryClass = .never →
          (callLts α config.retry command.retryClass).Reach Lts.always c → c.issued ≤ 1 := by
  have hsound := reach_delivery haccepted hreach
  refine ⟨hsound.same, ?_, ?_, fun response hreturned => ?_, fun command α c hnever hcall => ?_⟩
  · rw [hsound.length]
    exact hsound.counted.issued_le
  · rcases hsound.added with hzero | ⟨hone, -⟩ <;> omega
  · have hstored := hsound.returned response hreturned
    obtain ⟨m, -, hvouches, -⟩ := hstored
    obtain ⟨row, hrow⟩ := Store.Stored.unique (hsound.returned response hreturned) hvouches
    exact ⟨m, row, hvouches, hrow⟩
  · rw [hnever] at hcall
    exact (reach_counted haccepted hcall).issued_le

end Delivery

namespace Sample

def twoAttempts : ClientConfig where
  connectTimeout := .fromSecs 3
  requestTimeout := .fromSecs 10
  longPollMargin := .fromSecs 5
  retry := ⟨2, .fromMillis 50, .fromMillis 500⟩
  maxInFlight := 32

/-- A note of Alice to herself. -/
def noteRequest : SendMessageRequest where
  recipientMembershipId := none
  recipient := aliceName
  body := note
  priority := .normal
  dedupeKey := noteKey
  replyTo := none
  correlationId := none

def aliceCredential : Credential := ⟨aliceInstance, aliceToken⟩

def beforeNote : Delivery where
  store := Store.empty.perform (archiving.take 1)
  call := CallState.start twoAttempts.retry
  requests := []
  added := 0

/-- The first request is run and its answer lost; the second is run and answered. -/
def noteSent : Delivery :=
  let unsent : Issued := ⟨aliceCredential, noteRequest, none⟩
  let first := { beforeNote with
    call := ⟨.waiting 1 (.fromMillis 50), 1⟩
    requests := [unsent] }
  let run := first.process 0 unsent (instant 110) messageOne
  let second := { run with
    call := ⟨.waiting 2 (.fromMillis 100), 2⟩
    requests := run.requests ++ [unsent] }
  second.process 1 unsent (instant 120) messageTwo

/-- The answer to the second request, as the client decodes it. -/
def noteAnswer : Option SendMessageResponse :=
  match noteSent.requests.getLast?.bind Issued.reply with
  | some (.ok (.sent outcome)) => (sendMessageHandler outcome).toOption
  | _ => none

theorem noteSent_reach :
    (deliveryLts twoAttempts aliceCredential noteRequest).Reach Lts.always noteSent := by
  refine ⟨beforeNote, ⟨⟨_, rfl, steps_perform _ _⟩, rfl, rfl, rfl⟩, ?_⟩
  have hstart : (deliveryLts twoAttempts aliceCredential noteRequest).Steps Lts.always beforeNote
    beforeNote := .refl _
  have hfirst := hstart.tail trivial (Delivery.Step.call .acquire rfl trivial)
  have hrun := hfirst.tail trivial (Delivery.Step.process (k := 0) ⟨110, by decide⟩
    ⟨"msg_one", by decide⟩ rfl rfl)
  have hlost := hrun.tail trivial (Delivery.Step.call (.ended (.failed ⟨.transport, true⟩)) rfl
    ⟨_, rfl, trivial⟩)
  have hawake := hlost.tail trivial (Delivery.Step.call .wake rfl trivial)
  have hsecond := hawake.tail trivial (Delivery.Step.call .acquire rfl trivial)
  exact hsecond.tail trivial (Delivery.Step.process (k := 1) ⟨120, by decide⟩
    ⟨"msg_two", by decide⟩ rfl rfl)

theorem noteAnswer_eq_some {response : SendMessageResponse} (h : noteAnswer = some response) :
    ∃ issued ∈ noteSent.requests.getLast?, ∃ outcome,
      issued.reply = some (.ok (.sent outcome)) ∧ sendMessageHandler outcome = .ok response := by
  unfold noteAnswer at h
  split at h
  · rename_i outcome hreply
    obtain ⟨issued, hissued, hreply⟩ := Option.bind_eq_some_iff.mp hreply
    refine ⟨issued, hissued, outcome, hreply, ?_⟩
    cases hhandler : sendMessageHandler outcome with
    | ok found =>
        rw [hhandler] at h
        cases h
        rfl
    | error e =>
        rw [hhandler] at h
        cases h
  · cases h

end Sample

open Sample in
/-- Alice's note takes two attempts and is stored once. -/
theorem sends_exactly_once_note :
    ∃ d response, (deliveryLts twoAttempts aliceCredential noteRequest).Reach Lts.always d
      ∧ d.call.phase = .returned (.ok response) ∧ d.requests.length = 2 ∧ d.added ≤ 1
      ∧ ∃ row ∈ d.store.messages, row.id = response.message.id
          ∧ row.dedupeKey = noteRequest.dedupeKey := by
  have hanswer : noteAnswer.any (fun response => response.message.validate) = true := by
    decide
  obtain ⟨response, hresponse, hvalid⟩ := (Option.any_eq_true ..).mp hanswer
  obtain ⟨issued, hlast, houtcome⟩ := noteAnswer_eq_some hresponse
  have hreach := noteSent_reach.steps ((Lts.Steps.refl _).tail trivial (Delivery.Step.call
    (.ended (.answered 200 (.ok response))) rfl ⟨issued, hlast, rfl, hvalid, houtcome⟩))
  obtain ⟨-, -, hadded, hreturned, -⟩ := sends_exactly_once (by decide) hreach
  obtain ⟨m, row, -, hrepeats, hid, -⟩ := hreturned response rfl
  exact ⟨_, response, hreach, rfl, rfl, hadded, row, (hrepeats row.id).mem, hid,
    (hrepeats row.id).key⟩

end Psst
