import Psst.Activation.Status
import Psst.Core.Identifier
import Psst.Protocol.Message
import Psst.Store.Run

/-!
# From an inbox to a wake

Both activation sources, the one over a client session and the one of the Codex bootstrap, turn
an inbox response into wake metadata. The wake type checks the identifiers and the count again,
with limits of its own.
-/

namespace Psst

/-! ## The two sources -/

inductive ObservationFailure where
  | retryable
  | permanent
  deriving DecidableEq

/-- `wake_from_inbox` of the activation runtime. -/
def wakeFromInbox (profile squad : String) (response : InboxResponse) :
    Except ObservationFailure (Option WakeMetadata) :=
  if response.pendingCount = 0 then .ok none
  else do
    let highestPriority ← (response.highestPriority.elim (.error .permanent) .ok)
    let oldestMessageId ← (response.oldestMessageId.elim (.error .permanent) .ok)
    ((WakeMetadata.new
      ⟨profile, squad, response.pendingCount, highestPriority, oldestMessageId.val⟩).map
        some).mapError fun _ => .permanent

/-- `wake_from_inbox` of the Codex bootstrap: the arguments are taken in the call itself. -/
def Bootstrap.wakeFromInbox (profile squad : String) (response : InboxResponse) :
    Except ObservationFailure (Option WakeMetadata) :=
  if response.pendingCount = 0 then .ok none
  else
    match response.highestPriority with
    | none => .error .permanent
    | some highestPriority =>
      match response.oldestMessageId with
      | none => .error .permanent
      | some oldestMessageId =>
        match WakeMetadata.new
          ⟨profile, squad, response.pendingCount, highestPriority, oldestMessageId.val⟩ with
        | .ok wake => .ok (some wake)
        | .error _ => .error .permanent

/-! ## What the loop does with an observation -/

/-- What `run_activation` keeps between two rounds. -/
structure Activation where
  machine : ActivationMachine
  observationFailures : UInt8

inductive WakeRound where
  | again
  | waitThenAgain (delay : Duration)
  | drive (wake : WakeMetadata)
  | leave

/-- One round of `run_activation`, up to the host. -/
def Activation.observed (policy : ActivationPolicy) (a : Activation) :
    Except ObservationFailure (Option WakeMetadata) → Activation × WakeRound
  | .ok pending =>
    match a.machine.observe pending with
    | (.activate wake, machine) => (⟨machine, 0⟩, .drive wake)
    | (_, machine) => (⟨machine, 0⟩, .again)
  | .error .permanent => (⟨a.machine.block, a.observationFailures⟩, .leave)
  | .error .retryable =>
    let failures := UInt8.saturatingSucc a.observationFailures
    if policy.maximumAttempts ≤ failures then (⟨a.machine.block, failures⟩, .leave)
    else (⟨a.machine, failures⟩, .waitThenAgain (retryDelay policy failures))

/-- Mail that was read never blocks the machine. -/
theorem Activation.observed_ok_blocked (policy : ActivationPolicy) (a : Activation)
    (pending : Option WakeMetadata) :
    (a.observed policy (.ok pending)).1.machine.phase = .blocked ↔ a.machine.phase = .blocked := by
  have hmachine : (a.observed policy (.ok pending)).1.machine = (a.machine.observe pending).2 := by
    simp only [Activation.observed]
    rcases a.machine.observe pending with ⟨command, machine⟩
    cases command <;> rfl
  rw [hmachine]
  unfold ActivationMachine.observe
  -- only a quiet machine changes its phase, and it becomes pending
  split
  · exact Iff.rfl
  · exact Iff.rfl
  · exact Iff.rfl
  · rename_i hquiet
    simp [hquiet]
  · exact Iff.rfl

/-! ## Identifiers a wake accepts -/

theorem validateIdentifier_ok {value : String} {maximumBytes : Nat}
    {empty invalid : ActivationContractError} (hne : value.isEmpty = false)
    (hsize : value.utf8ByteSize ≤ maximumBytes)
    (hchars : ∀ c ∈ value.toList,
      isAsciiAlphanumeric c = true ∨ c = '-' ∨ c = '_' ∨ c = '.') :
    validateIdentifier value maximumBytes empty invalid = .ok () := by
  have hall : value.toList.all
      (fun c => isAsciiAlphanumeric c || c == '-' || c == '_' || c == '.') = true := by
    rw [List.all_eq_true]
    intro c hc
    simpa [or_assoc] using hchars c hc
  rw [validateIdentifier, hne, if_neg Bool.false_ne_true, if_neg]
  rintro (hlong | hchars)
  · omega
  · exact hchars hall

/-- A profile name is an identifier of a wake. -/
theorem validateProfileName_wake {profile : String} (h : validateProfileName profile = .ok ()) :
    validateIdentifier profile maxWakeProfileBytes .emptyProfile .invalidProfile = .ok () := by
  unfold validateProfileName at h
  split at h
  · cases h
  · rename_i hname
    simp only [not_or, not_lt, not_not] at hname
    obtain ⟨hne, hsize, hchars⟩ := hname
    apply validateIdentifier_ok (by simpa using hne) hsize
    intro c hc
    have hchar := List.all_eq_true.mp hchars c hc
    simp only [Bool.or_eq_true, beq_iff_eq] at hchar
    rcases hchar with (hchar | hchar) | hchar
    · exact Or.inl hchar
    · exact Or.inr (Or.inl hchar)
    · exact Or.inr (Or.inr (Or.inl hchar))

/-- So is a squad name. -/
theorem SquadName.wake (squad : SquadName) :
    validateIdentifier squad.val maxWakeSquadBytes .emptySquad .invalidSquad = .ok () := by
  have hrule : validRoutingName (· == '-') squad.val = true :=
    TextRule.validator_eq SquadName.rule squad
  simp only [validRoutingName, Bool.and_eq_true, List.all_eq_true, Bool.or_eq_true,
    beq_iff_eq] at hrule
  obtain ⟨⟨hfirst, -⟩, hchars⟩ := hrule
  have hempty : squad.val.isEmpty = false := by
    rw [Bool.eq_false_iff]
    intro hempty
    rw [String.isEmpty_iff.mp hempty] at hfirst
    cases hfirst
  have hsize : squad.val.utf8ByteSize ≤ 64 := TextRule.size_le SquadName.rule squad
  apply validateIdentifier_ok hempty hsize
  intro c hc
  rcases hchars c hc with (hchar | hchar) | hchar
  · exact Or.inl (isAsciiAlphanumeric_of_lowercase hchar)
  · exact Or.inl (isAsciiAlphanumeric_of_digit hchar)
  · exact Or.inr (Or.inl hchar)

/-- So is the identifier of a message. -/
theorem MessageId.wake (id : MessageId) :
    validateIdentifier id.val maxWakeMessageIdBytes .emptyOldestMessageId .invalidOldestMessageId
      = .ok () := by
  apply validateIdentifier_ok id.isEmpty_eq_false id.size_le
  intro c hc
  rcases id.chars hc with h | h | h
  · exact Or.inl h
  · exact Or.inr (Or.inl h)
  · exact Or.inr (Or.inr (Or.inl h))

/-! ## Legal mail -/

/-- The two sources turn every response into the same observation. -/
theorem Bootstrap.wakeFromInbox_eq (profile squad : String) (response : InboxResponse) :
    Bootstrap.wakeFromInbox profile squad response
      = Psst.wakeFromInbox profile squad response := by
  unfold Bootstrap.wakeFromInbox Psst.wakeFromInbox
  split
  · rfl
  · cases response.highestPriority with
    | none => rfl
    | some highestPriority =>
        cases response.oldestMessageId with
        | none => rfl
        | some oldestMessageId =>
            -- both ask for the same metadata
            dsimp only [Option.elim]
            show _ = ((WakeMetadata.new ⟨profile, squad, response.pendingCount, highestPriority,
              oldestMessageId.val⟩).map some).mapError _
            cases WakeMetadata.new ⟨profile, squad, response.pendingCount, highestPriority,
              oldestMessageId.val⟩ with
            | ok wake => rfl
            | error e => rfl

theorem wakeFromInbox_of_empty {response : InboxResponse} (h : response.pendingCount = 0)
    (profile squad : String) : wakeFromInbox profile squad response = .ok none := if_pos h

/-- A valid response with mail has a priority and an oldest message. -/
theorem InboxResponse.validate_pending {response : InboxResponse} (h : response.validate = true)
    (hpending : response.pendingCount ≠ 0) :
    ∃ priority id, response.highestPriority = some priority
      ∧ response.oldestMessageId = some id := by
  unfold InboxResponse.validate at h
  rw [if_neg hpending] at h
  simp only [Bool.and_eq_true, decide_eq_true_eq] at h
  obtain ⟨-, ⟨hmessages, hpriority⟩, holdest⟩ := h
  obtain ⟨priority, hpriority⟩ := Option.isSome_iff_exists.mp hpriority
  cases hlist : response.messages with
  | nil => simp [hlist] at hmessages
  | cons m rest =>
      rw [hlist] at holdest
      exact ⟨priority, m.id, hpriority, holdest⟩

/-- The metadata of legal mail, short of the limit on the count. -/
theorem WakeFields.check_of_mail {profile : String} (hprofile : validateProfileName profile = .ok ())
    (squad : SquadName) {count : Nat} (hpos : count ≠ 0) (hcount : count ≤ maxWakePendingCount)
    (priority : MessagePriority) (id : MessageId) :
    WakeFields.check ⟨profile, squad.val, count, priority, id.val⟩ = .ok () := by
  have hrange : ¬ (count = 0 ∨ maxWakePendingCount < count) := by omega
  unfold WakeFields.check
  rw [validateProfileName_wake hprofile, SquadName.wake squad, MessageId.wake id]
  show (if count = 0 ∨ maxWakePendingCount < count then throw _ else _) = _
  rw [if_neg hrange]

/-- Past the limit no metadata is built, whatever the rest of it is. -/
theorem WakeMetadata.new_of_excess {fields : WakeFields}
    (hcount : maxWakePendingCount < fields.pendingCount) :
    ∃ e, WakeMetadata.new fields = .error e := by
  cases hnew : WakeMetadata.new fields with
  | error e => exact ⟨e, rfl⟩
  | ok wake =>
      have hfields : wake.toWakeFields = fields := by
        unfold WakeMetadata.new at hnew
        split at hnew
        · cases hnew
          rfl
        · cases hnew
      have hrange := wake.pendingCount_range.2
      rw [hfields] at hrange
      omega

theorem wakeFromInbox_of_mail {response : InboxResponse} {profile : String} (squad : SquadName)
    (hprofile : validateProfileName profile = .ok ()) (hvalid : response.validate = true)
    (hpending : response.pendingCount ≠ 0) (hcount : response.pendingCount ≤ maxWakePendingCount) :
    ∃ wake, wakeFromInbox profile squad.val response = .ok (some wake)
      ∧ wake.profile = profile ∧ wake.squad = squad.val
      ∧ wake.pendingCount = response.pendingCount
      ∧ response.highestPriority = some wake.highestPriority
      ∧ response.oldestMessageId.map Validated.val = some wake.oldestMessageId := by
  obtain ⟨priority, id, hpriority, holdest⟩ := response.validate_pending hvalid hpending
  have hcheck := WakeFields.check_of_mail hprofile squad hpending hcount priority id
  refine ⟨⟨_, hcheck⟩, ?_, rfl, rfl, rfl, hpriority, ?_⟩
  · have hnew : WakeMetadata.new ⟨profile, squad.val, response.pendingCount, priority, id.val⟩
        = .ok ⟨_, hcheck⟩ := by
      unfold WakeMetadata.new
      split
      · rfl
      · rename_i e he
        rw [hcheck] at he
        cases he
    rw [wakeFromInbox, if_neg hpending, hpriority, holdest]
    show ((WakeMetadata.new _).map some).mapError _ = _
    rw [hnew]
    rfl
  · rw [holdest]
    rfl

theorem wakeFromInbox_of_excess {response : InboxResponse}
    (hcount : maxWakePendingCount < response.pendingCount) (profile squad : String) :
    wakeFromInbox profile squad response = .error .permanent := by
  have hpending : response.pendingCount ≠ 0 := by omega
  rw [wakeFromInbox, if_neg hpending]
  cases response.highestPriority with
  | none => rfl
  | some priority =>
      cases response.oldestMessageId with
      | none => rfl
      | some id =>
          have hnew : ∃ e, WakeMetadata.new ⟨profile, squad, response.pendingCount, priority, id.val⟩
              = .error e := WakeMetadata.new_of_excess hcount
          obtain ⟨e, he⟩ := hnew
          show ((WakeMetadata.new _).map some).mapError _ = _
          rw [he]
          rfl

/-- **Legal mail of up to a million messages yields a wake**: for a valid response, a profile name
and a squad name the two sources agree, report nothing exactly when nothing is pending, and
otherwise carry the response's count, priority and oldest message, so that the observation never
blocks the machine. Beyond that count, and only then, the observation fails for good. -/
theorem inbox_response_wakes (profile : String) (squad : SquadName) (response : InboxResponse)
    (hprofile : validateProfileName profile = .ok ()) (hvalid : response.validate = true) :
    Bootstrap.wakeFromInbox profile squad.val response
        = wakeFromInbox profile squad.val response
      ∧ (wakeFromInbox profile squad.val response = .ok none ↔ response.pendingCount = 0)
      ∧ (response.pendingCount ≠ 0 → response.pendingCount ≤ maxWakePendingCount →
        ∃ wake, wakeFromInbox profile squad.val response = .ok (some wake)
          ∧ wake.profile = profile ∧ wake.squad = squad.val
          ∧ wake.pendingCount = response.pendingCount
          ∧ response.highestPriority = some wake.highestPriority
          ∧ response.oldestMessageId.map Validated.val = some wake.oldestMessageId)
      ∧ (response.pendingCount ≤ maxWakePendingCount → ∀ policy a,
        (Activation.observed policy a
            (wakeFromInbox profile squad.val response)).1.machine.phase = .blocked
          ↔ a.machine.phase = .blocked)
      ∧ (wakeFromInbox profile squad.val response = .error .permanent
        ↔ maxWakePendingCount < response.pendingCount) := by
  have hmail := wakeFromInbox_of_mail squad hprofile hvalid
  have hempty : response.pendingCount = 0 →
      wakeFromInbox profile squad.val response = .ok none :=
    fun h => wakeFromInbox_of_empty h profile squad.val
  have hexcess : maxWakePendingCount < response.pendingCount →
      wakeFromInbox profile squad.val response = .error .permanent :=
    fun h => wakeFromInbox_of_excess h profile squad.val
  -- up to the limit every observation succeeds
  have hok : response.pendingCount ≤ maxWakePendingCount →
      ∃ pending, wakeFromInbox profile squad.val response = .ok pending := by
    intro hcount
    by_cases hpending : response.pendingCount = 0
    · exact ⟨none, hempty hpending⟩
    · obtain ⟨wake, hwake, -⟩ := hmail hpending hcount
      exact ⟨some wake, hwake⟩
  refine ⟨Bootstrap.wakeFromInbox_eq profile squad.val response, ⟨fun hnone => ?_, hempty⟩,
    hmail, fun hcount policy a => ?_, ⟨fun hpermanent => ?_, hexcess⟩⟩
  · by_contra hpending
    by_cases hcount : response.pendingCount ≤ maxWakePendingCount
    · obtain ⟨wake, hwake, -⟩ := hmail hpending hcount
      rw [hnone] at hwake
      cases hwake
    · rw [hexcess (Nat.not_le.mp hcount)] at hnone
      cases hnone
  · obtain ⟨pending, hpending⟩ := hok hcount
    rw [hpending]
    exact Activation.observed_ok_blocked policy a pending
  · by_contra hcount
    obtain ⟨pending, hpending⟩ := hok (Nat.not_lt.mp hcount)
    rw [hpermanent] at hpending
    cases hpending

namespace Sample

/-- Mail from Alice to Bob. -/
def waiting : MessageDto where
  sequence := 1
  id := messageOne
  squad := alpha
  sender := aliceName
  recipient := bobName
  body := note
  priority := .normal
  replyTo := none
  correlationId := none
  createdAt := ⟨instant 210, by decide⟩
  acknowledgedAt := none

/-- A page with one of the `count` messages that wait. -/
def waitingPage (count : Nat) : InboxResponse where
  messages := [waiting]
  pendingCount := count
  highestPriority := some .normal
  oldestMessageId := some messageOne

end Sample

open Sample in
theorem inbox_response_wakes_bob :
    ∃ wake, wakeFromInbox "bob" alpha.val (waitingPage 3) = .ok (some wake)
      ∧ wake.pendingCount = 3 := by
  obtain ⟨wake, hwake, -, -, hcount, -⟩ :=
    (inbox_response_wakes "bob" alpha (waitingPage 3) (by decide) (by decide)).2.2.1 (by decide)
      (by decide)
  exact ⟨wake, hwake, hcount⟩

open Sample in
/-- One message more than a million, a response the client accepts, stops the activation. -/
theorem crowded_inbox_blocks :
    (waitingPage 1000001).validate = true ∧ validateProfileName "bob" = .ok ()
      ∧ wakeFromInbox "bob" alpha.val (waitingPage 1000001) = .error .permanent
      ∧ Bootstrap.wakeFromInbox "bob" alpha.val (waitingPage 1000001) = .error .permanent
      ∧ (Activation.observed .default ⟨quietMachine, 0⟩
          (wakeFromInbox "bob" alpha.val (waitingPage 1000001))).1.machine.phase = .blocked := by
  have hexcess : maxWakePendingCount < (waitingPage 1000001).pendingCount := by decide
  have hpermanent := wakeFromInbox_of_excess hexcess "bob" alpha.val
  refine ⟨by decide, by decide, hpermanent, ?_, ?_⟩
  · rw [Bootstrap.wakeFromInbox_eq, hpermanent]
  · rw [hpermanent]
    rfl

end Psst
