import Psst.Lib.Lts
import Psst.Store.Authenticated

/-!
# Runs of the store

Every public operation of the store as a label, executed as one transaction: a failed
operation leaves the tables as they were. A storage fault (a busy or failing database) is
such a failure, so it adds no step that these runs do not have.
-/

namespace Psst

/-- The public operations, with every argument and the token a claim would generate. -/
inductive Op where
  | createSquad (request : CreateSquad)
  | listSquads
  | describeSquad (name : SquadName)
  | archiveSquad (name : SquadName) (archivedAt : UnixMillis)
  | join (request : JoinMembership)
  | roster (squad : SquadName) (now : UnixMillis)
  | leave (squad : SquadId) (membership : MembershipId) (leftAt : UnixMillis)
  | claimInstance (request : ClaimInstance) (generated : Option ResumeToken)
  | heartbeatInstance (request : HeartbeatInstance)
  | resumeInstance (request : ResumeInstance)
  | sendMessage (request : SendMessage)
  | pendingInbox (query : InboxQuery)
  | acknowledgeMessages (request : AcknowledgeMessages)
  | joinAndClaim (request : JoinAndClaim) (generated : Option ResumeToken)
  | authenticatedHeartbeat (session : AuthenticatedSession) (availability : Availability)
      (source : AvailabilitySource) (policy : LeasePolicy)
  | authenticatedRoster (session : AuthenticatedSession) (squad : SquadName)
  | authenticatedSend (session : AuthenticatedSession) (request : SendMessage)
  | authenticatedSendByName (session : AuthenticatedSession) (request : SendByName)
  | authenticatedPendingPage (session : AuthenticatedSession) (limit : Nat)
  | authenticatedPending (session : AuthenticatedSession) (limit : Nat)
  | authenticatedAcknowledge (session : AuthenticatedSession) (messageIds : List MessageId)
  | authenticatedTranscript (session : AuthenticatedSession) (query : TranscriptQuery)
  | authenticatedTranscriptViews (session : AuthenticatedSession) (query : TranscriptByName)
  | authenticatedLeave (session : AuthenticatedSession) (squad : SquadName)
  | authenticatedArchive (session : AuthenticatedSession) (squad : SquadId)
  | authenticatedArchiveByName (session : AuthenticatedSession) (squad : SquadName)
  | authenticatedResume (request : AuthenticatedResume)

/-- The lease policies an operation is called with. -/
def Op.policy : Op → Option LeasePolicy
  | .claimInstance request _ => some request.leasePolicy
  | .heartbeatInstance request => some request.leasePolicy
  | .resumeInstance request => some request.leasePolicy
  | .joinAndClaim request _ => some request.leasePolicy
  | .authenticatedHeartbeat _ _ _ policy => some policy
  | .authenticatedResume request => some request.policy
  | _ => none

/-- The clock reading an operation is called with, where it takes one. -/
def Op.now : Op → Option UnixMillis
  | .createSquad request => some request.createdAt
  | .listSquads => none
  | .describeSquad _ => none
  | .archiveSquad _ archivedAt => some archivedAt
  | .join request => some request.joinedAt
  | .roster _ now => some now
  | .leave _ _ leftAt => some leftAt
  | .claimInstance request _ => some request.now
  | .heartbeatInstance request => some request.now
  | .resumeInstance request => some request.now
  | .sendMessage request => some request.createdAt
  | .pendingInbox _ => none
  | .acknowledgeMessages request => some request.acknowledgedAt
  | .joinAndClaim request _ => some request.membership.joinedAt
  | .authenticatedHeartbeat session _ _ _ => some session.now
  | .authenticatedRoster session _ => some session.now
  | .authenticatedSend session _ => some session.now
  | .authenticatedSendByName session _ => some session.now
  | .authenticatedPendingPage session _ => some session.now
  | .authenticatedPending session _ => some session.now
  | .authenticatedAcknowledge session _ => some session.now
  | .authenticatedTranscript session _ => some session.now
  | .authenticatedTranscriptViews session _ => some session.now
  | .authenticatedLeave session _ => some session.now
  | .authenticatedArchive session _ => some session.now
  | .authenticatedArchiveByName session _ => some session.now
  | .authenticatedResume request => some request.now

variable [Sha256]

/-- Run one operation as a transaction and keep the tables it leaves. -/
def Store.exec (s : Store) (op : Op) : Store :=
  match op with
  | .createSquad request => (Tx.commit (createSquad request) s).2
  | .listSquads => (Tx.commit listSquads s).2
  | .describeSquad name => (Tx.commit (describeSquad name) s).2
  | .archiveSquad name archivedAt => (Tx.commit (archiveSquad name archivedAt) s).2
  | .join request => (Tx.commit (join request) s).2
  | .roster squad now => (Tx.commit (roster squad now) s).2
  | .leave squad membership leftAt => (Tx.commit (leave squad membership leftAt) s).2
  | .claimInstance request generated => (Tx.commit (claimInstance request generated) s).2
  | .heartbeatInstance request => (Tx.commit (heartbeatInstance request) s).2
  | .resumeInstance request => (Tx.commit (resumeInstance request) s).2
  | .sendMessage request => (Tx.commit (sendMessage request) s).2
  | .pendingInbox query => (Tx.commit (pendingInbox query) s).2
  | .acknowledgeMessages request => (Tx.commit (acknowledgeMessages request) s).2
  | .joinAndClaim request generated => (Tx.commit (joinAndClaim request generated) s).2
  | .authenticatedHeartbeat session availability source policy =>
    (Tx.commit (authenticatedHeartbeat session availability source policy) s).2
  | .authenticatedRoster session squad => (Tx.commit (authenticatedRoster session squad) s).2
  | .authenticatedSend session request => (Tx.commit (authenticatedSend session request) s).2
  | .authenticatedSendByName session request =>
    (Tx.commit (authenticatedSendByName session request) s).2
  | .authenticatedPendingPage session limit =>
    (Tx.commit (authenticatedPendingPage session limit) s).2
  | .authenticatedPending session limit => (Tx.commit (authenticatedPending session limit) s).2
  | .authenticatedAcknowledge session messageIds =>
    (Tx.commit (authenticatedAcknowledge session messageIds) s).2
  | .authenticatedTranscript session query =>
    (Tx.commit (authenticatedTranscript session query) s).2
  | .authenticatedTranscriptViews session query =>
    (Tx.commit (authenticatedTranscriptViews session query) s).2
  | .authenticatedLeave session squad => (Tx.commit (authenticatedLeave session squad) s).2
  | .authenticatedArchive session squad => (Tx.commit (authenticatedArchive session squad) s).2
  | .authenticatedArchiveByName session squad =>
    (Tx.commit (authenticatedArchiveByName session squad) s).2
  | .authenticatedResume request => (Tx.commit (authenticatedResume request) s).2

/-- The store as a transition system: it starts empty and runs one operation per step. -/
def storeLts : Lts Store Op where
  init s := s = Store.empty
  step s op t := t = s.exec op

/-- The state after a list of operations. -/
def Store.run (s : Store) (ops : List Op) : Store := ops.foldl Store.exec s

/-- A list of operations is a run, one step per operation. -/
theorem steps_run {ok : Store → Op → Prop} (ops : List Op) :
    ∀ s : Store, (∀ op ∈ ops, ∀ t, ok t op) → storeLts.Steps ok s (s.run ops) := by
  induction ops with
  | nil => exact fun s _ => .refl s
  | cons op ops ih =>
      intro s hok
      have hfirst : storeLts.Steps ok s (s.exec op) :=
        (Lts.Steps.refl s).tail (hok op (List.mem_cons_self ..) s) rfl
      exact hfirst.trans (ih (s.exec op) fun o ho => hok o (List.mem_cons_of_mem _ ho))

theorem reach_run {ok : Store → Op → Prop} (ops : List Op) (hok : ∀ op ∈ ops, ∀ t, ok t op) :
    storeLts.Reach ok (Store.empty.run ops) :=
  ⟨Store.empty, rfl, steps_run ops Store.empty hok⟩

/-- Every lease policy the operation is called with lasts at least a millisecond. -/
def WholeMillis (_ : Store) (op : Op) : Prop := ∀ policy ∈ op.policy, policy.AtLeastOneMilli

instance (s : Store) (op : Op) : Decidable (WholeMillis s op) :=
  inferInstanceAs (Decidable (∀ policy ∈ op.policy, policy.AtLeastOneMilli))

/-! ## A small squad

Alice and Bob join squad `alpha` under the default lease. The digest agrees with SHA-256 on
the two tokens and the one body that occur. -/

namespace Sample

def aliceToken : ResumeToken :=
  ⟨"AAAAAAAAAAAAAAAAAAAAAAAAAAAAAAAAAAAAAAAAAAA", by decide⟩

def bobToken : ResumeToken :=
  ⟨"AQEBAQEBAQEBAQEBAQEBAQEBAQEBAQEBAQEBAQEBAQE", by decide⟩

def hello : MessageBody := ⟨"hello", by decide⟩

scoped instance sha256 : Sha256 where
  digest bytes :=
    if bytes = tokenHashDomain ++ asBytes aliceToken.val then
      0x55f533017b41e93060b12354060ca4abdb2c7be80e1cd01e8f96a1140b63b235
    else if bytes = tokenHashDomain ++ asBytes bobToken.val then
      0xb4fef2f3d1d782ac3432eb7ab64896415fd9ebfdc78ac3a0af688eb6329a4913
    else if bytes = asBytes hello.val then
      0x2cf24dba5fb0a30e26e83b2ac5b9e29e1b161e5c1fa7425e73043362938b9824
    else 0

def alpha : SquadName := ⟨"alpha", by decide⟩

def alphaId : SquadId := ⟨"sqd_alpha", by decide⟩

def alice : MembershipId := ⟨"mem_alice", by decide⟩

def bob : MembershipId := ⟨"mem_bob", by decide⟩

def aliceInstance : InstanceId := ⟨"ins_alice", by decide⟩

def bobInstance : InstanceId := ⟨"ins_bob", by decide⟩

/-- A join of `alpha` under the default lease. -/
def joinAlpha (name : MemberName) (agent : AgentId) (member : MembershipId) (id : InstanceId)
    (now : UnixMillis) : JoinAndClaim where
  membership :=
    { squadName := alpha
      missionIfMissing := some ⟨"Authenticated collaboration", by decide⟩
      squadIdIfMissing := alphaId
      agentId := agent
      membershipId := member
      memberName := name
      role := ⟨"engineer", by decide⟩
      joinedAt := now }
  instanceId := id
  mode := .cooperative
  clientKind := "test"
  hostname := none
  availability := .unknown
  availabilitySource := .unknown
  leasePolicy := .default

def aliceJoins : Op :=
  .joinAndClaim (joinAlpha ⟨"alice", by decide⟩ ⟨"agt_alice", by decide⟩ alice aliceInstance
    ⟨100, by decide⟩) (some aliceToken)

def bobJoins : Op :=
  .joinAndClaim (joinAlpha ⟨"bob", by decide⟩ ⟨"agt_bob", by decide⟩ bob bobInstance
    ⟨101, by decide⟩) (some bobToken)

/-- Alice's credential, used at `now`. -/
def aliceAt (now : UnixMillis) : AuthenticatedSession := ⟨aliceInstance, aliceToken, now⟩

/-- Bob's credential, used at `now`. -/
def bobAt (now : UnixMillis) : AuthenticatedSession := ⟨bobInstance, bobToken, now⟩

/-- Alice greets Bob under the key `key-one`. -/
def greeting (id : MessageId) (now : UnixMillis) : SendMessage where
  id := id
  semantics :=
    { squad := alphaId
      sender := alice
      recipient := bob
      body := hello
      priority := .normal
      replyTo := none
      correlationId := none }
  dedupeKey := ⟨"key-one", by decide⟩
  createdAt := now

/-- An instant of the samples, in milliseconds. -/
def instant (n : Nat) : UnixMillis := ⟨n % 9223372036854775808, Nat.mod_lt _ (by decide)⟩

def aliceName : MemberName := ⟨"alice", by decide⟩

def bobName : MemberName := ⟨"bob", by decide⟩

def aliceAgent : AgentId := ⟨"agt_alice", by decide⟩

def bobAgent : AgentId := ⟨"agt_bob", by decide⟩

def collaboration : Mission := ⟨"Authenticated collaboration", by decide⟩

def engineer : Role := ⟨"engineer", by decide⟩

def messageOne : MessageId := ⟨"msg_one", by decide⟩

def messageTwo : MessageId := ⟨"msg_two", by decide⟩

def note : MessageBody := ⟨"note", by decide⟩

def noteKey : DedupeKey := ⟨"note", by decide⟩

/-- Both join, then Alice greets Bob. -/
def greeted : List Op :=
  [aliceJoins, bobJoins,
    .authenticatedSend (aliceAt ⟨110, by decide⟩)
      (greeting ⟨"msg_one", by decide⟩ ⟨110, by decide⟩)]

end Sample

end Psst
