import BobbyBotique.Queue.Contracts

/-!
# Envelopes and job records

A submitted envelope, the names derived from it, and the record the stores
keep.  `sha256` and `uuid5` are taken to be free of collisions, so a digest is
represented by the text it is computed from.  The field updates below are the
ones both stores make to a record; the stores differ in what surrounds them.
-/

namespace BobbyBotique.Queue

/-- `sha256(f"{actor}:{operation_id}")`. -/
structure OperationKey where
  text : String
  deriving DecidableEq

def operationKey (actor operationId : String) : OperationKey :=
  ⟨actor ++ ":" ++ operationId⟩

/-- The key a caller gives, or the key `retry:` followed by an operation digest. -/
inductive IdempotencyKey where
  | given (text : String)
  | retry (operation : OperationKey)
  deriving DecidableEq

/-- `sha256(f"{user_id}:{idempotency_key}")`. -/
structure Identity where
  userId : Int
  idempotencyKey : IdempotencyKey
  deriving DecidableEq

/-- A job's name: `uuid5` of a submission's user and key, or of a retry operation. -/
inductive TaskId where
  | submission (userId : Int) (idempotencyKey : String)
  | operation (key : OperationKey)
  deriving DecidableEq

/-- `sha256(f"{user_id}:{key}")` for a conflict key of a user. -/
structure ConflictDigest where
  userId : Int
  key : String
  deriving DecidableEq

/-- The queued text: the JSON object of `data` and `context`, or any other text. -/
inductive Payload where
  | wrapped (data context : String)
  | text (content : String)
  deriving DecidableEq

namespace Payload

def content : Payload → String
  | wrapped data context =>
    "\x7b\"data\":" ++ data ++ ",\"context\":" ++ context ++ "\x7d"
  | text content => content

/-- The length in bytes of the encoded text. -/
def size (payload : Payload) : Nat := payload.content.utf8ByteSize

/-- What the fingerprint keeps of a payload: its data without the context. -/
inductive Fingerprinted where
  | data (data : String)
  | text (content : String)
  deriving DecidableEq

def fingerprinted : Payload → Fingerprinted
  | wrapped data _ => .data data
  | text content => .text content

end Payload

/-- `_normalized_conflicts`: sorted distinct keys, at most eight, of bounded length. -/
structure ConflictKeys where
  keys : List String
  bounded : keys.length ≤ 8 := by decide
  lengths : ∀ key ∈ keys, key ≠ "" ∧ key.length ≤ 128 := by decide
  sorted : keys.Pairwise (· < ·)

def ConflictKeys.none : ConflictKeys := ⟨[], by decide, by decide, List.Pairwise.nil⟩

instance : DecidableEq ConflictKeys := fun first second =>
  decidable_of_iff (first.keys = second.keys)
    ⟨fun same => by cases first; cases second; cases same; rfl, fun same => same ▸ rfl⟩

/-- An execution budget in seconds. -/
structure ExecutionBudget where
  seconds : Nat
  range : 1 ≤ seconds ∧ seconds ≤ 1800 := by decide
  deriving DecidableEq

structure JobEnvelope where
  taskId : TaskId
  kind : String
  lane : String
  userId : Int
  payload : Payload
  idempotencyKey : IdempotencyKey
  privacyEpoch : Option Int := none
  priority : Int := 2
  delaySeconds : Time := 0
  effectful : Bool := true
  imageWork : Bool := false
  parentTaskId : Option TaskId := none
  retryGrants : Int := 1
  conflictKeys : ConflictKeys := ConflictKeys.none
  publicSummary : PublicSummary := PublicSummary.empty
  executionTimeoutSeconds : Option ExecutionBudget := none

/-- `_identity`. -/
def JobEnvelope.identity (job : JobEnvelope) : Identity :=
  ⟨job.userId, job.idempotencyKey⟩

/-- The arguments of an operator command, as its fingerprint serialises them. -/
inductive CommandBody where
  | cancel (taskId : TaskId) (expectedRevision : Nat)
  | retry (taskId : TaskId) (expectedRevision : Nat)
  | lane (lane : Lane) (expectedRevision : Nat) (admissionPaused claimPaused : Bool)
  deriving DecidableEq

/-- The envelope fields that `_fingerprint` digests. -/
structure FingerprintBody where
  kind : String
  lane : String
  userId : Int
  payload : Payload.Fingerprinted
  idempotencyKey : IdempotencyKey
  privacyEpoch : Option Int
  priority : Int
  delaySeconds : Time
  effectful : Bool
  imageWork : Bool
  parentTaskId : Option TaskId
  retryGrants : Int
  conflictKeys : ConflictKeys
  executionTimeoutSeconds : Option ExecutionBudget
  deriving DecidableEq

inductive Fingerprint where
  | job (body : FingerprintBody)
  | command (body : CommandBody)
  deriving DecidableEq

/-- `_fingerprint`: the task id, the summary and the payload's context are left out. -/
def JobEnvelope.fingerprint (job : JobEnvelope) : Fingerprint :=
  .job
    { kind := job.kind
      lane := job.lane
      userId := job.userId
      payload := job.payload.fingerprinted
      idempotencyKey := job.idempotencyKey
      privacyEpoch := job.privacyEpoch
      priority := job.priority
      delaySeconds := job.delaySeconds
      effectful := job.effectful
      imageWork := job.imageWork
      parentTaskId := job.parentTaskId
      retryGrants := job.retryGrants
      conflictKeys := job.conflictKeys
      executionTimeoutSeconds := job.executionTimeoutSeconds }

/-- The record fields both stores keep for a job. -/
structure JobRecord where
  taskId : TaskId
  kind : String
  lane : Lane
  userId : Int
  privacyEpoch : Option Int
  priority : Int
  effectful : Bool
  imageWork : Bool
  parentTaskId : Option TaskId
  retryGrants : Int
  executionTimeoutSeconds : Option ExecutionBudget
  state : JobState
  revision : Nat
  attemptsStarted : Nat
  maxAttempts : Nat
  submittedAt : Time
  startedAt : Option Time
  finishedAt : Option Time
  notBefore : Time
  deadlineAt : Time
  queueDeadlineAt : Time
  heartbeatAt : Option Time
  reasonCode : Option String
  retryEligible : Bool
  retryPayloadAvailable : Bool
  resultSummary : PublicSummary
  payloadBytes : Nat
  sequence : Nat
  identity : Identity
  fingerprint : Fingerprint
  ownerToken : Option String
  metadataExpiresAt : Option Time
  payloadExpiresAt : Time
  finishToken : Option String

/-- The public metadata of a job. -/
structure JobSnapshot where
  taskId : TaskId
  kind : String
  lane : Lane
  state : JobState
  revision : Nat
  attemptsStarted : Nat
  maxAttempts : Nat
  submittedAt : Time
  startedAt : Option Time
  finishedAt : Option Time
  notBefore : Time
  deadlineAt : Time
  heartbeatAt : Option Time
  reasonCode : Option String
  retryEligible : Bool
  retryPayloadAvailable : Bool
  parentTaskId : Option TaskId
  resultSummary : PublicSummary

namespace JobRecord

/-- `_snapshot`. -/
def snapshot (m : JobRecord) : JobSnapshot where
  taskId := m.taskId
  kind := m.kind
  lane := m.lane
  state := m.state
  revision := m.revision
  attemptsStarted := m.attemptsStarted
  maxAttempts := m.maxAttempts
  submittedAt := m.submittedAt
  startedAt := m.startedAt
  finishedAt := m.finishedAt
  notBefore := m.notBefore
  deadlineAt := m.deadlineAt
  heartbeatAt := m.heartbeatAt
  reasonCode := m.reasonCode
  retryEligible := m.retryEligible
  retryPayloadAvailable := m.retryPayloadAvailable
  parentTaskId := m.parentTaskId
  resultSummary := m.resultSummary

/-- The record of an accepted envelope. -/
def admitted (job : JobEnvelope) (lane : Lane) (policy : QueuePolicy) (now : Time)
    (sequence : Nat) (identity : Identity) (fingerprint : Fingerprint) : JobRecord where
  taskId := job.taskId
  kind := job.kind
  lane := lane
  userId := job.userId
  privacyEpoch := job.privacyEpoch
  priority := job.priority
  effectful := job.effectful
  imageWork := job.imageWork
  parentTaskId := job.parentTaskId
  retryGrants := job.retryGrants
  executionTimeoutSeconds := job.executionTimeoutSeconds
  state := if job.delaySeconds > 0 then .delayed else .queued
  revision := 1
  attemptsStarted := 0
  maxAttempts := policy.maxAttempts
  submittedAt := now
  startedAt := none
  finishedAt := none
  notBefore := now + max 0 job.delaySeconds
  deadlineAt := now + seconds policy.maxAgeSeconds
  queueDeadlineAt := now + seconds policy.maxAgeSeconds
  heartbeatAt := none
  reasonCode := none
  retryEligible := false
  retryPayloadAvailable := false
  resultSummary := job.publicSummary
  payloadBytes := job.payload.size
  sequence := sequence
  identity := identity
  fingerprint := fingerprint
  ownerToken := none
  metadataExpiresAt := none
  payloadExpiresAt := now +
    if job.userId > 0 then min retryPayloadRetention (seconds policy.maxAgeSeconds)
    else seconds policy.maxAgeSeconds
  finishToken := none

/-- The retry flags after the payload is dropped. -/
def dropRetry (m : JobRecord) : JobRecord :=
  { m with retryEligible := false, retryPayloadAvailable := false }

/--
The end of a job.  `keep` says that the payload is retained for one retry, for
fifteen minutes; otherwise it is dropped.
-/
def terminal (m : JobRecord) (now : Time) (state : JobState) (reason : Option String)
    (keep : Bool) : JobRecord :=
  { m with
    state := state
    reasonCode := reason
    finishedAt := some now
    ownerToken := none
    metadataExpiresAt := some (now + metadataRetention)
    revision := m.revision + 1
    retryEligible := keep
    retryPayloadAvailable := keep
    payloadExpiresAt := if keep then now + retryPayloadRetention else m.payloadExpiresAt }

/-- A job whose owner was lost goes back to its lane. -/
def requeueLost (m : JobRecord) : JobRecord :=
  { m with
    state := .queued
    ownerToken := none
    revision := m.revision + 1
    deadlineAt := m.queueDeadlineAt }

/-- A delayed job whose time has come. -/
def promote (m : JobRecord) : JobRecord :=
  { m with state := .queued, revision := m.revision + 1 }

/-- The daily work of user zero gets its execution budget when it is claimed. -/
def extendDaily (m : JobRecord) (now budget : Time) : JobRecord :=
  if m.lane = .daily ∧ m.userId = 0 then
    { m with
      deadlineAt := now + budget + executionSettlementGrace
      payloadExpiresAt := now + budget + executionSettlementGrace }
  else m

/-- The default execution budget of a kind of work. -/
def defaultBudget (kind : String) : Nat := if kind.startsWith "tarot." then 1800 else 600

def start (m : JobRecord) (now : Time) (ownerToken : String) : JobRecord :=
  { m with
    state := .running
    ownerToken := some ownerToken
    startedAt := some now
    heartbeatAt := some now
    attemptsStarted := m.attemptsStarted + 1
    revision := m.revision + 1
    finishToken := none }

def beat (m : JobRecord) (now : Time) : JobRecord := { m with heartbeatAt := some now }

def summarise (m : JobRecord) (update : PublicSummary) : JobRecord :=
  { m with resultSummary := m.resultSummary.merge update }

/-- An owner's retryable failure puts the job back into its lane. -/
def requeueRetry (m : JobRecord) (now delay : Time) (reason : Option String) : JobRecord :=
  { m with
    state := if delay > 0 then .delayed else .queued
    notBefore := now + delay
    reasonCode := reason
    ownerToken := none
    revision := m.revision + 1
    deadlineAt := m.queueDeadlineAt
    payloadExpiresAt :=
      if m.userId > 0 then min m.queueDeadlineAt (m.submittedAt + retryPayloadRetention)
      else m.queueDeadlineAt }

def requestCancel (m : JobRecord) : JobRecord :=
  { m with
    state := .cancelRequested
    revision := m.revision + 1
    reasonCode := some "cancel_requested" }

/-- The owner that settled an execution is remembered until the next claim. -/
def settledBy (m : JobRecord) (ownerToken : String) : JobRecord :=
  { m with finishToken := some ownerToken }

/-- The retry grant is spent once the child is accepted. -/
def spendGrant (m : JobRecord) : JobRecord := { m with retryGrants := 0 }

/-- The lease of an owned job has run out. -/
def leaseLost (m : JobRecord) (now : Time) : Bool :=
  m.heartbeatAt.elim false fun beat => decide (beat + ownerLease ≤ now)

/-- An effectful execution that its owner did not settle. -/
def uncertain (m : JobRecord) : Bool := m.state.owned && m.effectful

end JobRecord

/-- The settings of a lane. -/
structure LaneRecord where
  revision : Nat
  admissionPaused : Bool
  claimPaused : Bool
  policy : QueuePolicy
  deriving DecidableEq

/-- The settings of a lane nobody has changed. -/
def LaneRecord.initial (policy : QueuePolicy) : LaneRecord := ⟨0, false, false, policy⟩

structure QueueAdmission where
  state : AdmissionState
  taskId : Option TaskId
  reasonCode : Option String := none
  deriving DecidableEq

end BobbyBotique.Queue
