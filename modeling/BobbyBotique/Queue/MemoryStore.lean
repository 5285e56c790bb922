import Mathlib.Data.List.Sort
import BobbyBotique.Foundation.Run
import BobbyBotique.Queue.Command

/-!
# The process-local store

`MemoryQueueStore`, command by command.  Every dictionary of the class is a
field; a record changed in place is written back under its task id.  The clock
is read once per command.
-/

namespace BobbyBotique.Queue

/-- A record of `self.jobs`. -/
structure MemoryJob extends JobRecord where
  conflictKeys : ConflictKeys
  identityAliases : List Identity

/-- A conflict registry entry: lane, user and key. -/
abbrev ConflictName := Lane × Int × String

structure MemoryQueueStore where
  jobs : Dict TaskId MemoryJob := Dict.empty
  payloads : Dict TaskId Payload := Dict.empty
  identities : Dict Identity Alias := Dict.empty
  sequence : Nat := 0
  lanes : Dict Lane LaneRecord := Dict.empty
  operations : Dict OperationKey Operation := Dict.empty
  conflicts : Dict ConflictName TaskId := Dict.empty

namespace MemoryQueueStore

/-- Write a record back. -/
def put (s : MemoryQueueStore) (m : MemoryJob) : MemoryQueueStore :=
  { s with jobs := s.jobs.set m.taskId m }

/-! ## Endings -/

/-- `_drop_payload`. -/
def dropPayload (s : MemoryQueueStore) (m : MemoryJob) : MemoryQueueStore :=
  { s with payloads := s.payloads.del m.taskId }.put { m with toJobRecord := m.dropRetry }

/-- The registry names of a record's conflict keys. -/
def conflictName (m : MemoryJob) (key : String) : ConflictName := (m.lane, m.userId, key)

/-- `_release_conflicts`. -/
def releaseConflicts (s : MemoryQueueStore) (m : MemoryJob) : MemoryQueueStore :=
  { s with
    conflicts := m.conflictKeys.keys.foldl (fun table key =>
        if table.get? (conflictName m key) = some m.taskId then
          table.del (conflictName m key)
        else table)
      s.conflicts }

/-- The aliases of an ended job expire together with its metadata. -/
def refreshAliases (s : MemoryQueueStore) (now : Time) (m : MemoryJob) : MemoryQueueStore :=
  { s with
    identities := m.identityAliases.foldl (fun table identity =>
        table.modify identity fun previous =>
          { previous with expiresAt := now + metadataRetention })
      s.identities }

/-- The payload of an ended job is retained for a retry that is safe and granted. -/
def retains (s : MemoryQueueStore) (m : MemoryJob) (safeRetry : Bool) : Bool :=
  safeRetry && decide (m.retryGrants > 0) && s.payloads.contains m.taskId

/-- `_terminal`. -/
def terminal (s : MemoryQueueStore) (now : Time) (m : MemoryJob) (state : JobState)
    (reason : Option String) (safeRetry : Bool := false) : MemoryQueueStore :=
  let ended : MemoryJob :=
    { m with toJobRecord := m.terminal now state reason (s.retains m safeRetry) }
  let released := (s.refreshAliases now m).releaseConflicts m
  if s.retains m safeRetry then released.put ended else released.dropPayload ended

/-! ## The sweep -/

/-- The first test of the sweep: the payload's own deadline. -/
def sweepPayload (s : MemoryQueueStore) (now : Time) (m : MemoryJob) : MemoryQueueStore :=
  if m.state.active then
    (s.dropPayload m).terminal now { m with toJobRecord := m.dropRetry }
      (if m.uncertain then .unknownDelivery else .expired) (some "payload_expired")
  else s.dropPayload m

/-- An owned job whose lease has run out. -/
def sweepLease (s : MemoryQueueStore) (now : Time) (m : MemoryJob) : MemoryQueueStore :=
  if m.effectful then
    s.terminal now m .unknownDelivery
      (some (if m.kind = "document_processing" then "document_storage_unconfirmed"
        else "interrupted_delivery"))
  else if m.state = .cancelRequested then
    s.terminal now m .cancelled (some "cancel_requested")
  else if m.attemptsStarted ≥ m.maxAttempts then
    s.terminal now m .failed (some "attempts_exhausted") true
  else if now ≥ m.queueDeadlineAt then
    s.terminal now m .expired (some "deadline_exceeded") true
  else
    s.put { m with toJobRecord := m.requeueLost }

/--
One record of the sweep.  A record whose payload has run out is ended or keeps
its end, so none of the later tests applies to it.
-/
def sweepJob (now : Time) (s : MemoryQueueStore) (taskId : TaskId) : MemoryQueueStore :=
  match s.jobs.get? taskId with
  | none => s
  | some m =>
    if m.metadataExpiresAt.elim false fun expiry => decide (expiry ≤ now) then
      { s with payloads := s.payloads.del m.taskId, jobs := s.jobs.del taskId }
    else if m.payloadExpiresAt ≤ now then
      s.sweepPayload now m
    else if m.state.active ∧ m.deadlineAt ≤ now then
      s.terminal now m (if m.uncertain then .unknownDelivery else .expired)
        (some "deadline_exceeded")
    else if m.state.owned ∧ m.leaseLost now then
      s.sweepLease now m
    else if m.state = .delayed ∧ m.notBefore ≤ now then
      s.put { m with toJobRecord := m.promote }
    else s

/-- The identities and operations whose retention has passed are forgotten. -/
def forget (s : MemoryQueueStore) (now : Time) : MemoryQueueStore :=
  { s with
    identities := s.identities.retain fun _ entry => decide (now < entry.expiresAt)
    operations := s.operations.retain fun _ entry => decide (now < entry.expiresAt) }

/-- `_sweep`. -/
def sweep (s : MemoryQueueStore) (now : Time) : MemoryQueueStore :=
  s.jobs.keys.foldl (sweepJob now) (s.forget now)

/-! ## Admission -/

/-- The first conflict key that an active job holds, with its owner. -/
def conflictOwner (s : MemoryQueueStore) (lane : Lane) (userId : Int) :
    List String → Option MemoryJob
  | [] => none
  | key :: rest =>
    match (s.conflicts.get? (lane, userId, key)).bind s.jobs.get? with
    | some owner => if owner.state.active then some owner else conflictOwner s lane userId rest
    | none => conflictOwner s lane userId rest

/-- The records of a lane in an active state. -/
def activeJobs (s : MemoryQueueStore) (lane : Lane) : Nat :=
  s.jobs.total fun _ m => if m.lane = lane ∧ m.state.active then 1 else 0

/-- The bytes of the payloads held for a lane. -/
def usedBytes (s : MemoryQueueStore) (lane : Lane) : Nat :=
  s.jobs.total fun _ m =>
    if m.lane = lane ∧ s.payloads.contains m.taskId then m.payloadBytes else 0

/-- `self.lanes.setdefault`. -/
def openLane (s : MemoryQueueStore) (lane : Lane) (policy : QueuePolicy) :
    LaneRecord × MemoryQueueStore :=
  match s.lanes.get? lane with
  | some record => (record, s)
  | none =>
    (.initial policy, { s with lanes := s.lanes.set lane (.initial policy) })

def rejected (reason : String) (taskId : Option TaskId := none) : QueueAdmission :=
  ⟨.rejected, taskId, some reason⟩

/-- The refusal of an admission that meets the lane's limits, if any. -/
def capacityReason (s : MemoryQueueStore) (lane : Lane) (record : LaneRecord)
    (policy : QueuePolicy) (size : Nat) (credit : Nat) : Option String :=
  if record.admissionPaused then some "admission_paused"
  else if size > policy.maxPayloadBytes then some "payload_too_large"
  else if s.activeJobs lane ≥ policy.maxJobs then some "job_capacity"
  else if (s.usedBytes lane : Int) + size - credit > policy.maxTotalPayloadBytes then
    some "byte_capacity"
  else none

/-- The writes of an accepted admission. -/
def accept (s : MemoryQueueStore) (now : Time) (job : JobEnvelope) (lane : Lane)
    (policy : QueuePolicy) : MemoryQueueStore :=
  let record : MemoryJob :=
    { JobRecord.admitted job lane policy now (s.sequence + 1) job.identity job.fingerprint with
      conflictKeys := job.conflictKeys
      identityAliases := [job.identity] }
  { s with
    sequence := s.sequence + 1
    jobs := s.jobs.set job.taskId record
    payloads := s.payloads.set job.taskId job.payload
    identities := s.identities.set job.identity
      ⟨job.taskId, job.fingerprint, now + metadataRetention⟩
    conflicts := job.conflictKeys.keys.foldl
      (fun table key => table.set (lane, job.userId, key) job.taskId) s.conflicts }

/-- The identity of a coalesced submission becomes an alias of the owner. -/
def coalesce (s : MemoryQueueStore) (now : Time) (job : JobEnvelope) (owner : MemoryJob) :
    MemoryQueueStore :=
  { s with
    jobs := s.jobs.set owner.taskId
      { owner with identityAliases := owner.identityAliases ++ [job.identity] }
    identities := s.identities.set job.identity
      ⟨owner.taskId, job.fingerprint, now + metadataRetention⟩ }

/-- The part of `_admit` after the conflict keys. -/
def admitNew (s : MemoryQueueStore) (now : Time) (job : JobEnvelope) (lane : Lane)
    (policy : QueuePolicy) (credit : Nat) : QueueAdmission × MemoryQueueStore :=
  let (record, s) := s.openLane lane policy
  let policy := policy.meet record.policy
  match s.capacityReason lane record policy job.payload.size credit with
  | some reason => (rejected reason, s)
  | none => (⟨.accepted, some job.taskId, none⟩, s.accept now job lane policy)

/-- `_admit`. -/
def admitJob (s : MemoryQueueStore) (now : Time) (job : JobEnvelope) (policy : QueuePolicy)
    (credit : Nat := 0) : QueueAdmission × MemoryQueueStore :=
  match Lane.ofName? job.lane with
  | none => (rejected "unknown_lane", s)
  | some lane =>
    let policy := boundedPolicy lane policy
    match (s.identities.get? job.identity).filter fun previous =>
        decide (now < previous.expiresAt) with
    | some previous =>
      if previous.fingerprint = job.fingerprint then
        (⟨.existing, some previous.taskId, none⟩, s)
      else (rejected "idempotency_conflict" (some previous.taskId), s)
    | none =>
      match s.conflictOwner lane job.userId job.conflictKeys.keys with
      | some owner =>
        if owner.identityAliases.length ≥ 256 then
          (rejected "idempotency_capacity", s)
        else
          (⟨.existing, some owner.taskId, some "conflict_existing"⟩, s.coalesce now job owner)
      | none => s.admitNew now job lane policy credit

/-! ## Claims and owners -/

/-- The number of jobs of a lane that an owner holds. -/
def ownedJobs (s : MemoryQueueStore) (lane : Lane) : Nat :=
  s.jobs.total fun _ m => if m.lane = lane ∧ m.state.owned then 1 else 0

/-- Some owned job does image work. -/
def imageBusy (s : MemoryQueueStore) : Bool :=
  s.jobs.values.any fun m => m.state.owned && m.imageWork

/-- The order of claims: higher priority first, then earlier admission. -/
def claimedBefore (first second : MemoryJob) : Prop :=
  second.priority < first.priority ∨
    (first.priority = second.priority ∧ first.sequence ≤ second.sequence)

instance : DecidableRel claimedBefore := fun _ _ => inferInstanceAs (Decidable (_ ∨ _ ∧ _))

/-- The queued records of a lane in the order of claims. -/
def readyJobs (s : MemoryQueueStore) (lane : Lane) : List MemoryJob :=
  (s.jobs.values.filter fun m => m.lane = lane ∧ m.state = .queued).insertionSort claimedBefore

/-- The budget of a claimed execution. -/
def executionBudget (m : JobRecord) : Time :=
  seconds (m.executionTimeoutSeconds.elim (JobRecord.defaultBudget m.kind)
    ExecutionBudget.seconds)

/-- The started record. -/
def started (m : MemoryJob) (now : Time) (ownerToken : String) : MemoryJob :=
  { m with
    toJobRecord := (m.extendDaily now (executionBudget m.toJobRecord)).start now ownerToken }

/-- The loop of `claim` over the queued records; `busy` was read before the loop. -/
def claimLoop (now : Time) (ownerToken : String) (busy : Bool) :
    MemoryQueueStore → List MemoryJob → Option MemoryJob × MemoryQueueStore
  | s, [] => (none, s)
  | s, m :: rest =>
    if m.attemptsStarted ≥ m.maxAttempts then
      claimLoop now ownerToken busy
        (s.terminal now m .failed (some "attempts_exhausted") true) rest
    else if m.imageWork && busy then
      claimLoop now ownerToken busy s rest
    else if s.payloads.contains m.taskId then
      (some (started m now ownerToken), s.put (started m now ownerToken))
    else
      claimLoop now ownerToken busy
        (s.terminal now m .expired (some "payload_expired")) rest

/-- `claim`, after the sweep. -/
def claim (s : MemoryQueueStore) (now : Time) (lane : Lane) (ownerToken : String) :
    Option MemoryJob × MemoryQueueStore :=
  if (s.lanes.get? lane).elim false LaneRecord.claimPaused then (none, s)
  else if s.ownedJobs lane ≥ laneWorkers lane then (none, s)
  else claimLoop now ownerToken s.imageBusy s (s.readyJobs lane)

/-- The record of `_owned`, nothing where it raises. -/
def owned? (s : MemoryQueueStore) (taskId : TaskId) (ownerToken : String)
    (expectedRevision : Nat) : Option MemoryJob :=
  (s.jobs.get? taskId).filter fun m =>
    m.state.owned && decide (m.ownerToken = some ownerToken) &&
      decide (m.revision = expectedRevision)

def ownerConflict : Reply := .conflict "owner_or_revision_conflict"

/-- `heartbeat`, after the sweep. -/
def heartbeat (s : MemoryQueueStore) (now : Time) (taskId : TaskId) (ownerToken : String)
    (expectedRevision : Nat) : Reply × MemoryQueueStore :=
  match s.owned? taskId ownerToken expectedRevision with
  | none => (ownerConflict, s)
  | some m =>
    (.job (some (m.beat now).snapshot), s.put { m with toJobRecord := m.beat now })

/-- `update_progress`, after the sweep. -/
def updateProgress (s : MemoryQueueStore) (taskId : TaskId) (ownerToken : String)
    (expectedRevision : Nat) (summary : Summary) : Reply × MemoryQueueStore :=
  match s.owned? taskId ownerToken expectedRevision with
  | none => (ownerConflict, s)
  | some m =>
    if m.state = .running then
      match PublicSummary.ofSummary? summary with
      | none => (.conflict "invalid_public_summary", s)
      | some clean =>
        (.job (some (m.summarise clean).snapshot),
          s.put { m with toJobRecord := m.summarise clean })
    else (.conflict "cancel_requested", s)

/-- The settlement of an owned record by its owner's result. -/
def settle (s : MemoryQueueStore) (now : Time) (m : MemoryJob) (result : JobResult)
    (delaySeconds : Time) : MemoryQueueStore :=
  if result.outcome = .unknownDelivery then
    s.terminal now m .unknownDelivery result.reasonCode
  else if m.state = .cancelRequested then
    s.terminal now m .cancelled (some "cancel_requested")
  else if result.outcome = .retryableFailure then
    if m.attemptsStarted ≥ m.maxAttempts then
      s.terminal now m .failed (some (result.reasonCode.getD "attempts_exhausted")) true
    else if now + delaySeconds ≥ m.queueDeadlineAt then
      s.terminal now m .expired (some "retry_after_deadline") true
    else
      s.put { m with toJobRecord := m.requeueRetry now delaySeconds result.reasonCode }
  else if result.outcome = .succeeded then
    s.terminal now m .succeeded result.reasonCode
  else
    s.terminal now m .failed result.reasonCode

/-- Remember the owner that settled the record. -/
def markSettled (s : MemoryQueueStore) (taskId : TaskId) (ownerToken : String) :
    MemoryQueueStore :=
  { s with
    jobs := s.jobs.modify taskId fun m => { m with toJobRecord := m.settledBy ownerToken } }

/-- `finish`, after the sweep. -/
def finish (s : MemoryQueueStore) (now : Time) (taskId : TaskId) (ownerToken : String)
    (expectedRevision : Nat) (result : JobResult) (delaySeconds : Time) :
    Reply × MemoryQueueStore :=
  match (s.jobs.get? taskId).filter fun m => decide (m.finishToken = some ownerToken) with
  | some m => (.job (some m.snapshot), s)
  | none =>
    match s.owned? taskId ownerToken expectedRevision with
    | none => (ownerConflict, s)
    | some m =>
      match PublicSummary.ofSummary? result.resultSummary with
      | none => (.conflict "invalid_public_summary", s)
      | some clean =>
        let s := (s.settle now { m with toJobRecord := m.summarise clean } result
          delaySeconds).markSettled taskId ownerToken
        (.job ((s.jobs.get? taskId).map fun m => m.snapshot), s)

/-- `load_payload`, after the sweep. -/
def loadPayload (s : MemoryQueueStore) (taskId : TaskId) (ownerToken : String) : Reply :=
  match (s.jobs.get? taskId).filter fun m =>
      decide (m.state = .running) && decide (m.ownerToken = some ownerToken) with
  | none => .conflict "payload_not_available"
  | some _ =>
    match s.payloads.get? taskId with
    | none => .conflict "payload_not_available"
    | some payload => .payload payload

/-! ## Operator commands -/

/-- The remembered operation of `_command`; an error where its arguments differ. -/
def command (s : MemoryQueueStore) (key : OperationKey) (body : CommandBody) :
    Except String (Option Target) :=
  match s.operations.get? key with
  | none => .ok none
  | some old =>
    if old.fingerprint = body then .ok (some old.target)
    else .error "operation_id_conflict"

def remember (s : MemoryQueueStore) (now : Time) (key : OperationKey) (body : CommandBody)
    (target : Target) : MemoryQueueStore :=
  { s with operations := s.operations.set key ⟨body, target, now + metadataRetention⟩ }

/-- `request_cancel`, after the sweep. -/
def requestCancel (s : MemoryQueueStore) (now : Time) (taskId : TaskId)
    (expectedRevision : Nat) (actor operationId : String) : Reply × MemoryQueueStore :=
  let key := operationKey actor operationId
  let body := CommandBody.cancel taskId expectedRevision
  match s.command key body with
  | .error reason => (.conflict reason, s)
  | .ok (some _) =>
    match s.jobs.get? taskId with
    | none => (.missing, s)
    | some m => (.job (some m.snapshot), s)
  | .ok none =>
    match (s.jobs.get? taskId).filter fun m => decide (m.revision = expectedRevision) with
    | none => (.conflict "revision_conflict", s)
    | some m =>
      let cancelled :=
        if m.state.owned then s.put { m with toJobRecord := m.requestCancel }
        else if m.state.active then
          s.terminal now m .cancelled (some "cancel_requested")
        else s
      let s := cancelled.remember now key body (.job taskId)
      (.job ((s.jobs.get? taskId).map fun m => m.snapshot), s)

/-- The envelope of a retry child. -/
def retryChild (m : MemoryJob) (key : OperationKey) (payload : Payload)
    (privacyEpoch : Option Int) : JobEnvelope where
  taskId := .operation key
  kind := m.kind
  lane := m.lane.name
  userId := m.userId
  payload := payload
  idempotencyKey := .retry key
  privacyEpoch := privacyEpoch
  priority := m.priority
  effectful := m.effectful
  imageWork := m.imageWork
  parentTaskId := some m.taskId
  retryGrants := 0
  conflictKeys := m.conflictKeys
  publicSummary := m.resultSummary
  executionTimeoutSeconds := m.executionTimeoutSeconds

/-- The record a retry may start from, with its payload. -/
def retryable? (s : MemoryQueueStore) (taskId : TaskId) (expectedRevision : Nat)
    (privacyEpoch : Option Int) : Option (MemoryJob × Payload) :=
  match s.jobs.get? taskId, s.payloads.get? taskId with
  | some m, some payload =>
    if m.revision = expectedRevision ∧ m.retryEligible ∧
        (m.state = .failed ∨ m.state = .expired) ∧ m.privacyEpoch = privacyEpoch then
      some (m, payload)
    else none
  | _, _ => none

/--
The parent gives up its grant and its payload.  A parent that the child's own
record has replaced is no longer in the table; only its payload entry is popped.
-/
def handOver (s : MemoryQueueStore) (m : MemoryJob) (replaced : Bool) : MemoryQueueStore :=
  if replaced then { s with payloads := s.payloads.del m.taskId }
  else s.dropPayload { m with toJobRecord := m.spendGrant }

/-- `retry_job`, after the sweep. -/
def retryJob (s : MemoryQueueStore) (now : Time) (taskId : TaskId) (expectedRevision : Nat)
    (actor operationId : String) (privacyEpoch : Option Int) : Reply × MemoryQueueStore :=
  let key := operationKey actor operationId
  let body := CommandBody.retry taskId expectedRevision
  match s.command key body with
  | .error reason => (.conflict reason, s)
  | .ok (some (.job target)) => (.admission ⟨.existing, some target, none⟩, s)
  | .ok (some (.lane _)) => (.missing, s)
  | .ok none =>
    match s.retryable? taskId expectedRevision privacyEpoch with
    | none => (.conflict "retry_not_available", s)
    | some (m, payload) =>
      match s.lanes.get? m.lane with
      | none => (.missing, s)
      | some lane =>
        let (admission, s) := s.admitJob now (retryChild m key payload privacyEpoch)
          lane.policy m.payloadBytes
        if admission.state = .accepted ∨ admission.state = .existing then
          match admission.taskId with
          | none => (.admission admission, s)
          | some accepted =>
            if accepted ≠ .operation key then
              (.admission admission, s.remember now key body (.job accepted))
            else
              let replaced := decide (admission.state = .accepted) &&
                decide (TaskId.operation key = taskId)
              (.admission admission, (s.handOver m replaced).remember now key body
                  (.job (.operation key)))
        else (.admission admission, s)

/-- One record of `erase_user`. -/
def eraseJob (s : MemoryQueueStore) (taskId : TaskId) : MemoryQueueStore :=
  match s.jobs.get? taskId with
  | none => s
  | some m =>
    let s := { s with jobs := s.jobs.del taskId, payloads := s.payloads.del m.taskId }
    let s := s.releaseConflicts m
    { s with identities := m.identityAliases.foldl Dict.del s.identities }

/-- The task ids of a user. -/
def userJobs (s : MemoryQueueStore) (userId : Int) : List TaskId :=
  s.jobs.keys.filter fun taskId =>
    (s.jobs.get? taskId).elim false fun m => decide (m.userId = userId)

/-- `erase_user`.  This command does not sweep. -/
def eraseUser (s : MemoryQueueStore) (userId : Int) : MemoryQueueStore :=
  let identifiers := s.userJobs userId
  let s := identifiers.foldl eraseJob s
  { s with
    operations := s.operations.retain fun _ entry =>
      match entry.target with
      | .job taskId => !identifiers.contains taskId
      | .lane _ => true }

/-- `read_lane`.  This command does not sweep. -/
def readLane (s : MemoryQueueStore) (lane : Lane) : LaneRecord × MemoryQueueStore :=
  s.openLane lane (lanePolicies lane)

/-- `set_lane_state`.  This command does not sweep. -/
def setLaneState (s : MemoryQueueStore) (now : Time) (lane : Lane) (expectedRevision : Nat)
    (admissionPaused claimPaused : Bool) (actor operationId : String) :
    Reply × MemoryQueueStore :=
  let key := operationKey actor operationId
  let body := CommandBody.lane lane expectedRevision admissionPaused claimPaused
  match s.command key body with
  | .error reason => (.conflict reason, s)
  | .ok old =>
    let (record, s) := s.readLane lane
    if old.isSome then (.lane (record.snapshot lane), s)
    else if record.revision ≠ expectedRevision then (.conflict "revision_conflict", s)
    else
      let updated : LaneRecord :=
        ⟨expectedRevision + 1, admissionPaused, claimPaused, record.policy⟩
      let s := { s with lanes := s.lanes.set lane updated }
      (.lane (updated.snapshot lane), s.remember now key body (.lane lane))

/-! ## Reads -/

/-- `read_job_by_operation`.  This command does not sweep. -/
def readJobByOperation (s : MemoryQueueStore) (now : Time) (userId : Int)
    (idempotencyKey : String) : Option JobSnapshot :=
  match s.identities.get? ⟨userId, .given idempotencyKey⟩ with
  | none => none
  | some entry =>
    if entry.expiresAt ≤ now then none
    else
      match s.jobs.get? entry.taskId with
      | none => none
      | some m =>
        if m.metadataExpiresAt.elim false fun expiry => decide (expiry ≤ now) then none
        else if m.payloadExpiresAt ≤ now ∨ s.payloads.contains entry.taskId = false then
          some m.dropRetry.snapshot
        else some m.snapshot

/-- `read_jobs_by_conflicts`.  This command does not sweep. -/
def readJobsByConflicts (s : MemoryQueueStore) (userId : Int) (lane : Lane)
    (conflictKeys : ConflictKeys) : List JobSnapshot :=
  let owners := (conflictKeys.keys.filterMap fun key =>
    s.conflicts.get? (lane, userId, key)).eraseDups
  owners.filterMap fun taskId =>
    ((s.jobs.get? taskId).filter fun m => m.state.active).map fun m => m.snapshot

/-- The records of a listing in admission order. -/
def listed (s : MemoryQueueStore) (lane : Option Lane) (state : Option JobState) :
    List MemoryJob :=
  (s.jobs.values.filter fun m =>
      (lane.elim true fun wanted => decide (m.lane = wanted)) &&
        state.elim true fun wanted => decide (m.state = wanted)).insertionSort
    fun first second => first.sequence ≤ second.sequence

/-- `list_jobs`, after the sweep. -/
def listJobs (s : MemoryQueueStore) (lane : Option Lane) (state : Option JobState)
    (cursor : Option Int) (limit : Int) : Reply :=
  if limit < 1 ∨ 100 < limit then .conflict "invalid_page_size"
  else if cursor.getD 0 < 0 then .conflict "invalid_cursor"
  else
    let records := s.listed lane state
    let offset := (cursor.getD 0).toNat
    let selected := (records.drop offset).take limit.toNat
    .page
      { items := selected.map fun m => m.snapshot
        nextCursor :=
          if records.length > offset + limit.toNat then some (offset + limit.toNat) else none }

/-! ## The commands -/

/-- The commands that sweep before they act. -/
def sweeps : Command → Bool
  | .setLaneState .. | .eraseUser .. | .readJobByOperation .. | .readJobsByConflicts ..
  | .readLane .. => false
  | _ => true

/-- The store that a command acts on. -/
def swept (s : MemoryQueueStore) (now : Time) (command : Command) : MemoryQueueStore :=
  if sweeps command then s.sweep now else s

/-- What a command does after its sweep. -/
def act (now : Time) (s : MemoryQueueStore) : Command → Reply × MemoryQueueStore
  | .admitJob job policy =>
    let (admission, s) := s.admitJob now job policy
    (.admission admission, s)
  | .claim lane ownerToken =>
    let (m, s) := s.claim now lane ownerToken
    (.claimed (m.map fun m => m.claim ownerToken), s)
  | .loadPayload taskId ownerToken => (s.loadPayload taskId ownerToken, s)
  | .heartbeat taskId ownerToken expectedRevision =>
    s.heartbeat now taskId ownerToken expectedRevision
  | .updateProgress taskId ownerToken expectedRevision summary =>
    s.updateProgress taskId ownerToken expectedRevision summary
  | .finish taskId ownerToken expectedRevision result delaySeconds =>
    s.finish now taskId ownerToken expectedRevision result delaySeconds
  | .requestCancel taskId expectedRevision actor operationId =>
    s.requestCancel now taskId expectedRevision actor operationId
  | .retryJob taskId expectedRevision actor operationId privacyEpoch =>
    s.retryJob now taskId expectedRevision actor operationId privacyEpoch
  | .sweep => (.done, s)
  | .setLaneState lane expectedRevision admissionPaused claimPaused actor operationId =>
    s.setLaneState now lane expectedRevision admissionPaused claimPaused actor operationId
  | .eraseUser userId _ => (.erased 0, s.eraseUser userId)
  | .readJob taskId => (.job ((s.jobs.get? taskId).map fun m => m.snapshot), s)
  | .privateRecord taskId => (.record ((s.jobs.get? taskId).map fun m => m.toJobRecord), s)
  | .readJobByOperation userId idempotencyKey =>
    (.job (s.readJobByOperation now userId idempotencyKey), s)
  | .readJobsByConflicts userId lane conflictKeys =>
    (.jobs (s.readJobsByConflicts userId lane conflictKeys), s)
  | .readLane lane =>
    let (record, s) := s.readLane lane
    (.lane (record.snapshot lane), s)
  | .listJobs lane state cursor limit => (s.listJobs lane state cursor limit, s)

/-- One command at a time of the clock. -/
def exec (now : Time) (s : MemoryQueueStore) (command : Command) : Reply × MemoryQueueStore :=
  act now (s.swept now command) command

end MemoryQueueStore

/-- The local store with its clock. -/
structure MemoryMachine where
  clock : Time
  store : MemoryQueueStore

namespace MemoryMachine

def step (machine : MemoryMachine) : Label → MemoryMachine
  | .advance elapsed => { machine with clock := machine.clock + elapsed }
  | .call command =>
    { machine with store := (machine.store.exec machine.clock command).2 }

/-- The reply of a command. -/
def reply (machine : MemoryMachine) (command : Command) : Reply :=
  (machine.store.exec machine.clock command).1

def initial (clock : Time) : MemoryMachine := ⟨clock, {}⟩

end MemoryMachine

end BobbyBotique.Queue
