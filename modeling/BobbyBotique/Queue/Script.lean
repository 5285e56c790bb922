import Mathlib.Data.List.Sort
import BobbyBotique.Foundation.Run
import BobbyBotique.Queue.Command

/-!
# The Redis script

`QUEUE_SCRIPT`, procedure by procedure, over the keys it reads and writes.
One script runs at one reading of the clock, and every key whose time to live
has passed at that reading is gone before the script starts.  A job key is
written by `save` only, which sets its expiry from the record, so that expiry
is the record's own `metadata_expires_at`.
-/

namespace BobbyBotique.Queue

/-- A sorted set of task ids with scores. -/
abbrev ZSet := Dict TaskId Int

/-- `ZRANGEBYSCORE key -inf bound LIMIT 0 limit`. -/
def ZSet.rangeByScore (set : ZSet) (bound : Int) (limit : Nat) : List TaskId :=
  (((set.items.filter fun item => item.2 ≤ bound).insertionSort
    fun first second => first.2 ≤ second.2).take limit).map Prod.fst

/-- `ZRANGE key 0 (limit - 1)`. -/
def ZSet.range (set : ZSet) (limit : Nat) : List TaskId :=
  ((set.items.insertionSort fun first second => first.2 ≤ second.2).take limit).map Prod.fst

/-- A job as the script's JSON stores it. -/
structure ScriptJob extends JobRecord where
  conflictKeys : List ConflictDigest
  payloadAccounted : Bool

/-- The hash fields under `counts:<lane>`. -/
inductive CountField where
  | nonterminal
  | running
  | payloadBytes
  | state (state : JobState)
  deriving DecidableEq

/-- An entry of `owners:metadata`. -/
structure Owner where
  userId : Int
  lane : Lane
  state : JobState
  deriving DecidableEq

/-- The set of alias keys of a job, with its time to live once the job has ended. -/
structure AliasSet where
  members : List Identity
  expiresAt : Option Time
  deriving DecidableEq

/-- The permit for image work: a token and its expiry. -/
structure Permit where
  token : String
  expiresAt : Time
  deriving DecidableEq

structure Db where
  jobs : Dict TaskId ScriptJob := Dict.empty
  payload : Dict TaskId (Payload × Time) := Dict.empty
  idem : Dict Identity Alias := Dict.empty
  identities : Dict TaskId AliasSet := Dict.empty
  conflict : Dict (Lane × ConflictDigest) TaskId := Dict.empty
  counts : Lane → CountField → Int := fun _ _ => 0
  ready : Lane → ZSet := fun _ => Dict.empty
  delayed : Lane → ZSet := fun _ => Dict.empty
  deadline : ZSet := Dict.empty
  running : ZSet := Dict.empty
  expiryPayload : ZSet := Dict.empty
  expiryMetadata : ZSet := Dict.empty
  index : ZSet := Dict.empty
  user : Int → List TaskId := fun _ => []
  owners : Dict TaskId Owner := Dict.empty
  permit : Option Permit := none
  lane : Dict Lane LaneRecord := Dict.empty
  operation : Dict OperationKey Operation := Dict.empty
  commands : Dict TaskId (List OperationKey) := Dict.empty
  sequence : Nat := 0

namespace Script

/-! ## Primitives -/

/-- `HINCRBY counts:<lane> <field> <amount>`. -/
def hincrby (counts : Lane → CountField → Int) (lane : Lane) (field : CountField)
    (amount : Int) : Lane → CountField → Int :=
  fun l f => if l = lane ∧ f = field then counts l f + amount else counts l f

/-- Change the sorted set of one lane. -/
def atLane (sets : Lane → ZSet) (lane : Lane) (change : ZSet → ZSet) : Lane → ZSet :=
  fun l => if l = lane then change (sets l) else sets l

/-- Change the id set of one user. -/
def atUser (sets : Int → List TaskId) (userId : Int) (change : List TaskId → List TaskId) :
    Int → List TaskId :=
  fun u => if u = userId then change (sets u) else sets u

/-- The keys that have expired by the script's clock are gone. -/
def expire (db : Db) (now : Time) : Db :=
  { db with
    jobs := db.jobs.retain fun _ m =>
      m.metadataExpiresAt.elim true fun expiry => decide (now < expiry)
    payload := db.payload.retain fun _ entry => decide (now < entry.2)
    idem := db.idem.retain fun _ entry => decide (now < entry.expiresAt)
    identities := db.identities.retain fun _ entry =>
      entry.expiresAt.elim true fun expiry => decide (now < expiry)
    permit := db.permit.filter fun permit => decide (now < permit.expiresAt)
    operation := db.operation.retain fun _ entry => decide (now < entry.expiresAt) }

def save (db : Db) (m : ScriptJob) : Db := { db with jobs := db.jobs.set m.taskId m }

/-- The record part of `drop_payload`. -/
def unaccounted (m : ScriptJob) : ScriptJob :=
  { m with toJobRecord := m.dropRetry, payloadAccounted := false }

/-- The key part of `drop_payload`. -/
def dropPayload (db : Db) (m : ScriptJob) : Db :=
  { db with
    payload := db.payload.del m.taskId
    expiryPayload := db.expiryPayload.del m.taskId
    counts :=
      if m.payloadAccounted then hincrby db.counts m.lane .payloadBytes (-m.payloadBytes)
      else db.counts }

def releaseRunning (db : Db) (m : ScriptJob) : Db :=
  { db with
    counts := if m.state.owned then hincrby db.counts m.lane .running (-1) else db.counts
    running := db.running.del m.taskId
    permit := db.permit.filter fun permit => !decide (m.ownerToken = some permit.token) }

def readyScore (m : JobRecord) : Int := (5 - m.priority) * 1000000000000 + m.sequence

def ready (db : Db) (m : ScriptJob) : Db :=
  { db with
    ready := atLane db.ready m.lane fun set => set.set m.taskId (readyScore m.toJobRecord) }

/-- The counters and the owner entry of a state change; the record is the caller's. -/
def transition (db : Db) (m : ScriptJob) (state : JobState) : Db :=
  { db with
    counts := hincrby (hincrby db.counts m.lane (.state m.state) (-1)) m.lane (.state state) 1
    owners := db.owners.set m.taskId ⟨m.userId, m.lane, state⟩ }

def releaseConflicts (db : Db) (m : ScriptJob) : Db :=
  { db with
    conflict := m.conflictKeys.foldl (fun table id =>
        if table.get? (m.lane, id) = some m.taskId then table.del (m.lane, id) else table)
      db.conflict }

/-- The aliases of an ended job, and the set that lists them, expire with its metadata. -/
def expireAliases (db : Db) (now : Time) (taskId : TaskId) : Db :=
  { db with
    idem := ((db.identities.get? taskId).elim [] AliasSet.members).foldl
      (fun table identity => table.modify identity fun previous =>
        { previous with expiresAt := now + metadataRetention }) db.idem
    identities := db.identities.modify taskId fun aliases =>
      { aliases with expiresAt := some (now + metadataRetention) } }

/-- The payload of an ended job is retained for a retry that is safe and granted. -/
def retains (db : Db) (m : ScriptJob) (safe : Bool) : Bool :=
  safe && decide (m.retryGrants > 0) && db.payload.contains m.taskId

/-- The payload of an ended job is kept for fifteen more minutes. -/
def retainPayload (db : Db) (now : Time) (m : ScriptJob) : Db :=
  { db with
    payload := db.payload.modify m.taskId fun entry => (entry.1, now + retryPayloadRetention)
    expiryPayload := db.expiryPayload.set m.taskId (now + retryPayloadRetention) }

/-- The record that `terminal` saves. -/
def ended (db : Db) (now : Time) (m : ScriptJob) (state : JobState) (reason : Option String)
    (safe : Bool) : ScriptJob :=
  { m with
    toJobRecord := m.terminal now state reason (retains db m safe)
    payloadAccounted := retains db m safe && m.payloadAccounted }

/-- `terminal`. -/
def terminal (db : Db) (now : Time) (m : ScriptJob) (state : JobState)
    (reason : Option String) (safe : Bool) : Db :=
  let counted : Db :=
    if m.state.active then { db with counts := hincrby db.counts m.lane .nonterminal (-1) }
    else db
  let released := releaseConflicts (releaseRunning counted m) m
  let unlisted : Db :=
    { released with
      ready := atLane released.ready m.lane fun set => set.del m.taskId
      delayed := atLane released.delayed m.lane fun set => set.del m.taskId
      deadline := released.deadline.del m.taskId }
  let moved := transition unlisted m state
  let settled :=
    if retains db m safe then retainPayload moved now m else dropPayload moved m
  let aliased := expireAliases settled now m.taskId
  save
    { aliased with
      expiryMetadata := aliased.expiryMetadata.set m.taskId (now + metadataRetention) }
    (ended db now m state reason safe)

/-! ## The sweep -/

def uncertainReason (m : ScriptJob) : String :=
  if m.kind = "document_processing" then "document_storage_unconfirmed"
  else "interrupted_delivery"

/-- One id of the payload pass. -/
def payloadStep (now : Time) (db : Db) (id : TaskId) : Db :=
  match db.jobs.get? id with
  | none => { db with expiryPayload := db.expiryPayload.del id }
  | some m =>
    let dropped := dropPayload db m
    if m.state.active then
      terminal dropped now (unaccounted m)
        (if m.uncertain then .unknownDelivery else .expired) (some "payload_expired") false
    else save dropped (unaccounted m)

/-- One id of the deadline pass. -/
def deadlineStep (now : Time) (db : Db) (id : TaskId) : Db :=
  match (db.jobs.get? id).filter fun m => m.state.active with
  | none => { db with deadline := db.deadline.del id }
  | some m =>
    terminal db now m (if m.uncertain then .unknownDelivery else .expired)
      (some (if m.uncertain then uncertainReason m else "deadline_exceeded")) false

/-- The requeue of a job whose owner was lost. -/
def requeueLost (db : Db) (m : ScriptJob) : Db :=
  let moved := transition (releaseRunning db m) m .queued
  let requeued : ScriptJob := { m with toJobRecord := m.requeueLost }
  save
    (ready { moved with deadline := moved.deadline.set m.taskId requeued.deadlineAt } requeued)
    requeued

/-- One id of the lease pass. -/
def runningStep (now : Time) (db : Db) (id : TaskId) : Db :=
  match (db.jobs.get? id).filter fun m => m.state.owned with
  | none => { db with running := db.running.del id }
  | some m =>
    if m.effectful then
      terminal db now m .unknownDelivery (some (uncertainReason m)) false
    else if m.state = .cancelRequested then
      terminal db now m .cancelled (some "cancel_requested") false
    else if m.attemptsStarted ≥ m.maxAttempts then
      terminal db now m .failed (some "attempts_exhausted") true
    else if now ≥ m.queueDeadlineAt then
      terminal db now m .expired (some "deadline_exceeded") true
    else requeueLost db m

/-- A delayed job becomes ready. -/
def promote (db : Db) (m : ScriptJob) : Db :=
  let promoted : ScriptJob := { m with toJobRecord := m.promote }
  save (ready (transition db m .queued) promoted) promoted

/-- One id of the delay pass of a lane. -/
def delayedStep (lane : Lane) (db : Db) (id : TaskId) : Db :=
  let unlisted : Db := { db with delayed := atLane db.delayed lane fun set => set.del id }
  match (unlisted.jobs.get? id).filter fun m => decide (m.state = .delayed) with
  | none => unlisted
  | some m => promote unlisted m

/-- One id of the metadata pass. -/
def metadataStep (db : Db) (id : TaskId) : Db :=
  let counted : Db :=
    match db.owners.get? id with
    | none => db
    | some owner =>
      { db with
        user := atUser db.user owner.userId fun ids => ids.erase id
        counts := hincrby db.counts owner.lane (.state owner.state) (-1) }
  { counted with
    owners := counted.owners.del id
    index := counted.index.del id
    expiryMetadata := counted.expiryMetadata.del id
    commands := counted.commands.del id
    idem := ((counted.identities.get? id).elim [] AliasSet.members).foldl Dict.del counted.idem
    identities := counted.identities.del id }

def payloadPass (db : Db) (now : Time) : Db :=
  (ZSet.rangeByScore db.expiryPayload now 256).foldl (payloadStep now) db

def deadlinePass (db : Db) (now : Time) : Db :=
  (ZSet.rangeByScore db.deadline now 256).foldl (deadlineStep now) db

def runningPass (db : Db) (now : Time) : Db :=
  (ZSet.rangeByScore db.running now 256).foldl (runningStep now) db

def delayedLane (now : Time) (db : Db) (lane : Lane) : Db :=
  (ZSet.rangeByScore (db.delayed lane) now 128).foldl (delayedStep lane) db

def delayedPass (db : Db) (now : Time) : Db := Lane.all.foldl (delayedLane now) db

def metadataPass (db : Db) (now : Time) : Db :=
  (ZSet.rangeByScore db.expiryMetadata now 256).foldl metadataStep db

/-- `sweep`, over the keys that are still there. -/
def sweep (db : Db) (now : Time) : Db :=
  metadataPass
    (delayedPass (runningPass (deadlinePass (payloadPass (expire db now) now) now) now) now) now

/-! ## Admission -/

/-- `lane_state`. -/
def laneState (db : Db) (lane : Lane) (policy : QueuePolicy) : LaneRecord :=
  db.lane.getD lane (.initial policy)

/-- The policy ceilings written in the script. -/
def scriptCeiling (lane : Lane) : QueuePolicy where
  maxJobs := if lane = .daily then 32 else if lane = .broadcast then 10 else 100
  maxPayloadBytes := 262144
  maxTotalPayloadBytes := 8388608
  maxAgeSeconds := if lane = .daily then 1800 else 900
  maxAttempts := 3
  positive := by cases lane <;> decide

/-- The job table handed to `admission`. -/
structure Submission where
  job : JobEnvelope
  lane : Lane
  conflictKeys : List ConflictDigest
  identity : Identity
  fingerprint : Fingerprint

/-- The first conflict key of a submission that is taken. -/
def conflictOwner (db : Db) (lane : Lane) : List ConflictDigest → Option TaskId
  | [] => none
  | id :: rest => (db.conflict.get? (lane, id)).or (conflictOwner db lane rest)

/-- The record of an accepted submission. -/
def accepted (submission : Submission) (policy : QueuePolicy) (now : Time) (sequence : Nat) :
    ScriptJob :=
  { JobRecord.admitted submission.job submission.lane policy now sequence submission.identity
      submission.fingerprint with
    conflictKeys := submission.conflictKeys
    payloadAccounted := true }

/-- `SADD`, keeping the time to live of the set. -/
def addAlias (identities : Dict TaskId AliasSet) (taskId : TaskId) (identity : Identity) :
    Dict TaskId AliasSet :=
  let aliases := identities.getD taskId ⟨[], none⟩
  identities.set taskId { aliases with members := aliases.members.insert identity }

/-- The writes of an accepted submission. -/
def accept (db : Db) (now : Time) (submission : Submission) (policy : QueuePolicy)
    (lane : LaneRecord) : Db :=
  let m := accepted submission policy now (db.sequence + 1)
  let saved := save { db with sequence := db.sequence + 1 } m
  let stored : Db :=
    { saved with
      payload := saved.payload.set m.taskId (submission.job.payload, m.payloadExpiresAt)
      idem := saved.idem.set submission.identity
        ⟨m.taskId, submission.fingerprint, now + metadataRetention⟩
      identities := addAlias saved.identities m.taskId submission.identity
      conflict := submission.conflictKeys.foldl
        (fun table id => table.set (m.lane, id) m.taskId) saved.conflict
      index := saved.index.set m.taskId m.sequence
      user := atUser saved.user m.userId fun ids => ids.insert m.taskId
      owners := saved.owners.set m.taskId ⟨m.userId, m.lane, m.state⟩
      deadline := saved.deadline.set m.taskId m.deadlineAt
      expiryPayload := saved.expiryPayload.set m.taskId m.payloadExpiresAt
      counts := hincrby (hincrby (hincrby saved.counts m.lane .nonterminal 1)
        m.lane .payloadBytes m.payloadBytes) m.lane (.state m.state) 1
      lane := saved.lane.set m.lane lane }
  if m.state = .delayed then
    { stored with
      delayed := atLane stored.delayed m.lane fun set => set.set m.taskId m.notBefore }
  else ready stored m

/-- The refusal of a submission that meets the lane's limits, if any. -/
def capacityReason (db : Db) (lane : Lane) (record : LaneRecord) (policy : QueuePolicy)
    (size : Nat) (credit : Nat) : Option String :=
  if record.admissionPaused then some "admission_paused"
  else if size > policy.maxPayloadBytes then some "payload_too_large"
  else if db.counts lane .nonterminal ≥ policy.maxJobs then some "job_capacity"
  else if db.counts lane .payloadBytes + size - credit > policy.maxTotalPayloadBytes then
    some "byte_capacity"
  else none

def rejected (reason : String) (taskId : Option TaskId := none) : QueueAdmission :=
  ⟨.rejected, taskId, some reason⟩

/-- The part of `admission` after the conflict keys. -/
def admissionNew (db : Db) (now : Time) (submission : Submission) (policy : QueuePolicy)
    (credit : Nat) : QueueAdmission × Db :=
  let record := laneState db submission.lane policy
  let policy := policy.meet record.policy
  match capacityReason db submission.lane record policy submission.job.payload.size credit with
  | some reason => (rejected reason, db)
  | none =>
    (⟨.accepted, some submission.job.taskId, none⟩, accept db now submission policy record)

/-- `admission`. -/
def admission (db : Db) (now : Time) (submission : Submission) (policy : QueuePolicy)
    (credit : Nat) : QueueAdmission × Db :=
  match db.idem.get? submission.identity with
  | some old =>
    if old.fingerprint = submission.fingerprint then
      (⟨.existing, some old.taskId, none⟩, db)
    else (rejected "idempotency_conflict" (some old.taskId), db)
  | none =>
    let policy := policy.meet (scriptCeiling submission.lane)
    match conflictOwner db submission.lane submission.conflictKeys with
    | some existing =>
      if ((db.identities.get? existing).elim [] AliasSet.members).length ≥ 256 then
        (rejected "idempotency_capacity", db)
      else
        (⟨.existing, some existing, some "conflict_existing"⟩,
          { db with
            idem := db.idem.set submission.identity
              ⟨existing, submission.fingerprint, now + metadataRetention⟩
            identities := addAlias db.identities existing submission.identity })
    | none => admissionNew db now submission policy credit

/-- What `RedisQueueStore.admit` sends: the conflict keys are digested. -/
def submission (job : JobEnvelope) (lane : Lane) : Submission where
  job := job
  lane := lane
  conflictKeys := job.conflictKeys.keys.map fun key => ⟨job.userId, key⟩
  identity := job.identity
  fingerprint := job.fingerprint

/-- `RedisQueueStore.admit` and the action `admit`, after the sweep. -/
def admitJob (db : Db) (now : Time) (job : JobEnvelope) (lane : Lane) (policy : QueuePolicy) :
    QueueAdmission × Db :=
  admission db now (submission job lane) (boundedPolicy lane policy) 0

/-! ## Claims and owners -/

/-- The budget of a claimed execution. -/
def executionBudget (m : JobRecord) : Time :=
  seconds (min 1800 (m.executionTimeoutSeconds.elim (JobRecord.defaultBudget m.kind)
    ExecutionBudget.seconds))

/-- The started record. -/
def started (m : ScriptJob) (now : Time) (ownerToken : String) : ScriptJob :=
  { m with
    toJobRecord := (m.extendDaily now (executionBudget m.toJobRecord)).start now ownerToken }

/-- The keys of a daily budget given at the claim. -/
def extendKeys (db : Db) (m : ScriptJob) (started : ScriptJob) : Db :=
  if m.lane = .daily ∧ m.userId = 0 then
    { db with
      deadline := db.deadline.set m.taskId started.deadlineAt
      expiryPayload := db.expiryPayload.set m.taskId started.payloadExpiresAt
      payload := db.payload.modify m.taskId fun entry =>
        (entry.1, started.payloadExpiresAt) }
  else db

/-- The start of a job claimed from a lane. -/
def start (db : Db) (now : Time) (lane : Lane) (m : ScriptJob) (ownerToken : String) : Db :=
  let unlisted : Db :=
    { db with ready := atLane db.ready lane fun set => set.del m.taskId }
  let moved := transition (extendKeys unlisted m (started m now ownerToken)) m .running
  save
    { moved with
      running := moved.running.set m.taskId (now + ownerLease)
      counts := hincrby moved.counts lane .running 1
      permit := if m.imageWork then some ⟨ownerToken, now + ownerLease⟩ else moved.permit }
    (started m now ownerToken)

/-- The loop of `claim` over the first ids of the ready set. -/
def claimLoop (now : Time) (lane : Lane) (ownerToken : String) :
    Db → List TaskId → Option ScriptJob × Db
  | db, [] => (none, db)
  | db, id :: rest =>
    match (db.jobs.get? id).filter fun m => decide (m.state = .queued) with
    | none =>
      claimLoop now lane ownerToken
        { db with ready := atLane db.ready lane fun set => set.del id } rest
    | some m =>
      if m.attemptsStarted ≥ m.maxAttempts then
        claimLoop now lane ownerToken
          (terminal db now m .failed (some "attempts_exhausted") true) rest
      else if m.imageWork && db.permit.isSome then
        claimLoop now lane ownerToken db rest
      else if db.payload.contains id then
        (some (started m now ownerToken), start db now lane m ownerToken)
      else
        claimLoop now lane ownerToken
          (terminal db now m .expired (some "payload_expired") false) rest

/-- The action `claim`, after the sweep. -/
def claim (db : Db) (now : Time) (lane : Lane) (ownerToken : String) :
    Option ScriptJob × Db :=
  if (laneState db lane (lanePolicies lane)).claimPaused ∨
      db.counts lane .running ≥ laneWorkers lane then (none, db)
  else claimLoop now lane ownerToken db (ZSet.range (db.ready lane) 128)

/-- The record of the ownership test, nothing where it answers with an error. -/
def owned? (db : Db) (taskId : TaskId) (ownerToken : String) (expectedRevision : Nat) :
    Option ScriptJob :=
  (db.jobs.get? taskId).filter fun m =>
    m.state.owned && decide (m.ownerToken = some ownerToken) &&
      decide (m.revision = expectedRevision)

def ownerConflict : Reply := .conflict "owner_or_revision_conflict"

/-- The action `load`, after the sweep. -/
def load (db : Db) (taskId : TaskId) (ownerToken : String) : Reply :=
  match (db.jobs.get? taskId).filter fun m =>
      decide (m.state = .running) && decide (m.ownerToken = some ownerToken) with
  | none => .conflict "payload_not_available"
  | some _ =>
    match db.payload.get? taskId with
    | none => .conflict "payload_not_available"
    | some entry => .payload entry.1

/--
`update_progress` checks the summary before the action `progress` is sent.  The
read with which the client looks into a refusal is a command of its own.
-/
def progress (db : Db) (taskId : TaskId) (ownerToken : String) (expectedRevision : Nat)
    (summary : Summary) : Reply × Db :=
  match PublicSummary.ofSummary? summary with
  | none => (.conflict "invalid_public_summary", db)
  | some clean =>
    match (owned? db taskId ownerToken expectedRevision).filter fun m =>
        decide (m.state = .running) with
    | none => (ownerConflict, db)
    | some m =>
      let updated : ScriptJob := { m with toJobRecord := m.summarise clean }
      (.job (some updated.snapshot), save db updated)

/-- The action `heartbeat`, after the sweep. -/
def heartbeat (db : Db) (now : Time) (taskId : TaskId) (ownerToken : String)
    (expectedRevision : Nat) : Reply × Db :=
  match owned? db taskId ownerToken expectedRevision with
  | none => (ownerConflict, db)
  | some m =>
    let updated : ScriptJob := { m with toJobRecord := m.beat now }
    (.job (some updated.snapshot), save
        { db with
          running := db.running.set m.taskId (now + ownerLease)
          permit := db.permit.map fun permit =>
            if m.imageWork ∧ permit.token = ownerToken then
              { permit with expiresAt := now + ownerLease }
            else permit }
        updated)

/-- An owner's retryable failure puts the job back into its lane. -/
def requeueRetry (db : Db) (now : Time) (m : ScriptJob) (delaySeconds : Time)
    (reason : Option String) : Db :=
  let requeued : ScriptJob :=
    { m with toJobRecord := m.requeueRetry now delaySeconds reason }
  let moved := transition (releaseRunning db m) m requeued.state
  let stored : Db :=
    { moved with
      deadline := moved.deadline.set m.taskId requeued.deadlineAt
      expiryPayload := moved.expiryPayload.set m.taskId requeued.payloadExpiresAt
      payload := moved.payload.modify m.taskId fun entry =>
        (entry.1, now + max 1 (requeued.payloadExpiresAt - now)) }
  save
    (if requeued.state = .delayed then
      { stored with
        delayed := atLane stored.delayed m.lane fun set =>
          set.set m.taskId requeued.notBefore }
    else ready stored requeued)
    requeued

/--
The settlement of an owned record by its owner's result.  A reason the client
left out is a JSON null, which Lua takes for a reason.
-/
def settle (db : Db) (now : Time) (m : ScriptJob) (result : JobResult)
    (delaySeconds : Time) : Db :=
  if result.outcome = .unknownDelivery then
    terminal db now m .unknownDelivery result.reasonCode false
  else if m.state = .cancelRequested then
    terminal db now m .cancelled (some "cancel_requested") false
  else if result.outcome = .retryableFailure then
    if m.attemptsStarted ≥ m.maxAttempts then
      terminal db now m .failed result.reasonCode true
    else if now + delaySeconds ≥ m.queueDeadlineAt then
      terminal db now m .expired (some "retry_after_deadline") true
    else requeueRetry db now m delaySeconds result.reasonCode
  else if result.outcome = .succeeded then
    terminal db now m .succeeded result.reasonCode false
  else
    terminal db now m .failed result.reasonCode false

/-- Remember the owner that settled the record. -/
def markSettled (db : Db) (taskId : TaskId) (ownerToken : String) : Db :=
  { db with
    jobs := db.jobs.modify taskId fun m => { m with toJobRecord := m.settledBy ownerToken } }

/-- `finish` checks the summary before the action `finish` is sent. -/
def finish (db : Db) (now : Time) (taskId : TaskId) (ownerToken : String)
    (expectedRevision : Nat) (result : JobResult) (delaySeconds : Time) : Reply × Db :=
  match PublicSummary.ofSummary? result.resultSummary with
  | none => (.conflict "invalid_public_summary", db)
  | some clean =>
    match (db.jobs.get? taskId).filter fun m =>
        decide (m.finishToken = some ownerToken) with
    | some m => (.job (some m.snapshot), db)
    | none =>
      match owned? db taskId ownerToken expectedRevision with
      | none => (ownerConflict, db)
      | some m =>
        let db := markSettled
          (settle db now { m with toJobRecord := m.summarise clean } result delaySeconds)
          taskId ownerToken
        (.job ((db.jobs.get? taskId).map fun m => m.snapshot), db)

/-! ## Operator commands -/

/-- The remembered operation; an error where its arguments differ. -/
def command (db : Db) (key : OperationKey) (body : CommandBody) :
    Except String (Option Target) :=
  match db.operation.get? key with
  | none => .ok none
  | some old =>
    if old.fingerprint = body then .ok (some old.target)
    else .error "operation_id_conflict"

/-- Remember an operation, under the job it was commanded for if it is a job. -/
def remember (db : Db) (now : Time) (key : OperationKey) (body : CommandBody)
    (target : Target) (commanded : Option TaskId) : Db :=
  { db with
    operation := db.operation.set key ⟨body, target, now + metadataRetention⟩
    commands := commanded.elim db.commands fun taskId =>
      db.commands.set taskId ((db.commands.getD taskId []).insert key) }

/-- The action `cancel`, after the sweep. -/
def cancel (db : Db) (now : Time) (taskId : TaskId) (expectedRevision : Nat)
    (actor operationId : String) : Reply × Db :=
  let key := operationKey actor operationId
  let body := CommandBody.cancel taskId expectedRevision
  match command db key body with
  | .error reason => (.conflict reason, db)
  | .ok (some _) =>
    match db.jobs.get? taskId with
    | none => (.missing, db)
    | some m => (.job (some m.snapshot), db)
  | .ok none =>
    match (db.jobs.get? taskId).filter fun m => decide (m.revision = expectedRevision) with
    | none => (.conflict "revision_conflict", db)
    | some m =>
      let cancelled :=
        if m.state.owned then
          save (transition db m .cancelRequested)
            { m with toJobRecord := m.requestCancel }
        else if m.state.active then
          terminal db now m .cancelled (some "cancel_requested") false
        else db
      let db := remember cancelled now key body (.job taskId) (some taskId)
      (.job ((db.jobs.get? taskId).map fun m => m.snapshot), db)

/-- The child table of the action `retry`. -/
def retryChild (m : ScriptJob) (key : OperationKey) (body : CommandBody) (payload : Payload)
    (privacyEpoch : Option Int) : Submission where
  job :=
    { taskId := .operation key
      kind := m.kind
      lane := m.lane.name
      userId := m.userId
      payload := payload
      idempotencyKey := .retry key
      privacyEpoch := privacyEpoch
      priority := m.priority
      effectful := m.effectful
      imageWork := m.imageWork
      parentTaskId := some m.taskId
      retryGrants := 0
      publicSummary := m.resultSummary
      executionTimeoutSeconds := m.executionTimeoutSeconds }
  lane := m.lane
  conflictKeys := m.conflictKeys
  identity := ⟨m.userId, .retry key⟩
  fingerprint := .command body

/-- The record a retry may start from, with its payload. -/
def retryable? (db : Db) (m : ScriptJob) (privacyEpoch : Option Int) : Option Payload :=
  match db.payload.get? m.taskId with
  | some entry =>
    if (m.state = .failed ∨ m.state = .expired) ∧ m.retryEligible ∧ ¬ m.retryGrants < 1 ∧
        m.privacyEpoch = privacyEpoch then
      some entry.1
    else none
  | none => none

/-- The parent gives up its grant and its payload. -/
def handOver (db : Db) (m : ScriptJob) : Db :=
  save (dropPayload db m) (unaccounted { m with toJobRecord := m.spendGrant })

/-- The action `retry`, after the sweep. -/
def retry (db : Db) (now : Time) (taskId : TaskId) (expectedRevision : Nat)
    (actor operationId : String) (privacyEpoch : Option Int) : Reply × Db :=
  let key := operationKey actor operationId
  let body := CommandBody.retry taskId expectedRevision
  match command db key body with
  | .error reason => (.conflict reason, db)
  | .ok (some (.job target)) => (.admission ⟨.existing, some target, none⟩, db)
  | .ok (some (.lane _)) => (.missing, db)
  | .ok none =>
    match (db.jobs.get? taskId).filter fun m => decide (m.revision = expectedRevision) with
    | none => (.conflict "revision_conflict", db)
    | some m =>
      match retryable? db m privacyEpoch with
      | none => (.conflict "retry_not_available", db)
      | some payload =>
        let (admission, db) := admission db now (retryChild m key body payload privacyEpoch)
          (lanePolicies m.lane) (if m.payloadAccounted then m.payloadBytes else 0)
        if admission.state = .accepted ∨ admission.state = .existing then
          match admission.taskId with
          | none => (.admission admission, db)
          | some accepted =>
            if accepted ≠ .operation key then
              (.admission admission, remember db now key body (.job accepted) (some taskId))
            else
              (.admission admission, remember (handOver db m) now key body (.job (.operation key))
                  (some taskId))
        else (.admission admission, db)

/-- The action `set_lane`, after the sweep. -/
def setLane (db : Db) (now : Time) (lane : Lane) (expectedRevision : Nat)
    (admissionPaused claimPaused : Bool) (actor operationId : String) : Reply × Db :=
  let key := operationKey actor operationId
  let body := CommandBody.lane lane expectedRevision admissionPaused claimPaused
  let record := laneState db lane (lanePolicies lane)
  match command db key body with
  | .error reason => (.conflict reason, db)
  | .ok (some _) => (.lane (record.snapshot lane), db)
  | .ok none =>
    if record.revision ≠ expectedRevision then (.conflict "revision_conflict", db)
    else
      let updated : LaneRecord :=
        ⟨record.revision + 1, admissionPaused, claimPaused, record.policy⟩
      (.lane (updated.snapshot lane),
        remember { db with lane := db.lane.set lane updated } now key body (.lane lane) none)

/-! ## Erasure and listing -/

/-- The part of an erasure that needs the record. -/
def eraseRecord (db : Db) (m : ScriptJob) (id : TaskId) : Db :=
  let counted : Db :=
    { db with
      counts :=
        hincrby
          (if m.state.active then hincrby db.counts m.lane .nonterminal (-1) else db.counts)
          m.lane (.state m.state) (-1) }
  let released := dropPayload (releaseConflicts (releaseRunning counted m) m) m
  { released with
    ready := atLane released.ready m.lane fun set => set.del id
    delayed := atLane released.delayed m.lane fun set => set.del id
    idem := released.idem.del m.identity
    jobs := released.jobs.del id }

/-- One id of the action `erase`. -/
def eraseStep (userId : Int) (db : Db) (id : TaskId) : Db :=
  let erased := (db.jobs.get? id).elim db fun m => eraseRecord db m id
  { erased with
    operation := ((erased.commands.get? id).getD []).foldl Dict.del erased.operation
    idem := ((erased.identities.get? id).elim [] AliasSet.members).foldl Dict.del erased.idem
    identities := erased.identities.del id
    commands := erased.commands.del id
    deadline := erased.deadline.del id
    index := erased.index.del id
    expiryMetadata := erased.expiryMetadata.del id
    owners := erased.owners.del id
    user := atUser erased.user userId fun ids => ids.erase id }

/-- `SRANDMEMBER user:<id> 100`: up to a hundred members, in the order drawn. -/
def randomMembers (db : Db) (userId : Int) (members : List TaskId) : List TaskId :=
  (members.eraseDups.filter fun id => (db.user userId).contains id).take 100

/-- The action `erase`, after the sweep. -/
def erase (db : Db) (userId : Int) (members : List TaskId) : Reply × Db :=
  let db := (randomMembers db userId members).foldl (eraseStep userId) db
  (.erased (db.user userId).length, db)

/-- The scan of the action `list` over one window of the index. -/
def listScan (db : Db) (lane : Option Lane) (state : Option JobState) (limit : Nat) :
    List TaskId → Nat → List JobSnapshot → List JobSnapshot × Nat
  | [], offset, items => (items, offset)
  | id :: rest, offset, items =>
    let found := (db.jobs.get? id).filter fun m =>
      (lane.elim true fun wanted => decide (m.lane = wanted)) &&
        state.elim true fun wanted => decide (m.state = wanted)
    let items := found.elim items fun m => items ++ [m.snapshot]
    if items.length ≥ limit then (items, offset + 1)
    else listScan db lane state limit rest (offset + 1) items

/-- `list_jobs` checks the page before the action `list` is sent. -/
def list (db : Db) (lane : Option Lane) (state : Option JobState) (cursor : Option Int)
    (limit : Int) : Reply :=
  if limit < 1 ∨ 100 < limit then .conflict "invalid_page_size"
  else if cursor.getD 0 < 0 then .conflict "invalid_cursor"
  else
    let start := (cursor.getD 0).toNat
    let window := (((db.index.items.insertionSort fun first second =>
      first.2 ≤ second.2).drop start).take 256).map Prod.fst
    let (items, offset) := listScan db lane state limit.toNat window start []
    .page
      { items := items
        nextCursor := if db.index.keys.length > offset then some offset else none }

/-! ## Direct reads -/

/-- `read_job_by_operation` of the Redis store. -/
def readJobByOperation (db : Db) (userId : Int) (idempotencyKey : String) :
    Option JobSnapshot :=
  (db.idem.get? ⟨userId, .given idempotencyKey⟩).bind fun entry =>
    (db.jobs.get? entry.taskId).map fun m =>
      if m.retryPayloadAvailable && !db.payload.contains entry.taskId then
        m.dropRetry.snapshot
      else m.snapshot

/-- `read_jobs_by_conflicts` of the Redis store. -/
def readJobsByConflicts (db : Db) (userId : Int) (lane : Lane)
    (conflictKeys : ConflictKeys) : List JobSnapshot :=
  let owners := (conflictKeys.keys.filterMap fun key =>
    db.conflict.get? (lane, ⟨userId, key⟩)).eraseDups
  owners.filterMap fun taskId =>
    ((db.jobs.get? taskId).filter fun m => m.state.active).map fun m => m.snapshot

/-! ## The commands -/

/--
What the client answers without a script: it refuses some arguments itself, and
the two direct reads look at the keys that have not expired.
-/
def answered (now : Time) (db : Db) : Command → Option Reply
  | .admitJob job _ =>
    if (Lane.ofName? job.lane).isNone then some (.admission (rejected "unknown_lane")) else none
  | .updateProgress _ _ _ summary =>
    if (PublicSummary.ofSummary? summary).isNone then some (.conflict "invalid_public_summary")
    else none
  | .finish _ _ _ result _ =>
    if (PublicSummary.ofSummary? result.resultSummary).isNone then
      some (.conflict "invalid_public_summary")
    else none
  | .readJobByOperation userId idempotencyKey =>
    some (.job (readJobByOperation (expire db now) userId idempotencyKey))
  | .readJobsByConflicts userId lane conflictKeys =>
    some (.jobs (readJobsByConflicts (expire db now) userId lane conflictKeys))
  | .listJobs _ _ cursor limit =>
    if limit < 1 ∨ 100 < limit then some (.conflict "invalid_page_size")
    else if cursor.getD 0 < 0 then some (.conflict "invalid_cursor")
    else none
  | _ => none

/-- The action of a command's script, after the sweep. -/
def act (now : Time) (db : Db) : Command → Reply × Db
  | .admitJob job policy =>
    match Lane.ofName? job.lane with
    | none => (.admission (rejected "unknown_lane"), db)
    | some lane =>
      let (admission, db) := admitJob db now job lane policy
      (.admission admission, db)
  | .claim lane ownerToken =>
    let (m, db) := claim db now lane ownerToken
    (.claimed (m.map fun m => m.claim ownerToken), db)
  | .loadPayload taskId ownerToken => (load db taskId ownerToken, db)
  | .heartbeat taskId ownerToken expectedRevision =>
    heartbeat db now taskId ownerToken expectedRevision
  | .updateProgress taskId ownerToken expectedRevision summary =>
    progress db taskId ownerToken expectedRevision summary
  | .finish taskId ownerToken expectedRevision result delaySeconds =>
    finish db now taskId ownerToken expectedRevision result delaySeconds
  | .requestCancel taskId expectedRevision actor operationId =>
    cancel db now taskId expectedRevision actor operationId
  | .retryJob taskId expectedRevision actor operationId privacyEpoch =>
    retry db now taskId expectedRevision actor operationId privacyEpoch
  | .sweep => (.done, db)
  | .setLaneState lane expectedRevision admissionPaused claimPaused actor operationId =>
    setLane db now lane expectedRevision admissionPaused claimPaused actor operationId
  | .eraseUser userId members => erase db userId members
  | .readJob taskId => (.job ((db.jobs.get? taskId).map fun m => m.snapshot), db)
  | .privateRecord taskId => (.record ((db.jobs.get? taskId).map fun m => m.toJobRecord), db)
  | .readJobByOperation userId idempotencyKey =>
    (.job (readJobByOperation db userId idempotencyKey), db)
  | .readJobsByConflicts userId lane conflictKeys =>
    (.jobs (readJobsByConflicts db userId lane conflictKeys), db)
  | .readLane lane => (.lane ((laneState db lane (lanePolicies lane)).snapshot lane), db)
  | .listJobs lane state cursor limit => (list db lane state cursor limit, db)

/-- One command of the Redis store at a time of the server's clock. -/
def exec (now : Time) (db : Db) (command : Command) : Reply × Db :=
  match answered now db command with
  | some reply => (reply, db)
  | none => act now (sweep db now) command

end Script

/-- The Redis server with its clock. -/
structure ScriptMachine where
  clock : Time
  db : Db

namespace ScriptMachine

def step (machine : ScriptMachine) : Label → ScriptMachine
  | .advance elapsed => { machine with clock := machine.clock + elapsed }
  | .call command => { machine with db := (Script.exec machine.clock machine.db command).2 }

/-- The reply of a command. -/
def reply (machine : ScriptMachine) (command : Command) : Reply :=
  (Script.exec machine.clock machine.db command).1

def initial (clock : Time) : ScriptMachine := ⟨clock, {}⟩

end ScriptMachine

end BobbyBotique.Queue
