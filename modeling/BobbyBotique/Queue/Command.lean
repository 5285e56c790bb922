import BobbyBotique.Queue.Record

/-!
# Commands and replies

One type of commands for both stores, and one type of replies.  A raised
`QueueConflict` is the reply `conflict` with its reason; a lookup of a record
that is gone, a `KeyError` in one store and a null record in the other, is the
reply `missing`.
-/

namespace BobbyBotique.Queue

structure JobClaim where
  snapshot : JobSnapshot
  userId : Int
  privacyEpoch : Option Int
  ownerToken : String
  effectful : Bool
  imageWork : Bool

/-- The claim handed to a worker for a started record. -/
def JobRecord.claim (m : JobRecord) (ownerToken : String) : JobClaim where
  snapshot := m.snapshot
  userId := m.userId
  privacyEpoch := m.privacyEpoch
  ownerToken := ownerToken
  effectful := m.effectful
  imageWork := m.imageWork

structure LaneSnapshot where
  lane : Lane
  revision : Nat
  admissionPaused : Bool
  claimPaused : Bool
  policy : QueuePolicy
  workers : Nat

def LaneRecord.snapshot (record : LaneRecord) (lane : Lane) : LaneSnapshot where
  lane := lane
  revision := record.revision
  admissionPaused := record.admissionPaused
  claimPaused := record.claimPaused
  policy := record.policy
  workers := laneWorkers lane

/-- A page of a job listing; the cursor of the next page is an offset. -/
structure JobPage where
  items : List JobSnapshot
  nextCursor : Option Nat

/--
A store command.  The listing cursor is already parsed: text that is no number
is refused like a negative number.  `members` is the order in which the server
draws the ids of the user to erase; the local store does not read it.
-/
inductive Command where
  | admitJob (job : JobEnvelope) (policy : QueuePolicy)
  | claim (lane : Lane) (ownerToken : String)
  | loadPayload (taskId : TaskId) (ownerToken : String)
  | heartbeat (taskId : TaskId) (ownerToken : String) (expectedRevision : Nat)
  | updateProgress (taskId : TaskId) (ownerToken : String) (expectedRevision : Nat)
      (summary : Summary)
  | finish (taskId : TaskId) (ownerToken : String) (expectedRevision : Nat)
      (result : JobResult) (delaySeconds : Time)
  | requestCancel (taskId : TaskId) (expectedRevision : Nat) (actor operationId : String)
  | retryJob (taskId : TaskId) (expectedRevision : Nat) (actor operationId : String)
      (privacyEpoch : Option Int)
  | sweep
  | setLaneState (lane : Lane) (expectedRevision : Nat) (admissionPaused claimPaused : Bool)
      (actor operationId : String)
  | eraseUser (userId : Int) (members : List TaskId)
  | readJob (taskId : TaskId)
  | privateRecord (taskId : TaskId)
  | readJobByOperation (userId : Int) (idempotencyKey : String)
  | readJobsByConflicts (userId : Int) (lane : Lane) (conflictKeys : ConflictKeys)
  | readLane (lane : Lane)
  | listJobs (lane : Option Lane) (state : Option JobState) (cursor : Option Int) (limit : Int)

/-- What a command returns or raises. -/
inductive Reply where
  | admission (admission : QueueAdmission)
  | claimed (claim : Option JobClaim)
  | payload (payload : Payload)
  | job (snapshot : Option JobSnapshot)
  | jobs (snapshots : List JobSnapshot)
  | record (record : Option JobRecord)
  | lane (snapshot : LaneSnapshot)
  | page (page : JobPage)
  | done
  | erased (remaining : Nat)
  | conflict (reasonCode : String)
  | missing

/-- The reason of a refused command. -/
def Reply.refusal : Reply → Option String
  | .conflict reasonCode => some reasonCode
  | _ => none

/-- The reply of an operator command that is performed, now or before. -/
def Reply.succeeded : Reply → Bool
  | .job _ => true
  | .admission result => decide (result.state = .accepted ∨ result.state = .existing)
  | .lane _ => true
  | _ => false

def Reply.isJob : Reply → Bool
  | .job _ => true
  | _ => false

/-- What an operator command acts on. -/
inductive Target where
  | job (taskId : TaskId)
  | lane (lane : Lane)
  deriving DecidableEq

/-- A remembered operator command. -/
structure Operation where
  fingerprint : CommandBody
  target : Target
  expiresAt : Time
  deriving DecidableEq

/-- The commands of an operator, with the key and the body a store remembers them by. -/
inductive Operator : Command → OperationKey → CommandBody → Prop where
  | cancel (taskId : TaskId) (revision : Nat) (actor operationId : String) :
      Operator (.requestCancel taskId revision actor operationId)
        (operationKey actor operationId) (.cancel taskId revision)
  | retry (taskId : TaskId) (revision : Nat) (actor operationId : String)
      (epoch : Option Int) :
      Operator (.retryJob taskId revision actor operationId epoch)
        (operationKey actor operationId) (.retry taskId revision)
  | lane (lane : Lane) (revision : Nat) (admissionPaused claimPaused : Bool)
      (actor operationId : String) :
      Operator (.setLaneState lane revision admissionPaused claimPaused actor operationId)
        (operationKey actor operationId) (.lane lane revision admissionPaused claimPaused)

/-- What a remembered body says about the target it is remembered with. -/
inductive CommandBody.Targets : CommandBody → Target → Prop where
  | cancel (taskId : TaskId) (revision : Nat) : Targets (.cancel taskId revision) (.job taskId)
  | retry (taskId child : TaskId) (revision : Nat) : Targets (.retry taskId revision) (.job child)
  | lane (lane : Lane) (revision : Nat) (admissionPaused claimPaused : Bool) :
      Targets (.lane lane revision admissionPaused claimPaused) (.lane lane)

/-- The job an idempotency identity stands for. -/
structure Alias where
  taskId : TaskId
  fingerprint : Fingerprint
  expiresAt : Time
  deriving DecidableEq

/-- A label of a store run: time passes, or a command is called. -/
inductive Label where
  | advance (elapsed : Nat)
  | call (command : Command)

end BobbyBotique.Queue
