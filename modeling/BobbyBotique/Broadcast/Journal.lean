import BobbyBotique.Foundation.Dict
import BobbyBotique.Foundation.Run
import BobbyBotique.Foundation.Transaction

/-!
# The broadcast journal

The three tables behind broadcast delivery and the transactions that write
them.  A statement that violates a constraint raises, and the whole transaction
is rolled back.  Identifiers and tokens are UUIDs, compared for equality only.
-/

namespace BobbyBotique.Broadcast

abbrev BatchId := Nat
abbrev OperationId := Nat
abbrev AttemptId := Nat
abbrev Token := Nat
abbrev RecipientId := Int

inductive Channel where
  | dailyChallenge
  | horoscope
  | tarot
  deriving DecidableEq, Repr

def Channel.text : Channel → String
  | .dailyChallenge => "daily_challenge"
  | .horoscope => "horoscope"
  | .tarot => "tarot"

inductive Mode where
  | offer
  | delivery
  deriving DecidableEq, Repr

def Mode.text : Mode → String
  | .offer => "offer"
  | .delivery => "delivery"

inductive AdmissionState where
  | accepted
  | existing
  | rejected
  | unknown
  deriving DecidableEq, Repr

inductive BatchState where
  | draft
  | queued
  | running
  | finished
  deriving DecidableEq, Repr

/-- The state of a recipient row, and the outcome of an attempt but `pending`. -/
inductive Disposition where
  | pending
  | started
  | sent
  | failed
  | skipped
  | unknownDelivery
  deriving DecidableEq, Repr

/-- The dispositions that `OUTCOMES` allows. -/
def Disposition.ofOutcome : String → Option Disposition
  | "sent" => some .sent
  | "failed" => some .failed
  | "skipped" => some .skipped
  | "unknown_delivery" => some .unknownDelivery
  | _ => none

/-- `broadcast_batches`. -/
structure Batch where
  operationId : OperationId
  parentBatchId : Option BatchId
  taskId : Option String
  admissionState : AdmissionState
  admissionReason : String
  storageMode : String
  channel : Channel
  mode : Mode
  effectiveDate : String
  variant : String
  scheduled : Bool
  settingsRevision : Option Int
  state : BatchState
  ownerToken : Option Token
  total : Int
  pending : Int
  started : Int
  sent : Int
  failed : Int
  skipped : Int
  unknownDelivery : Int
  retryableFailed : Int
  deriving DecidableEq, Repr

/-- `broadcast_recipients`.  A row has the channel of its batch, so the batch
and the recipient are its key. -/
structure Recipient where
  channel : Channel
  privacyEpoch : Int
  scheduleKey : Option String
  slotDate : Option String
  state : Disposition
  ownerToken : Option Token
  reasonCode : Option String
  retryable : Bool
  messageId : Option Int
  deriving DecidableEq, Repr

/-- `broadcast_delivery_attempts`. -/
structure Attempt where
  batchId : BatchId
  recipientId : RecipientId
  channel : Channel
  sequence : Int
  ownerToken : Token
  effectiveDate : String
  settingsRevision : Option Int
  outcome : Disposition
  reasonCode : Option String
  retryable : Bool
  messageId : Option Int
  deriving DecidableEq, Repr

structure Journal where
  batches : Dict BatchId Batch
  recipients : Dict (BatchId × RecipientId) Recipient
  attempts : Dict AttemptId Attempt

def Journal.start : Journal := ⟨.empty, .empty, .empty⟩

/-! ## Constraints -/

/-- Why a transaction is rolled back. -/
inductive Violation where
  /-- A `CHECK` constraint. -/
  | check
  | unique
  | foreignKey
  | notNull
  /-- `ValueError("invalid_delivery_outcome")`. -/
  | invalidOutcome
  deriving DecidableEq, Repr

/-- The `CHECK` constraints on the numbers of a batch. -/
def Batch.checks (batch : Batch) : Bool :=
  decide (0 ≤ batch.total ∧ batch.total ≤ 100 ∧ 0 ≤ batch.pending ∧ 0 ≤ batch.started ∧
    0 ≤ batch.sent ∧ 0 ≤ batch.failed ∧ 0 ≤ batch.skipped ∧ 0 ≤ batch.unknownDelivery ∧
    0 ≤ batch.retryableFailed)

/-- `reason_code ~ '^[a-z0-9_]{1,64}$'`. -/
def reasonMatches (reason : String) : Bool :=
  let characters := reason.toList
  decide (1 ≤ characters.length) && decide (characters.length ≤ 64) &&
    characters.all fun character =>
      ('a' ≤ character && character ≤ 'z') || ('0' ≤ character && character ≤ '9') ||
        character == '_'

/-- The check on a nullable reason code. -/
def reasonChecks (reason : Option String) : Bool := reason.all reasonMatches

namespace Journal

/-- The unique index on `task_id`. -/
def taskTaken (journal : Journal) (id : BatchId) (task : Option String) : Bool :=
  task.isSome && journal.batches.items.any fun item => item.1 != id && item.2.taskId == task

/-- `UPDATE broadcast_batches SET .. WHERE batch_id=id AND ..  RETURNING *`. -/
def updateBatch (journal : Journal) (id : BatchId) (test : Batch → Bool) (set : Batch → Batch) :
    Except Violation (Journal × Option Batch) :=
  match journal.batches.get? id with
  | none => .ok (journal, none)
  | some batch =>
    if test batch then
      if (set batch).checks then
        if journal.taskTaken id (set batch).taskId then .error .unique
        else
          .ok ({ journal with batches := journal.batches.set id (set batch) }, some (set batch))
      else .error .check
    else .ok (journal, none)

/-- `UPDATE broadcast_recipients SET .. WHERE batch_id=.. AND recipient_id=.. AND ..`;
the flag tells whether a row was returned. -/
def updateRecipient (journal : Journal) (key : BatchId × RecipientId) (test : Recipient → Bool)
    (set : Recipient → Recipient) : Except Violation (Journal × Bool) :=
  match journal.recipients.get? key with
  | none => .ok (journal, false)
  | some row =>
    if test row then
      if reasonChecks (set row).reasonCode then
        .ok ({ journal with recipients := journal.recipients.set key (set row) }, true)
      else .error .check
    else .ok (journal, false)

/-- `UPDATE broadcast_recipients SET .. WHERE batch_id=id AND ..`. -/
def updateRecipients (journal : Journal) (id : BatchId) (test : Recipient → Bool)
    (set : Recipient → Recipient) : Except Violation Journal :=
  if journal.recipients.items.all fun item =>
      !(item.1.1 == id && test item.2) || reasonChecks (set item.2).reasonCode then
    .ok { journal with
      recipients := journal.recipients.adjust fun key row =>
        if key.1 = id ∧ test row = true then set row else row }
  else .error .check

/-! ## Creating a batch -/

end Journal

/-- One recipient as `candidates` reports it. -/
structure Snapshot where
  recipientId : RecipientId
  privacyEpoch : Option Int
  reasonCode : Option String
  slotDate : Option String
  deriving DecidableEq, Repr

/-- The arguments of `create_batch`. -/
structure NewBatch where
  batchId : BatchId
  operationId : OperationId
  channel : Channel
  mode : Mode
  effectiveDate : String
  variant : String
  recipients : List Snapshot
  parentBatchId : Option BatchId
  settingsRevision : Option Int
  scheduled : Bool
  deriving Repr

/-- The text under the schedule key, and its digest. -/
def scheduleKey (sha256 : String → String) (args : NewBatch) (recipient : Snapshot) :
    Option String :=
  if args.scheduled then
    some (sha256 (args.channel.text ++ ":" ++ args.mode.text ++ ":" ++
      recipient.slotDate.getD args.effectiveDate ++ ":" ++ args.variant ++ ":" ++
      toString recipient.recipientId ++ ":" ++
      (recipient.privacyEpoch.map toString).getD "None"))
  else none

/-- The row `create_batch` inserts. -/
def NewBatch.row (args : NewBatch) (recipients : List Snapshot) : Batch :=
  let eligible : Int := (recipients.filter fun recipient => recipient.reasonCode.isNone).length
  { operationId := args.operationId, parentBatchId := args.parentBatchId, taskId := none
    admissionState := .unknown, admissionReason := "admission_not_confirmed"
    storageMode := "unavailable", channel := args.channel, mode := args.mode
    effectiveDate := args.effectiveDate, variant := args.variant, scheduled := args.scheduled
    settingsRevision := args.settingsRevision, state := .draft, ownerToken := none
    total := recipients.length, pending := eligible, started := 0, sent := 0, failed := 0
    skipped := recipients.length - eligible, unknownDelivery := 0, retryableFailed := 0 }

namespace Journal

/-- The recipients whose failed row at the parent is used up, one after the other. -/
def consume (parent : BatchId) : Journal → List Snapshot → Journal × Int × List Snapshot
  | journal, [] => (journal, 0, [])
  | journal, recipient :: rest =>
    let key := (parent, recipient.recipientId)
    match (journal.recipients.get? key).filter fun row =>
        row.state == .failed && row.retryable with
    | some row =>
      let used : Journal :=
        { journal with
          recipients := journal.recipients.set key { row with retryable := false } }
      let (after, consumed, marked) := consume parent used rest
      (after, consumed + 1, recipient :: marked)
    | none =>
      let (after, consumed, marked) := consume parent journal rest
      let refused :=
        if recipient.reasonCode.isNone then
          { recipient with reasonCode := some "retry_already_requested" }
        else recipient
      (after, consumed, refused :: marked)

/-- `INSERT INTO broadcast_batches`. -/
def insertBatch (journal : Journal) (args : NewBatch) (batch : Batch) :
    Except Violation Journal :=
  if !batch.checks then .error .check
  else if journal.batches.contains args.batchId then .error .unique
  else if args.parentBatchId.any fun parent => !journal.batches.contains parent then
    .error .foreignKey
  else .ok { journal with batches := journal.batches.set args.batchId batch }

/-- `UPDATE .. SET schedule_key=NULL` of the parent's failed row. -/
def releaseScheduleKey (journal : Journal) (args : NewBatch) (recipient : Snapshot)
    (key : Option String) : Except Violation (Journal × Bool) :=
  match args.parentBatchId, key with
  | some parent, some key =>
    journal.updateRecipient (parent, recipient.recipientId)
      (fun row => row.state == .failed && row.scheduleKey == some key)
      fun row => { row with scheduleKey := none }
  | _, _ => .ok (journal, false)

/-- `INSERT .. ON CONFLICT DO NOTHING`: the primary key and the schedule key. -/
def conflicts (journal : Journal) (args : NewBatch) (recipient : Snapshot)
    (key : Option String) : Bool :=
  journal.recipients.contains (args.batchId, recipient.recipientId) ||
    (key.isSome && journal.recipients.values.any fun row => row.scheduleKey == key)

def insertRecipient (sha256 : String → String) (users : RecipientId → Bool) (args : NewBatch)
    (journal : Journal) (recipient : Snapshot) : Except Violation Journal := do
  let key := scheduleKey sha256 args recipient
  let (journal, _) ← journal.releaseScheduleKey args recipient key
  if users recipient.recipientId then
    match recipient.privacyEpoch with
    | none => .error .notNull
    | some epoch =>
      if journal.conflicts args recipient key then
        let (journal, _) ← journal.updateBatch args.batchId (fun _ => true) fun batch =>
          { batch with pending := batch.pending - 1, skipped := batch.skipped + 1 }
        return journal
      else
        return { journal with
          recipients := journal.recipients.set (args.batchId, recipient.recipientId)
            { channel := args.channel, privacyEpoch := epoch, scheduleKey := key
              slotDate := recipient.slotDate, state := .pending, ownerToken := none
              reasonCode := none, retryable := false, messageId := none } }
  else
    let (journal, _) ← journal.updateBatch args.batchId (fun _ => true) fun batch =>
      { batch with pending := batch.pending - 1, skipped := batch.skipped + 1 }
    return journal

/-- The parent's part of `create_batch`. -/
def consumeParent (journal : Journal) (args : NewBatch) :
    Except Violation (Journal × List Snapshot) :=
  match args.parentBatchId with
  | none => .ok (journal, args.recipients)
  | some parent => do
      let (journal, consumed, recipients) := consume parent journal args.recipients
      let (journal, _) ← journal.updateBatch parent (fun _ => true) fun batch =>
        { batch with retryableFailed := batch.retryableFailed - consumed }
      return (journal, recipients)

/-- `create_batch`: the batch with `_created`, or nothing beyond the capacity. -/
def createBatch (sha256 : String → String) (users : RecipientId → Bool) (journal : Journal)
    (args : NewBatch) : Except Violation (Journal × Option (Batch × Bool)) := do
  match journal.batches.values.find? fun batch => batch.operationId == args.operationId with
  | some existing => return (journal, some (existing, false))
  | none =>
    if 10 ≤ (journal.batches.values.filter fun batch => batch.state != .finished).length then
      return (journal, none)
    else
      let (journal, recipients) ← journal.consumeParent args
      let journal ← journal.insertBatch args (NewBatch.row args recipients)
      let eligible := recipients.filter fun recipient => recipient.reasonCode.isNone
      let journal ← eligible.foldlM (insertRecipient sha256 users args) journal
      return (journal, (journal.batches.get? args.batchId).map fun batch => (batch, true))

end Journal

/-- `{outcome}={outcome}+1`. -/
def Batch.credit (batch : Batch) : Disposition → Batch
  | .sent => { batch with sent := batch.sent + 1 }
  | .failed => { batch with failed := batch.failed + 1 }
  | .skipped => { batch with skipped := batch.skipped + 1 }
  | .unknownDelivery => { batch with unknownDelivery := batch.unknownDelivery + 1 }
  | _ => batch

/-! ## The other transactions -/

/-- `QueueAdmission`. -/
structure Admission where
  state : AdmissionState
  taskId : Option String
  reasonCode : Option String
  storageMode : String
  deriving DecidableEq, Repr

structure DeliveryResult where
  outcome : String
  reasonCode : String
  retryable : Bool
  messageId : Option Int
  deriving DecidableEq, Repr

/-- `SET` of the rows of a batch that the queue has not admitted. -/
def Recipient.reject (row : Recipient) : Recipient :=
  { row with state := .failed, reasonCode := some "queue_admission_rejected", retryable := true }

/-- `SET` of the open rows of an interrupted batch. -/
def Recipient.interrupt (row : Recipient) : Recipient :=
  { row with
    state := if row.state = .started then .unknownDelivery else .skipped
    reasonCode :=
      some (if row.state = .started then "worker_interrupted" else "batch_interrupted")
    retryable := false, ownerToken := none }

/-- `admission.reason_code or "admission_confirmed"`. -/
def Admission.reason (admission : Admission) : String :=
  match admission.reasonCode with
  | none => "admission_confirmed"
  | some reason => if reason = "" then "admission_confirmed" else reason

namespace Journal

def recordAdmission (journal : Journal) (id : BatchId) (admission : Admission) :
    Except Violation Journal := do
  let (journal, _) ← journal.updateBatch id (fun _ => true) fun batch =>
    { batch with
      admissionState := admission.state
      admissionReason := Admission.reason admission
      storageMode := admission.storageMode
      taskId := batch.taskId <|> admission.taskId
      state := if batch.state = .draft ∧ admission.taskId.isSome then .queued else batch.state }
  if admission.state = .rejected then
    let journal ← journal.updateRecipients id (fun row => row.state == .pending) Recipient.reject
    let (journal, _) ← journal.updateBatch id
      (fun batch => batch.state == .draft || batch.state == .queued) fun batch =>
        { batch with
          failed := batch.failed + batch.pending
          retryableFailed := batch.retryableFailed + batch.pending
          pending := 0, state := .finished }
    return journal
  else return journal

def claimBatch (journal : Journal) (id : BatchId) (task : String) (token : Token)
    (settingsRevision : Option Int) : Except Violation (Journal × Option Batch) := do
  let (journal, row) ← journal.updateBatch id
    (fun batch => (batch.taskId.isNone || batch.taskId == some task) &&
      (batch.state == .draft || batch.state == .queued)) fun batch =>
      { batch with state := .running, ownerToken := some token, settingsRevision }
  if row.isSome then
    let (journal, _) ← journal.updateBatch id (fun _ => true) fun batch =>
      { batch with taskId := some task }
    return (journal, row)
  else return (journal, row)

def claimRecipient (journal : Journal) (id : BatchId) (recipient : RecipientId)
    (batchToken token : Token) : Except Violation (Journal × Bool) := do
  let owned := (journal.batches.get? id).any fun batch =>
    batch.ownerToken == some batchToken && batch.state == .running
  let (journal, row) ← journal.updateRecipient (id, recipient)
    (fun row => owned && row.state == .pending) fun row =>
      { row with state := .started, ownerToken := some token }
  if row then
    let (journal, _) ← journal.updateBatch id (fun _ => true) fun batch =>
      { batch with pending := batch.pending - 1, started := batch.started + 1 }
    return (journal, true)
  else return (journal, false)

/-- `start_attempt` with the identifier it drew. -/
def startAttempt (journal : Journal) (attempt : AttemptId) (id : BatchId)
    (recipient : RecipientId) (token : Token) (sequence : Int) :
    Except Violation (Journal × Option AttemptId) :=
  match journal.recipients.get? (id, recipient), journal.batches.get? id with
  | some row, some batch =>
    if row.state = .started ∧ row.ownerToken = some token then
      if sequence ≤ 0 then .error .check
      else if journal.attempts.contains attempt ||
          journal.attempts.values.any fun other =>
            other.batchId == id && other.recipientId == recipient &&
              other.channel == row.channel && other.sequence == sequence then
        .error .unique
      else
        .ok ({ journal with
          attempts := journal.attempts.set attempt
            { batchId := id, recipientId := recipient, channel := row.channel
              sequence := sequence, ownerToken := token
              effectiveDate := row.slotDate.getD batch.effectiveDate
              settingsRevision := batch.settingsRevision, outcome := .started
              reasonCode := none, retryable := false, messageId := none } }, some attempt)
    else .ok (journal, none)
  | _, _ => .ok (journal, none)

/-- `finish_attempt`: an outcome outside the table's list violates its check. -/
def finishAttempt (journal : Journal) (id : AttemptId) (token : Token)
    (result : DeliveryResult) : Except Violation (Journal × Bool) :=
  match journal.attempts.get? id with
  | none => .ok (journal, false)
  | some attempt =>
    let row := journal.recipients.get? (attempt.batchId, attempt.recipientId)
    if attempt.ownerToken = token ∧ attempt.outcome = .started ∧
        (row.any fun row => row.channel == attempt.channel && row.state == .started &&
          row.ownerToken == some token) = true then
      let outcome :=
        if result.outcome = "started" then some .started
        else Disposition.ofOutcome result.outcome
      match outcome with
      | none => .error .check
      | some outcome =>
        if reasonMatches result.reasonCode then
          .ok ({ journal with
            attempts := journal.attempts.set id
              { attempt with
                outcome, reasonCode := some result.reasonCode
                retryable := result.retryable, messageId := result.messageId } }, true)
        else .error .check
    else .ok (journal, false)

def finishRecipient (journal : Journal) (id : BatchId) (recipient : RecipientId) (token : Token)
    (result : DeliveryResult) : Except Violation (Journal × Bool) :=
  match Disposition.ofOutcome result.outcome with
  | none => .error .invalidOutcome
  | some outcome => do
      let (journal, row) ← journal.updateRecipient (id, recipient)
        (fun row => row.ownerToken == some token && row.state == .started) fun row =>
          { row with
            state := outcome, reasonCode := some result.reasonCode
            retryable := result.retryable, messageId := result.messageId, ownerToken := none }
      if row then
        let (journal, _) ← journal.updateBatch id (fun _ => true) fun batch =>
          let credited := Batch.credit { batch with started := batch.started - 1 } outcome
          { credited with
            retryableFailed := credited.retryableFailed +
              if outcome = .failed ∧ result.retryable = true then 1 else 0 }
        return (journal, true)
      else return (journal, false)

def finishBatch (journal : Journal) (id : BatchId) (token : Token) :
    Except Violation (Journal × Bool) := do
  let (journal, row) ← journal.updateBatch id
    (fun batch => batch.ownerToken == some token && batch.pending == 0 && batch.started == 0)
    fun batch => { batch with state := .finished, ownerToken := none }
  return (journal, row.isSome)

/-- The open attempts of an interrupted batch. -/
def interruptAttempts (journal : Journal) (id : BatchId) : Except Violation Journal :=
  if reasonMatches "worker_interrupted" then
    .ok { journal with
      attempts := journal.attempts.adjust fun _ attempt =>
        if attempt.batchId = id ∧ attempt.outcome = .started then
          { attempt with outcome := .unknownDelivery, reasonCode := some "worker_interrupted" }
        else attempt }
  else .error .check

def interruptBatch (journal : Journal) (id : BatchId) : Except Violation Journal := do
  let journal ← journal.interruptAttempts id
  let journal ← journal.updateRecipients id
    (fun row => row.state == .pending || row.state == .started) Recipient.interrupt
  let (journal, _) ← journal.updateBatch id (fun batch => batch.state != .finished) fun batch =>
    { batch with
      state := .finished, ownerToken := none
      unknownDelivery := batch.unknownDelivery + batch.started
      skipped := batch.skipped + batch.pending, started := 0, pending := 0 }
  return journal

end Journal

/-! ## Runs of transactions -/

/-- A transaction of the journal; `users` tells which accounts exist when
`create_batch` inserts the recipients. -/
inductive Label where
  | createBatch (users : RecipientId → Bool) (args : NewBatch)
  | recordAdmission (id : BatchId) (admission : Admission)
  | claimBatch (id : BatchId) (task : String) (token : Token) (settingsRevision : Option Int)
  | claimRecipient (id : BatchId) (recipient : RecipientId) (batchToken token : Token)
  | startAttempt (attempt : AttemptId) (id : BatchId) (recipient : RecipientId) (token : Token)
      (sequence : Int)
  | finishAttempt (id : AttemptId) (token : Token) (result : DeliveryResult)
  | finishRecipient (id : BatchId) (recipient : RecipientId) (token : Token)
      (result : DeliveryResult)
  | finishBatch (id : BatchId) (token : Token)
  | interruptBatch (id : BatchId)

namespace Journal

def transact (sha256 : String → String) (journal : Journal) : Label → Except Violation Journal
  | .createBatch users args => Prod.fst <$> journal.createBatch sha256 users args
  | .recordAdmission id admission => journal.recordAdmission id admission
  | .claimBatch id task token settingsRevision =>
    Prod.fst <$> journal.claimBatch id task token settingsRevision
  | .claimRecipient id recipient batchToken token =>
    Prod.fst <$> journal.claimRecipient id recipient batchToken token
  | .startAttempt attempt id recipient token sequence =>
    Prod.fst <$> journal.startAttempt attempt id recipient token sequence
  | .finishAttempt id token result => Prod.fst <$> journal.finishAttempt id token result
  | .finishRecipient id recipient token result =>
    Prod.fst <$> journal.finishRecipient id recipient token result
  | .finishBatch id token => Prod.fst <$> journal.finishBatch id token
  | .interruptBatch id => journal.interruptBatch id

/-- A transaction that raises is rolled back. -/
def step (sha256 : String → String) (journal : Journal) (label : Label) : Journal :=
  (journal.transact sha256 label).toOption.getD journal

/-- What the callers promise: at most a hundred recipients, an attempt sequence
from one, the outcomes and reason codes of `DeliveryOwner`, and a rejected
admission only for a batch that no worker has claimed. -/
def Allowed (journal : Journal) : Label → Prop
  | .createBatch _ args => args.recipients.length ≤ 100
  | .recordAdmission id admission =>
    admission.state = .rejected → ∀ batch ∈ journal.batches.get? id, batch.state ≠ .running
  | .startAttempt _ _ _ _ sequence => 0 < sequence
  | .finishAttempt _ _ result =>
    (Disposition.ofOutcome result.outcome).isSome = true ∧ reasonMatches result.reasonCode = true
  | .finishRecipient _ _ _ result => reasonMatches result.reasonCode = true
  | _ => True

instance (journal : Journal) (label : Label) : Decidable (journal.Allowed label) := by
  cases label with
  | createBatch users args => exact inferInstanceAs (Decidable (args.recipients.length ≤ 100))
  | recordAdmission id admission =>
    exact inferInstanceAs (Decidable (admission.state = .rejected →
      ∀ batch ∈ journal.batches.get? id, batch.state ≠ .running))
  | startAttempt attempt id recipient token sequence =>
    exact inferInstanceAs (Decidable (0 < sequence))
  | finishAttempt id token result =>
    exact inferInstanceAs (Decidable (_ ∧ reasonMatches result.reasonCode = true))
  | finishRecipient id recipient token result =>
    exact inferInstanceAs (Decidable (reasonMatches result.reasonCode = true))
  | _ => exact instDecidableTrue

end Journal

end BobbyBotique.Broadcast
