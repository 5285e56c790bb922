import BobbyBotique.Queue.Ledger
import BobbyBotique.Queue.Script

/-!
# The elementary changes of the Redis script

The ledger of the script's keys, and the changes its actions are made of.  A
procedure that keeps the record and the indexes in step is one change; so is
the removal of an index entry that no record asks for any more.
-/

namespace BobbyBotique.Queue

namespace Script

def ledger (db : Db) : Ledger := ⟨db.jobs.map ScriptJob.toJobRecord, db.sequence⟩

theorem ledger_get? (db : Db) (id : TaskId) :
    (ledger db).records.get? id = (db.jobs.get? id).map ScriptJob.toJobRecord :=
  Dict.get?_map _ _ _

theorem ledger_of_get? {db : Db} {id : TaskId} {m : ScriptJob}
    (found : db.jobs.get? id = some m) :
    (ledger db).records.get? id = some m.toJobRecord := by
  rw [ledger_get?, found, Option.map_some]

theorem get?_of_ledger {db : Db} {id : TaskId} {record : JobRecord}
    (found : (ledger db).records.get? id = some record) :
    ∃ m, db.jobs.get? id = some m ∧ m.toJobRecord = record := by
  rw [ledger_get?, Option.map_eq_some_iff] at found
  exact found

/-- A record is stored under its own task id. -/
theorem named {db : Db} (good : (ledger db).WellFormed) {id : TaskId} {m : ScriptJob}
    (found : db.jobs.get? id = some m) : m.taskId = id :=
  good.named id m.toJobRecord (ledger_of_get? found)

section Progress

variable {fresh : Prop} {now : Time} {cause : Cause} {db after : Db}

/-- A change that leaves the job keys alone. -/
theorem progress_of_jobs_eq (jobs : after.jobs = db.jobs)
    (sequence : after.sequence = db.sequence) :
    Ledger.Progress fresh now cause (ledger db) (ledger after) := by
  have same : ledger after = ledger db := by rw [ledger, ledger, jobs, sequence]
  rw [same]
  exact Ledger.Progress.refl _

/-- A change that saves one record. -/
theorem progress_of_set (id : TaskId) (next : ScriptJob) {m : ScriptJob}
    (jobs : after.jobs = db.jobs.set id next) (sequence : after.sequence = db.sequence)
    (found : db.jobs.get? id = some m)
    (moves : Moves now cause m.toJobRecord next.toJobRecord) :
    Ledger.Progress fresh now cause (ledger db) (ledger after) := by
  refine ⟨sequence.symm.le, fun other => ?_⟩
  rw [ledger_get?, ledger_get?, jobs, Dict.get?_set]
  by_cases same : other = id
  · rw [if_pos same, same, found]
    exact .kept moves
  · rw [if_neg same]
    exact .refl _

end Progress

/-! ## What the procedures write -/

section Frames

variable (db : Db) (now : Time) (m : ScriptJob) (state : JobState) (reason : Option String)
  (safe : Bool)

@[simp] theorem hincrby_apply (counts : Lane → CountField → Int) (lane other : Lane)
    (field each : CountField) (amount : Int) :
    hincrby counts lane field amount other each =
      counts other each + if other = lane ∧ each = field then amount else 0 := by
  unfold hincrby
  split
  · rfl
  · rw [add_zero]

theorem terminal_jobs :
    (terminal db now m state reason safe).jobs =
      db.jobs.set m.taskId (ended db now m state reason safe) := by
  unfold terminal
  cases retains db m safe <;> cases m.state.active <;> rfl

theorem terminal_operation : (terminal db now m state reason safe).operation = db.operation := by
  unfold terminal
  cases retains db m safe <;> cases m.state.active <;> rfl

theorem terminal_sequence : (terminal db now m state reason safe).sequence = db.sequence := by
  unfold terminal
  cases retains db m safe <;> cases m.state.active <;> rfl

theorem terminal_deadline :
    (terminal db now m state reason safe).deadline = db.deadline.del m.taskId := by
  unfold terminal
  cases retains db m safe <;> cases m.state.active <;> rfl

theorem terminal_running :
    (terminal db now m state reason safe).running = db.running.del m.taskId := by
  unfold terminal
  cases retains db m safe <;> cases m.state.active <;> rfl

theorem terminal_ready :
    (terminal db now m state reason safe).ready =
      atLane db.ready m.lane fun set => set.del m.taskId := by
  unfold terminal
  cases retains db m safe <;> cases m.state.active <;> rfl

theorem terminal_permit :
    (terminal db now m state reason safe).permit =
      db.permit.filter fun permit => !decide (m.ownerToken = some permit.token) := by
  unfold terminal
  cases retains db m safe <;> cases m.state.active <;> rfl

theorem terminal_expiryMetadata :
    (terminal db now m state reason safe).expiryMetadata =
      db.expiryMetadata.set m.taskId (now + metadataRetention) := by
  unfold terminal
  cases retains db m safe <;> cases m.state.active <;> rfl

theorem terminal_owners :
    (terminal db now m state reason safe).owners =
      db.owners.set m.taskId ⟨m.userId, m.lane, state⟩ := by
  unfold terminal
  cases retains db m safe <;> cases m.state.active <;> rfl

theorem terminal_expiryPayload :
    (terminal db now m state reason safe).expiryPayload =
      if retains db m safe then db.expiryPayload.set m.taskId (now + retryPayloadRetention)
      else db.expiryPayload.del m.taskId := by
  unfold terminal
  cases retains db m safe <;> cases m.state.active <;> rfl

/-- What a record adds to a counter of a lane. -/
def contribution (m : ScriptJob) (lane : Lane) (field : CountField) : Int :=
  if lane = m.lane then
    match field with
    | .nonterminal => if m.state.active then 1 else 0
    | .running => if m.state.owned then 1 else 0
    | .payloadBytes => if m.payloadAccounted then m.payloadBytes else 0
    | .state state => if state = m.state then 1 else 0
  else 0

/-- The counters follow an ended record. -/
theorem terminal_counts (ended : state.active = false) (lane : Lane) (field : CountField) :
    (terminal db now m state reason safe).counts lane field + contribution m lane field =
      db.counts lane field +
        contribution (Script.ended db now m state reason safe) lane field := by
  have released := JobState.owned_eq_false_of_ended ended
  have counts : (terminal db now m state reason safe).counts =
      let counted :=
        if m.state.active then hincrby db.counts m.lane .nonterminal (-1) else db.counts
      let freed := if m.state.owned then hincrby counted m.lane .running (-1) else counted
      let moved := hincrby (hincrby freed m.lane (.state m.state) (-1)) m.lane (.state state) 1
      if retains db m safe then moved
      else if m.payloadAccounted then hincrby moved m.lane .payloadBytes (-m.payloadBytes)
      else moved := by
    unfold terminal
    cases retains db m safe <;> cases m.state.active <;> rfl
  rw [counts]
  by_cases same : lane = m.lane
  · subst same
    have lane : (Script.ended db now m state reason safe).lane = m.lane := rfl
    have state' : (Script.ended db now m state reason safe).state = state := rfl
    have accounted : (Script.ended db now m state reason safe).payloadAccounted =
      (retains db m safe && m.payloadAccounted) := rfl
    have bytes : (Script.ended db now m state reason safe).payloadBytes = m.payloadBytes := rfl
    cases field with
    | nonterminal =>
      simp only [contribution, lane, state', ended]
      cases m.state.active <;> cases m.state.owned <;> cases retains db m safe <;>
        cases m.payloadAccounted <;> simp
    | running =>
      simp only [contribution, lane, state', released]
      cases m.state.active <;> cases m.state.owned <;> cases retains db m safe <;>
        cases m.payloadAccounted <;> simp
    | payloadBytes =>
      simp only [contribution, lane, accounted, bytes]
      cases m.state.active <;> cases m.state.owned <;> cases retains db m safe <;>
        cases m.payloadAccounted <;> simp
    | state each =>
      simp only [contribution, lane, state']
      cases m.state.active <;> cases m.state.owned <;> cases retains db m safe <;>
        cases m.payloadAccounted <;> simp <;> split_ifs <;> simp
  · have lane' : lane ≠ (Script.ended db now m state reason safe).lane := same
    simp only [contribution, if_neg same, if_neg lane', add_zero]
    cases m.state.active <;> cases m.state.owned <;> cases retains db m safe <;>
      cases m.payloadAccounted <;> simp [same]

end Frames

/-! ## Edits -/

/-- The limits a submission is held to. -/
def limits (db : Db) (submission : Submission) (policy : QueuePolicy) : QueuePolicy :=
  (policy.meet (scriptCeiling submission.lane)).meet
    (laneState db submission.lane (policy.meet (scriptCeiling submission.lane))).policy

/-- A submission passes every test of the admission. -/
structure Takes (db : Db) (submission : Submission) (policy : QueuePolicy) (credit : Nat) :
    Prop where
  new : db.idem.get? submission.identity = none
  free : conflictOwner db submission.lane submission.conflictKeys = none
  room : capacityReason db submission.lane
    (laneState db submission.lane (policy.meet (scriptCeiling submission.lane)))
    (limits db submission policy) submission.job.payload.size credit = none

/-- The store after a submission that passes every test. -/
def taken (db : Db) (now : Time) (submission : Submission) (policy : QueuePolicy) : Db :=
  accept db now submission (limits db submission policy)
    (laneState db submission.lane (policy.meet (scriptCeiling submission.lane)))

/-- The bytes that an accepted retry gives back. -/
def credit (m : ScriptJob) : Nat := if m.payloadAccounted then m.payloadBytes else 0

/--
The elementary changes of the keys.  `fresh` is what is promised of a task id
that an admission takes.
-/
inductive Edit (fresh : Db → TaskId → Prop) (now : Time) (cause : Cause) : Db → Db → Prop where
  | expires {db : Db} (sweeps : cause = .sweep) : Edit fresh now cause db (expire db now)
  | unlistsPayload {db : Db} {id : TaskId} (gone : db.jobs.get? id = none) :
      Edit fresh now cause db { db with expiryPayload := db.expiryPayload.del id }
  | unlistsDeadline {db : Db} {id : TaskId}
      (idle : ∀ m, db.jobs.get? id = some m → m.state.active = false) :
      Edit fresh now cause db { db with deadline := db.deadline.del id }
  | unlistsRunning {db : Db} {id : TaskId}
      (free : ∀ m, db.jobs.get? id = some m → m.state.owned = false) :
      Edit fresh now cause db { db with running := db.running.del id }
  | unlistsDelayed {db : Db} {id : TaskId} (lane : Lane)
      (moved : ∀ m, db.jobs.get? id = some m → m.state ≠ .delayed) :
      Edit fresh now cause db
        { db with delayed := atLane db.delayed lane fun set => set.del id }
  | unlistsReady {db : Db} {id : TaskId} (lane : Lane)
      (moved : ∀ m, db.jobs.get? id = some m → m.state ≠ .queued) :
      Edit fresh now cause db { db with ready := atLane db.ready lane fun set => set.del id }
  | drops {db : Db} {m : ScriptJob} (sweeps : cause = .sweep)
      (found : db.jobs.get? m.taskId = some m) (ended : m.state.active = false) :
      Edit fresh now cause db (save (dropPayload db m) (unaccounted m))
  | endsUnpaid {db : Db} {m : ScriptJob} (sweeps : cause = .sweep)
      (found : db.jobs.get? m.taskId = some m) (active : m.state.active = true) :
      Edit fresh now cause db
        (terminal (dropPayload db m) now (unaccounted m)
          (if m.uncertain then .unknownDelivery else .expired) (some "payload_expired") false)
  | ends {db : Db} {m : ScriptJob} {next : JobRecord} {state : JobState} {safe : Bool}
      (found : db.jobs.get? m.taskId = some m) (moves : Moves now cause m.toJobRecord next)
      (same : next.state = m.state ∧ next.ownerToken = m.ownerToken) (reason : Option String)
      (how : Ending cause next state (retains db { m with toJobRecord := next } safe)) :
      Edit fresh now cause db
        (terminal db now { m with toJobRecord := next } state reason safe)
  | requeuesLost {db : Db} {m : ScriptJob} (sweeps : cause = .sweep)
      (found : db.jobs.get? m.taskId = some m) (running : m.state = .running)
      (safe : m.effectful = false) (left : m.attemptsStarted < m.maxAttempts) :
      Edit fresh now cause db (requeueLost db m)
  | promotes {db : Db} {m : ScriptJob} (lane : Lane) (sweeps : cause = .sweep)
      (found : db.jobs.get? m.taskId = some m) (delayed : m.state = .delayed)
      (listed : (db.delayed lane).contains m.taskId = true) :
      Edit fresh now cause db
        (promote { db with delayed := atLane db.delayed lane fun set => set.del m.taskId } m)
  | forgets {db : Db} {id : TaskId} (sweeps : cause = .sweep)
      (due : ∃ score, db.expiryMetadata.get? id = some score ∧ score ≤ now) :
      Edit fresh now cause db (metadataStep db id)
  | joins {db : Db} {submission : Submission} {existing : TaskId}
      (new : db.idem.get? submission.identity = none)
      (held : conflictOwner db submission.lane submission.conflictKeys = some existing) :
      Edit fresh now cause db
        { db with
          idem := db.idem.set submission.identity
            ⟨existing, submission.fingerprint, now + metadataRetention⟩
          identities := addAlias db.identities existing submission.identity }
  | accepts {db : Db} {job : JobEnvelope} {policy : QueuePolicy} {lane : Lane}
      (called : cause = .call (.admitJob job policy)) (clear : fresh db job.taskId)
      (takes : Takes db (submission job lane) (boundedPolicy lane policy) 0) :
      Edit fresh now cause db
        (taken db now (submission job lane) (boundedPolicy lane policy))
  | succeeds {db : Db} {m : ScriptJob} {payload : Payload} {revision : Nat}
      {actor operationId : String} {epoch : Option Int}
      (called : cause = .call (.retryJob m.taskId revision actor operationId epoch))
      (found : db.jobs.get? m.taskId = some m)
      (offered : retryable? db m epoch = some payload)
      (clear : fresh db (.operation (operationKey actor operationId)))
      (takes : Takes db
        (retryChild m (operationKey actor operationId) (.retry m.taskId revision) payload epoch)
        (lanePolicies m.lane) (credit m)) :
      Edit fresh now cause db
        (handOver
          (taken db now
            (retryChild m (operationKey actor operationId) (.retry m.taskId revision) payload epoch)
            (lanePolicies m.lane))
          m)
  | starts {db : Db} {m : ScriptJob} {lane : Lane} {ownerToken : String}
      (called : cause = .call (.claim lane ownerToken))
      (found : db.jobs.get? m.taskId = some m)
      (listed : (db.ready lane).contains m.taskId = true) (queued : m.state = .queued)
      (left : m.attemptsStarted < m.maxAttempts)
      (idle : m.imageWork = true → db.permit = none)
      (payload : db.payload.contains m.taskId = true) :
      Edit fresh now cause db (start db now lane m ownerToken)
  | beats {db : Db} {m : ScriptJob} {ownerToken : String} {revision : Nat}
      (called : cause = .call (.heartbeat m.taskId ownerToken revision))
      (found : db.jobs.get? m.taskId = some m)
      (owned : m.toJobRecord.OwnedBy ownerToken revision) :
      Edit fresh now cause db
        (save
          { db with
            running := db.running.set m.taskId (now + ownerLease)
            permit := db.permit.map fun permit =>
              if m.imageWork ∧ permit.token = ownerToken then
                { permit with expiresAt := now + ownerLease }
              else permit }
          { m with toJobRecord := m.beat now })
  | annotates {db : Db} {m : ScriptJob} {next : JobRecord}
      (found : db.jobs.get? m.taskId = some m) (moves : Moves now cause m.toJobRecord next)
      (same : (∃ update, next = m.summarise update) ∨ ∃ token, next = m.settledBy token) :
      Edit fresh now cause db (save db { m with toJobRecord := next })
  | requeuesRetry {db : Db} {m : ScriptJob} {ownerToken : String} {revision : Nat}
      {result : JobResult} {delay : Time} (update : PublicSummary)
      (called : cause = .call (.finish m.taskId ownerToken revision result delay))
      (found : db.jobs.get? m.taskId = some m)
      (owned : m.toJobRecord.OwnedBy ownerToken revision) (running : m.state = .running)
      (outcome : result.outcome = .retryableFailure)
      (left : m.attemptsStarted < m.maxAttempts) (timely : now + delay < m.queueDeadlineAt) :
      Edit fresh now cause db
        (requeueRetry db now { m with toJobRecord := m.summarise update } delay
          result.reasonCode)
  | requestsCancel {db : Db} {m : ScriptJob} {actor operationId : String}
      (called : cause = .call (.requestCancel m.taskId m.revision actor operationId))
      (found : db.jobs.get? m.taskId = some m) (owned : m.state.owned = true) :
      Edit fresh now cause db
        (save (transition db m .cancelRequested) { m with toJobRecord := m.requestCancel })
  | handsOver {db : Db} {m : ScriptJob} {revision : Nat} {actor operationId : String}
      {epoch : Option Int}
      (called : cause = .call (.retryJob m.taskId revision actor operationId epoch))
      (found : db.jobs.get? m.taskId = some m) (ended : m.state.active = false) :
      Edit fresh now cause db (handOver db m)
  | remembers {db : Db} {command : Command} {key : OperationKey} {body : CommandBody}
      {target : Target} (commanded : Option TaskId) (called : cause = .call command)
      (operator : Operator command key body) (unused : db.operation.get? key = none)
      (targets : body.Targets target) :
      Edit fresh now cause db (remember db now key body target commanded)
  | setsLane {db : Db} {lane : Lane} {updated : LaneRecord}
      (policy : updated.policy = (laneState db lane (lanePolicies lane)).policy) :
      Edit fresh now cause db { db with lane := db.lane.set lane updated }
  | erases {db : Db} {userId : Int} {members : List TaskId} (id : TaskId)
      (called : cause = .call (.eraseUser userId members)) :
      Edit fresh now cause db (eraseStep userId db id)

/-- What is promised of a task id says that it has no record. -/
def Clears (fresh : Db → TaskId → Prop) : Prop :=
  ∀ db id, fresh db id → db.jobs.get? id = none

/-- A sequence of elementary changes with one cause. -/
def Edits (fresh : Db → TaskId → Prop) (now : Time) (cause : Cause) : Db → Db → Prop :=
  Relation.ReflTransGen (Edit fresh now cause)

theorem retryable?_eq_some {db : Db} {m : ScriptJob} {epoch : Option Int} {payload : Payload}
    (offered : retryable? db m epoch = some payload) :
    db.payload.contains m.taskId = true ∧ m.state.active = false ∧ m.retryEligible = true ∧
      0 < m.retryGrants := by
  unfold retryable? at offered
  split at offered
  · next entry held =>
      split at offered
      · next tests =>
          obtain ⟨ended, eligible, granted, _⟩ := tests
          refine ⟨by rw [Dict.contains, held]; rfl, ?_, eligible, by omega⟩
          rcases ended with state | state <;> rw [state] <;> rfl
      · cases offered
  · cases offered

theorem retains_granted {db : Db} {m : ScriptJob} {safe : Bool}
    (kept : retains db m safe = true) : 0 < m.retryGrants := by
  simp only [retains, Bool.and_eq_true, decide_eq_true_eq] at kept
  exact kept.1.2

theorem accept_jobs (db : Db) (now : Time) (submission : Submission) (policy : QueuePolicy)
    (lane : LaneRecord) :
    (accept db now submission policy lane).jobs =
      db.jobs.set submission.job.taskId (accepted submission policy now (db.sequence + 1)) := by
  unfold accept
  dsimp only
  split <;> rfl

theorem accept_sequence (db : Db) (now : Time) (submission : Submission) (policy : QueuePolicy)
    (lane : LaneRecord) : (accept db now submission policy lane).sequence = db.sequence + 1 := by
  unfold accept
  dsimp only
  split <;> rfl

@[simp] theorem started_taskId (m : ScriptJob) (now : Time) (ownerToken : String) :
    (started m now ownerToken).taskId = m.taskId := by
  rcases m.extendDaily_cases now (executionBudget m.toJobRecord) with same | same <;>
    simp only [started, same, JobRecord.start]

theorem start_jobs (db : Db) (now : Time) (lane : Lane) (m : ScriptJob) (ownerToken : String) :
    (start db now lane m ownerToken).jobs =
      db.jobs.set m.taskId (started m now ownerToken) := by
  unfold start extendKeys
  dsimp only [save]
  rw [started_taskId]
  split <;> rfl

theorem start_sequence (db : Db) (now : Time) (lane : Lane) (m : ScriptJob)
    (ownerToken : String) : (start db now lane m ownerToken).sequence = db.sequence := by
  unfold start extendKeys
  dsimp only [save]
  split <;> rfl

/-- The record of an owner's retry. -/
def requeued (m : ScriptJob) (now delay : Time) (reason : Option String) : ScriptJob :=
  { m with toJobRecord := m.requeueRetry now delay reason }

theorem requeueRetry_jobs (db : Db) (now : Time) (m : ScriptJob) (delay : Time)
    (reason : Option String) :
    (requeueRetry db now m delay reason).jobs =
      db.jobs.set m.taskId (requeued m now delay reason) := by
  unfold requeueRetry
  dsimp only [save]
  split <;> rfl

theorem requeueRetry_sequence (db : Db) (now : Time) (m : ScriptJob) (delay : Time)
    (reason : Option String) :
    (requeueRetry db now m delay reason).sequence = db.sequence := by
  unfold requeueRetry
  dsimp only [save]
  split <;> rfl

section Phases

variable {fresh : Db → TaskId → Prop} {now : Time} {cause : Cause} {db after : Db}

theorem progress_accept (submission : Submission) (policy : QueuePolicy) (lane : LaneRecord)
    (admission : Admission now cause
      (accepted submission policy now (db.sequence + 1)).toJobRecord)
    (clear : fresh db submission.job.taskId) :
    Ledger.Progress (Clears fresh) now cause (ledger db)
      (ledger (accept db now submission policy lane)) := by
  have sequence := accept_sequence db now submission policy lane
  refine ⟨?_, fun other => ?_⟩
  · change db.sequence ≤ (accept db now submission policy lane).sequence
    omega
  · rw [ledger_get?, ledger_get?, accept_jobs, Dict.get?_set]
    change Fate (Clears fresh) now cause other db.sequence
      (accept db now submission policy lane).sequence _ _
    rw [sequence]
    split
    · next same =>
        refine .born admission (fun clears => ?_) same.symm (Nat.lt_succ_self _) le_rfl
          (Moves.refl _)
        rw [same, clears db _ clear]
        rfl
    · exact .refl _

/-- A retry: the child is born and the parent, also over the child, is saved again. -/
theorem progress_succeeds {m : ScriptJob} {submission : Submission} {policy : QueuePolicy}
    {lane : LaneRecord} (found : db.jobs.get? m.taskId = some m)
    (jobs : after = handOver (accept db now submission policy lane) m)
    (admission : Admission now cause
      (accepted submission policy now (db.sequence + 1)).toJobRecord)
    (clear : fresh db submission.job.taskId)
    (spends : Move now cause m.toJobRecord m.spendGrant.dropRetry) :
    Ledger.Progress (Clears fresh) now cause (ledger db) (ledger after) := by
  subst jobs
  have accepts := progress_accept submission policy lane admission clear
  refine ⟨accepts.counted, fun other => ?_⟩
  have fate := accepts.fate other
  rw [ledger_get?, ledger_get?] at fate ⊢
  change Fate (Clears fresh) now cause other _ _ _
    ((((accept db now submission policy lane).jobs.set m.taskId _).get? other).map _)
  rw [Dict.get?_set]
  by_cases same : other = m.taskId
  · rw [if_pos same, same, found]
    exact .kept (Moves.single spends)
  · rw [if_neg same]
    exact fate

theorem metadataStep_jobs (db : Db) (id : TaskId) : (metadataStep db id).jobs = db.jobs := by
  unfold metadataStep
  cases db.owners.get? id <;> rfl

theorem eraseStep_jobs (db : Db) (userId : Int) (id other : TaskId) :
    (eraseStep userId db id).jobs.get? other =
      if other = id then none else db.jobs.get? other := by
  unfold eraseStep
  cases found : db.jobs.get? id with
  | none =>
    dsimp only [Option.elim_none]
    split
    · next same => rw [same, found]
    · rfl
  | some m => exact db.jobs.get?_del id other

theorem eraseStep_sequence (db : Db) (userId : Int) (id : TaskId) :
    (eraseStep userId db id).sequence = db.sequence := by
  unfold eraseStep
  cases db.jobs.get? id with
  | none | some => rfl

/-- An elementary change moves the records by the transitions of its cause. -/
theorem Edit.progress (edit : Edit fresh now cause db after) :
    Ledger.Progress (Clears fresh) now cause (ledger db) (ledger after) := by
  cases edit with
  | expires sweeps =>
    refine ⟨le_rfl, fun id => ?_⟩
    rw [ledger_get?, ledger_get?]
    change Fate (Clears fresh) now cause id _ _ _ (((db.jobs.retain _).get? id).map _)
    rw [Dict.get?_retain]
    cases found : db.jobs.get? id with
    | none => exact .absent
    | some m =>
      rw [Option.filter_some, Option.map_some]
      split
      · exact .refl _
      · next expiredNow =>
          refine .expired sweeps (Moves.refl _) ?_
          cases expiry : m.metadataExpiresAt with
          | none =>
            rw [expiry] at expiredNow
            exact absurd rfl expiredNow
          | some expiry' =>
            rw [expiry] at expiredNow
            simp only [Option.elim_some, decide_eq_true_eq, not_lt] at expiredNow
            simp only [JobRecord.outlived, expiry, Option.elim_some, decide_eq_true_eq]
            exact expiredNow
  | @drops m sweeps found ended =>
    subst sweeps
    exact progress_of_set m.taskId (unaccounted m) rfl rfl found
      (Moves.single (.payloadDropped ended))
  | @endsUnpaid m sweeps found active =>
    subst sweeps
    refine progress_of_set m.taskId _ (terminal_jobs ..) (terminal_sequence ..) found ?_
    exact Moves.single (.ending (.overdue active) _ fun kept => by cases kept)
  | @ends m next state safe found moves _ reason how =>
    have named : next.taskId = m.taskId := moves.sameJob.taskId
    refine progress_of_set m.taskId
      (ended db now { m with toJobRecord := next } state reason safe) ?_
      (terminal_sequence ..) found
      (moves.trans (Moves.single (.ending how reason retains_granted)))
    rw [terminal_jobs, ← named]
  | @requeuesLost m sweeps found running safe left =>
    subst sweeps
    exact progress_of_set m.taskId { m with toJobRecord := m.requeueLost } rfl rfl found
      (Moves.single (.requeueLost running safe left))
  | @promotes m lane sweeps found delayed _ =>
    subst sweeps
    exact progress_of_set m.taskId { m with toJobRecord := m.promote } rfl rfl found
      (Moves.single (.promote delayed))
  | @forgets id sweeps _ =>
    refine progress_of_jobs_eq ?_ ?_ <;>
    · unfold metadataStep
      cases db.owners.get? id <;> rfl
  | @accepts job policy lane called clear _ =>
    subst called
    exact progress_accept _ _ _ (.admitJob ..) clear
  | @succeeds m payload revision actor operationId epoch called found offered clear _ =>
    subst called
    obtain ⟨_, ended, _, _⟩ := retryable?_eq_some offered
    exact progress_succeeds found rfl (.retry _ _ _ _ _ _ _ _ _ _ _ rfl rfl) clear
      (.spend ended)
  | @starts m lane ownerToken called found _ queued left _ _ =>
    subst called
    exact progress_of_set m.taskId (started m now ownerToken)
      (start_jobs db now lane m ownerToken) (start_sequence db now lane m ownerToken) found
      (Moves.single (.start _ queued left))
  | @beats m ownerToken revision called found owned =>
    subst called
    exact progress_of_set m.taskId { m with toJobRecord := m.beat now } rfl rfl found
      (Moves.single (.beat owned))
  | @annotates m next found moves _ =>
    have named : next.taskId = m.taskId := moves.sameJob.taskId
    refine progress_of_set m.taskId { m with toJobRecord := next } ?_ rfl found moves
    rw [← named]
    rfl
  | @requeuesRetry m ownerToken revision result delay update called found owned running outcome
      left _ =>
      subst called
      have owned' := owned.summarise update
      have second : Move now (.call (.finish m.taskId ownerToken revision result delay))
          (m.summarise update) ((m.summarise update).requeueRetry now delay result.reasonCode) :=
        .requeueRetry owned' running outcome left
      exact progress_of_set m.taskId _ (requeueRetry_jobs ..) (requeueRetry_sequence ..) found
        ((Moves.single (.result owned update)).trans (Moves.single second))
  | @requestsCancel m actor operationId called found owned =>
    subst called
    exact progress_of_set m.taskId { m with toJobRecord := m.requestCancel } rfl rfl found
      (Moves.single (.requestCancel owned))
  | @handsOver m revision actor operationId epoch called found ended =>
    subst called
    exact progress_of_set m.taskId _ rfl rfl found (Moves.single (.spend ended))
  | @erases userId members id called =>
    refine ⟨(eraseStep_sequence db userId id).symm.le, fun other => ?_⟩
    rw [ledger_get?, ledger_get?, eraseStep_jobs]
    split
    · cases db.jobs.get? other with
      | none => exact .absent
      | some m => exact .erased userId members called
    · exact .refl _
  | unlistsPayload | unlistsDeadline | unlistsRunning | unlistsDelayed | unlistsReady | joins
  | remembers | setsLane => exact progress_of_jobs_eq rfl rfl

theorem Edits.progress (edits : Edits fresh now cause db after) :
    Ledger.Progress (Clears fresh) now cause (ledger db) (ledger after) := by
  induction edits with
  | refl => exact Ledger.Progress.refl _
  | tail _ last ih => exact ih.trans last.progress

theorem Edits.wellFormed (edits : Edits fresh now cause db after)
    (good : (ledger db).WellFormed) : (ledger after).WellFormed :=
  edits.progress.wellFormed good

theorem Edits.refl (db : Db) : Edits fresh now cause db db := Relation.ReflTransGen.refl

theorem Edits.single (edit : Edit fresh now cause db after) : Edits fresh now cause db after :=
  Relation.ReflTransGen.single edit

theorem Edits.trans {middle : Db} (first : Edits fresh now cause db middle)
    (second : Edits fresh now cause middle after) : Edits fresh now cause db after :=
  Relation.ReflTransGen.trans first second

/-- What every elementary change keeps holds after a phase. -/
theorem Edits.keeps {holds : Db → Prop}
    (step : ∀ old new, (ledger old).WellFormed → Edit fresh now cause old new → holds old →
      holds new)
    (edits : Edits fresh now cause db after) (good : (ledger db).WellFormed)
    (initial : holds db) : holds after := by
  induction edits with
  | refl => exact initial
  | tail rest last ih => exact step _ _ (Edits.wellFormed rest good) last ih

end Phases

end Script

end BobbyBotique.Queue
