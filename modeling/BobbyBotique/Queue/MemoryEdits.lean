import BobbyBotique.Queue.Ledger
import BobbyBotique.Queue.MemoryStore

/-!
# The elementary changes of the process-local store

The ledger of `MemoryQueueStore`, and the changes its commands are made of.
Each elementary change moves the records by the transitions of a job's life;
an invariant of the store is proved once for each of them.
-/

namespace BobbyBotique.Queue

namespace MemoryQueueStore

def ledger (s : MemoryQueueStore) : Ledger :=
  ⟨s.jobs.map MemoryJob.toJobRecord, s.sequence⟩

theorem ledger_get? (s : MemoryQueueStore) (id : TaskId) :
    s.ledger.records.get? id = (s.jobs.get? id).map MemoryJob.toJobRecord :=
  Dict.get?_map _ _ _

theorem ledger_of_get? {s : MemoryQueueStore} {id : TaskId} {m : MemoryJob}
    (found : s.jobs.get? id = some m) : s.ledger.records.get? id = some m.toJobRecord := by
  rw [ledger_get?, found, Option.map_some]

theorem get?_of_ledger {s : MemoryQueueStore} {id : TaskId} {record : JobRecord}
    (found : s.ledger.records.get? id = some record) :
    ∃ m, s.jobs.get? id = some m ∧ m.toJobRecord = record := by
  rw [ledger_get?, Option.map_eq_some_iff] at found
  exact found

/-- A record is stored under its own task id. -/
theorem named {s : MemoryQueueStore} (good : s.ledger.WellFormed) {id : TaskId} {m : MemoryJob}
    (found : s.jobs.get? id = some m) : m.taskId = id :=
  good.named id m.toJobRecord (ledger_of_get? found)

section Progress

variable {fresh : Prop} {now : Time} {cause : Cause} {s t : MemoryQueueStore}

/-- A phase that leaves the job table alone. -/
theorem progress_of_jobs_eq (jobs : t.jobs = s.jobs) (sequence : t.sequence = s.sequence) :
    Ledger.Progress fresh now cause s.ledger t.ledger := by
  have same : t.ledger = s.ledger := by rw [ledger, ledger, jobs, sequence]
  rw [same]
  exact Ledger.Progress.refl _

/-- A phase that writes one record back. -/
theorem progress_of_set (id : TaskId) (next : MemoryJob) {m : MemoryJob}
    (jobs : ∀ other, t.jobs.get? other = if other = id then some next else s.jobs.get? other)
    (sequence : t.sequence = s.sequence) (found : s.jobs.get? id = some m)
    (moves : Moves now cause m.toJobRecord next.toJobRecord) :
    Ledger.Progress fresh now cause s.ledger t.ledger := by
  refine ⟨sequence.symm.le, fun other => ?_⟩
  rw [ledger_get?, ledger_get?, jobs]
  by_cases same : other = id
  · rw [if_pos same, same, found]
    exact .kept moves
  · rw [if_neg same]
    exact .refl _

/-- A phase that removes one record. -/
theorem progress_of_del (id : TaskId) {m : MemoryJob}
    (jobs : ∀ other, t.jobs.get? other = if other = id then none else s.jobs.get? other)
    (sequence : t.sequence = s.sequence) (found : s.jobs.get? id = some m)
    (gone : Fate fresh now cause id s.sequence t.sequence (some m.toJobRecord) none) :
    Ledger.Progress fresh now cause s.ledger t.ledger := by
  refine ⟨sequence.symm.le, fun other => ?_⟩
  rw [ledger_get?, ledger_get?, jobs]
  by_cases same : other = id
  · rw [if_pos same, same, found]
    exact gone
  · rw [if_neg same]
    exact .refl _

end Progress

/-! ## Endings -/

/-- The record that `_terminal` leaves. -/
def ended (s : MemoryQueueStore) (now : Time) (m : MemoryJob) (state : JobState)
    (reason : Option String) (safeRetry : Bool) : MemoryJob :=
  { m with toJobRecord := m.terminal now state reason (s.retains m safeRetry) }

theorem terminal_jobs (s : MemoryQueueStore) (now : Time) (m : MemoryJob) (state : JobState)
    (reason : Option String) (safeRetry : Bool) :
    (s.terminal now m state reason safeRetry).jobs =
      s.jobs.set m.taskId (s.ended now m state reason safeRetry) := by
  unfold terminal ended
  cases s.retains m safeRetry <;> rfl

theorem terminal_operations (s : MemoryQueueStore) (now : Time) (m : MemoryJob)
    (state : JobState) (reason : Option String) (safeRetry : Bool) :
    (s.terminal now m state reason safeRetry).operations = s.operations := by
  unfold terminal
  cases s.retains m safeRetry <;> rfl

theorem terminal_lanes (s : MemoryQueueStore) (now : Time) (m : MemoryJob)
    (state : JobState) (reason : Option String) (safeRetry : Bool) :
    (s.terminal now m state reason safeRetry).lanes = s.lanes := by
  unfold terminal
  cases s.retains m safeRetry <;> rfl

theorem terminal_sequence (s : MemoryQueueStore) (now : Time) (m : MemoryJob)
    (state : JobState) (reason : Option String) (safeRetry : Bool) :
    (s.terminal now m state reason safeRetry).sequence = s.sequence := by
  unfold terminal
  cases s.retains m safeRetry <;> rfl

theorem retains_granted {s : MemoryQueueStore} {m : MemoryJob} {safeRetry : Bool}
    (kept : s.retains m safeRetry = true) : 0 < m.retryGrants := by
  simp only [retains, Bool.and_eq_true, decide_eq_true_eq] at kept
  exact kept.1.2

/-! ## Edits -/

/-- The unexpired entry of an idempotency identity. -/
def remembered (s : MemoryQueueStore) (now : Time) (identity : Identity) : Option Alias :=
  (s.identities.get? identity).filter fun previous => decide (now < previous.expiresAt)

/-- The store once the lane has a record. -/
def opened (s : MemoryQueueStore) (lane : Lane) (policy : QueuePolicy) : MemoryQueueStore :=
  { s with lanes := if s.lanes.contains lane then s.lanes
      else s.lanes.set lane (.initial policy) }

/-- The settings an admission to a lane is held to. -/
def laneRecord (s : MemoryQueueStore) (lane : Lane) (policy : QueuePolicy) : LaneRecord :=
  s.lanes.getD lane (.initial policy)

/-- The limits an admission to a lane is held to. -/
def limits (s : MemoryQueueStore) (lane : Lane) (policy : QueuePolicy) : QueuePolicy :=
  (boundedPolicy lane policy).meet (s.laneRecord lane (boundedPolicy lane policy)).policy

/-- The refusal of a submission by the limits of its lane, if any. -/
def refusal (s : MemoryQueueStore) (lane : Lane) (policy : QueuePolicy) (job : JobEnvelope)
    (credit : Nat) : Option String :=
  s.capacityReason lane (s.laneRecord lane (boundedPolicy lane policy)) (s.limits lane policy)
    job.payload.size credit

/--
The elementary changes of a store.  `fresh` stands for the promise that an
admission takes no task id that is still in the table.
-/
inductive Edit (fresh : Prop) (now : Time) (cause : Cause) :
    MemoryQueueStore → MemoryQueueStore → Prop where
  | rewrites {s : MemoryQueueStore} {m : MemoryJob} {next : JobRecord}
      (found : s.jobs.get? m.taskId = some m) (moves : Moves now cause m.toJobRecord next)
      (active : next.state.active = m.state.active) :
      Edit fresh now cause s (s.put { m with toJobRecord := next })
  | ends {s : MemoryQueueStore} {m : MemoryJob} {next : JobRecord} {state : JobState}
      {safeRetry : Bool} (found : s.jobs.get? m.taskId = some m)
      (moves : Moves now cause m.toJobRecord next) (reason : Option String)
      (how : Ending cause next state
        (s.retains { m with toJobRecord := next } safeRetry)) :
      Edit fresh now cause s
        (s.terminal now { m with toJobRecord := next } state reason safeRetry)
  | drops {s : MemoryQueueStore} {m : MemoryJob} (next : JobRecord)
      (found : s.jobs.get? m.taskId = some m)
      (moves : Moves now cause m.toJobRecord next.dropRetry)
      (active : next.state.active = m.state.active) :
      Edit fresh now cause s (s.dropPayload { m with toJobRecord := next })
  | removes {s : MemoryQueueStore} {m : MemoryJob} (sweeps : cause = .sweep)
      (found : s.jobs.get? m.taskId = some m) (outlived : m.outlived now = true) :
      Edit fresh now cause s
        { s with payloads := s.payloads.del m.taskId, jobs := s.jobs.del m.taskId }
  | erases {s : MemoryQueueStore} {m : MemoryJob} {members : List TaskId}
      (called : cause = .call (.eraseUser m.userId members))
      (found : s.jobs.get? m.taskId = some m) : Edit fresh now cause s (s.eraseJob m.taskId)
  | joins {s : MemoryQueueStore} {job : JobEnvelope} {lane : Lane} {owner : MemoryJob}
      (new : s.remembered now job.identity = none)
      (held : s.conflictOwner lane job.userId job.conflictKeys.keys = some owner)
      (aliases : owner.identityAliases.length < 256) :
      Edit fresh now cause s (s.coalesce now job owner)
  | accepts {s : MemoryQueueStore} {job : JobEnvelope} {policy : QueuePolicy} {lane : Lane}
      (called : cause = .call (.admitJob job policy))
      (clear : fresh → s.jobs.get? job.taskId = none)
      (new : s.remembered now job.identity = none)
      (free : s.conflictOwner lane job.userId job.conflictKeys.keys = none)
      (room : s.refusal lane policy job 0 = none) :
      Edit fresh now cause s
        ((s.opened lane (boundedPolicy lane policy)).accept now job lane (s.limits lane policy))
  | succeeds {s : MemoryQueueStore} {m : MemoryJob} {record : LaneRecord} {payload : Payload}
      {revision : Nat} {actor operationId : String} {epoch : Option Int}
      (called : cause = .call (.retryJob m.taskId revision actor operationId epoch))
      (found : s.jobs.get? m.taskId = some m) (ended : m.state.active = false)
      (eligible : m.retryEligible = true) (held : s.payloads.get? m.taskId = some payload)
      (lane : s.lanes.get? m.lane = some record)
      (clear : fresh → s.jobs.get? (.operation (operationKey actor operationId)) = none)
      (new : s.remembered now ⟨m.userId, .retry (operationKey actor operationId)⟩ = none)
      (free : s.conflictOwner m.lane m.userId m.conflictKeys.keys = none)
      (room : s.refusal m.lane record.policy
        (retryChild m (operationKey actor operationId) payload epoch) m.payloadBytes = none) :
      Edit fresh now cause s
        ((s.accept now (retryChild m (operationKey actor operationId) payload epoch) m.lane
            (s.limits m.lane record.policy)).handOver m
          (decide (TaskId.operation (operationKey actor operationId) = m.taskId)))
  | opens {s : MemoryQueueStore} (lane : Lane) (policy : QueuePolicy) :
      Edit fresh now cause s (s.opened lane policy)
  | sets {s : MemoryQueueStore} {lane : Lane} {record updated : LaneRecord}
      (found : s.lanes.get? lane = some record) (policy : updated.policy = record.policy) :
      Edit fresh now cause s { s with lanes := s.lanes.set lane updated }
  | notes {s : MemoryQueueStore} {command : Command} {key : OperationKey} {body : CommandBody}
      {target : Target} (called : cause = .call command) (operator : Operator command key body)
      (unused : s.operations.get? key = none) (targets : body.Targets target)
      (opened : ∀ lane, target = .lane lane → s.lanes.contains lane = true) :
      Edit fresh now cause s (s.remember now key body target)
  | disowns {s : MemoryQueueStore} {userId : Int} {members : List TaskId}
      (called : cause = .call (.eraseUser userId members))
      (keep : OperationKey → Operation → Bool) :
      Edit fresh now cause s { s with operations := s.operations.retain keep }
  | forgets (s : MemoryQueueStore) : Edit fresh now cause s (s.forget now)

/-- A sequence of elementary changes with one cause. -/
def Edits (fresh : Prop) (now : Time) (cause : Cause) :
    MemoryQueueStore → MemoryQueueStore → Prop :=
  Relation.ReflTransGen (Edit fresh now cause)

theorem eraseJob_jobs {s : MemoryQueueStore} {m : MemoryJob} {id : TaskId}
    (found : s.jobs.get? id = some m) : (s.eraseJob id).jobs = s.jobs.del id := by
  unfold eraseJob
  rw [found]
  rfl

theorem eraseJob_sequence (s : MemoryQueueStore) (id : TaskId) :
    (s.eraseJob id).sequence = s.sequence := by
  unfold eraseJob
  cases s.jobs.get? id <;> rfl

/-- The owner that a conflict key names is an active job of the table. -/
theorem conflictOwner_active {s : MemoryQueueStore} {lane : Lane} {userId : Int}
    {keys : List String} {owner : MemoryJob}
    (held : s.conflictOwner lane userId keys = some owner) :
    (∃ id, s.jobs.get? id = some owner) ∧ owner.state.active = true := by
  induction keys with
  | nil => cases held
  | cons key rest ih =>
    unfold conflictOwner at held
    split at held
    · next found taken =>
        obtain ⟨id, _, stored⟩ := Option.bind_eq_some_iff.mp taken
        split at held
        · next active =>
            cases held
            exact ⟨⟨id, stored⟩, active⟩
        · exact ih held
    · exact ih held

section Phases

variable {fresh : Prop} {now : Time} {cause : Cause} {s t : MemoryQueueStore}

theorem progress_accept (job : JobEnvelope) (lane : Lane) (policy : QueuePolicy)
    (admission : Admission now cause
      (JobRecord.admitted job lane policy now (s.sequence + 1) job.identity job.fingerprint))
    (clear : fresh → s.jobs.get? job.taskId = none) :
    Ledger.Progress fresh now cause s.ledger (s.accept now job lane policy).ledger := by
  refine ⟨Nat.le_succ _, fun other => ?_⟩
  rw [ledger_get?, ledger_get?]
  change Fate fresh now cause other s.sequence (s.sequence + 1) _
    (((s.jobs.set job.taskId _).get? other).map MemoryJob.toJobRecord)
  rw [Dict.get?_set]
  split
  · next same =>
      refine .born admission (fun holds => ?_) same.symm (Nat.lt_succ_self _) le_rfl
        (Moves.refl _)
      rw [same, clear holds]
      rfl
  · exact .refl _

/-- The record a retry spends stays in the table, unless the child took its place. -/
theorem progress_handOver {m : MemoryJob} (found : s.jobs.get? m.taskId = some m)
    (spends : Move now cause m.toJobRecord m.spendGrant.dropRetry) :
    Ledger.Progress fresh now cause s.ledger (s.handOver m false).ledger :=
  progress_of_set m.taskId { m with toJobRecord := m.spendGrant.dropRetry }
    (fun other => s.jobs.get?_set m.taskId other _) rfl found (Moves.single spends)

/-- An elementary change moves the records by the transitions of its cause. -/
theorem Edit.progress (edit : Edit fresh now cause s t) (good : s.ledger.WellFormed) :
    Ledger.Progress fresh now cause s.ledger t.ledger := by
  cases edit with
  | @rewrites m next found moves _ =>
    have named : next.taskId = m.taskId := moves.sameJob.taskId
    exact progress_of_set m.taskId { m with toJobRecord := next }
      (fun other => named ▸ s.jobs.get?_set next.taskId other _) rfl found moves
  | @ends m next state safeRetry found moves reason how =>
    have named : next.taskId = m.taskId := moves.sameJob.taskId
    refine progress_of_set m.taskId
      (s.ended now { m with toJobRecord := next } state reason safeRetry) (fun other => ?_)
      (terminal_sequence ..) found
      (moves.trans (Moves.single (.ending how reason retains_granted)))
    rw [terminal_jobs]
    exact named ▸ s.jobs.get?_set next.taskId other _
  | @drops m next found moves _ =>
    have named : next.taskId = m.taskId := moves.sameJob.taskId
    exact progress_of_set m.taskId { m with toJobRecord := next.dropRetry }
      (fun other => named ▸ s.jobs.get?_set next.taskId other _) rfl found moves
  | @removes m sweeps found outlived =>
    exact progress_of_del m.taskId (fun other => s.jobs.get?_del m.taskId other) rfl found
      (.expired sweeps (Moves.refl _) outlived)
  | @erases m members called found =>
    refine progress_of_del m.taskId (fun other => ?_) (eraseJob_sequence s m.taskId) found
      (.erased _ _ called)
    rw [eraseJob_jobs found]
    exact s.jobs.get?_del m.taskId other
  | @joins job lane owner _ held _ =>
    obtain ⟨⟨id, found⟩, _⟩ := conflictOwner_active held
    have same := named good found
    subst same
    exact progress_of_set owner.taskId
      { owner with identityAliases := owner.identityAliases ++ [job.identity] }
      (fun other => s.jobs.get?_set owner.taskId other _) rfl found (Moves.refl _)
  | @accepts job policy lane called clear _ _ _ =>
    have opens : Ledger.Progress fresh now cause s.ledger
        (s.opened lane (boundedPolicy lane policy)).ledger := progress_of_jobs_eq rfl rfl
    refine opens.trans (progress_accept job lane _ ?_ clear)
    rw [called]
    exact .admitJob job policy _ lane _ _ _
  | @succeeds m record payload revision actor operationId epoch called found ended _ _ _ clear _
      _ =>
      have accepts : Ledger.Progress fresh now cause s.ledger
          (s.accept now (retryChild m (operationKey actor operationId) payload epoch) m.lane
            (s.limits m.lane record.policy)).ledger := by
        refine progress_accept _ _ _ ?_ clear
        rw [called]
        exact .retry _ _ _ _ _ _ _ _ _ _ _ rfl rfl
      refine accepts.trans ?_
      by_cases replaced : TaskId.operation (operationKey actor operationId) = m.taskId
      · rw [decide_eq_true replaced]
        exact progress_of_jobs_eq rfl rfl
      · rw [decide_eq_false replaced]
        refine progress_handOver ?_ ?_
        · exact (s.jobs.get?_set_ne _ fun same => replaced same.symm).trans found
        · rw [called]
          exact .spend ended
  | opens | sets | notes | disowns | forgets => exact progress_of_jobs_eq rfl rfl

theorem Edits.progress (edits : Edits fresh now cause s t) (good : s.ledger.WellFormed) :
    Ledger.Progress fresh now cause s.ledger t.ledger := by
  induction edits with
  | refl => exact Ledger.Progress.refl _
  | tail _ last ih => exact ih.trans (last.progress (ih.wellFormed good))

theorem Edits.wellFormed (edits : Edits fresh now cause s t) (good : s.ledger.WellFormed) :
    t.ledger.WellFormed :=
  (edits.progress good).wellFormed good

theorem Edits.refl (s : MemoryQueueStore) : Edits fresh now cause s s :=
  Relation.ReflTransGen.refl

theorem Edits.single (edit : Edit fresh now cause s t) : Edits fresh now cause s t :=
  Relation.ReflTransGen.single edit

theorem Edits.trans {u : MemoryQueueStore} (first : Edits fresh now cause s t)
    (second : Edits fresh now cause t u) : Edits fresh now cause s u :=
  Relation.ReflTransGen.trans first second

end Phases

end MemoryQueueStore

end BobbyBotique.Queue
