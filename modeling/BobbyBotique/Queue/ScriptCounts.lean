import Mathlib.Algebra.Order.Group.Int
import BobbyBotique.Queue.ScriptCommands

/-!
# The counters of the Redis script

The hash under `counts:<lane>` is changed by hand.  A record contributes to a
few of its fields, and the slack of a field is what the counter shows beyond
the contributions of all records.  Every elementary change moves a counter by
what it does to the contribution of one record, except where a record is lost
without the script: overwritten by an admission, or gone with its key.
-/

namespace BobbyBotique.Queue

namespace Script

/-- What all records together add to a counter. -/
def contributed (db : Db) (lane : Lane) (field : CountField) : Int :=
  db.jobs.total fun _ m => contribution m lane field

/-- What a counter shows beyond the records. -/
def slack (db : Db) (lane : Lane) (field : CountField) : Int :=
  db.counts lane field - contributed db lane field

theorem contribution_nonneg (m : ScriptJob) (lane : Lane) (field : CountField) :
    0 ≤ contribution m lane field := by
  unfold contribution
  split
  · cases field with
    | payloadBytes => dsimp only; split <;> omega
    | _ => dsimp only; split <;> decide
  · exact le_rfl

/-- The fields a record's contribution depends on. -/
theorem contribution_congr (m next : ScriptJob) (sameLane : next.lane = m.lane)
    (state : next.state = m.state) (bytes : next.payloadBytes = m.payloadBytes)
    (accounted : next.payloadAccounted = m.payloadAccounted) (lane : Lane) (field : CountField) :
    contribution next lane field = contribution m lane field := by
  unfold contribution
  rw [sameLane, state, bytes, accounted]

/-! ## One elementary change -/

/-- How an elementary change moves one counter and the contributions to it. -/
inductive Balance (fresh : Db → TaskId → Prop) (now : Time) (cause : Cause) (lane : Lane)
    (field : CountField) : Db → Db → Prop where
  | unmoved {db after : Db} (jobs : after.jobs = db.jobs)
      (counts : after.counts lane field = db.counts lane field) :
      Balance fresh now cause lane field db after
  | changed {db after : Db} {id : TaskId} {m next : ScriptJob}
      (found : db.jobs.get? id = some m) (jobs : after.jobs = db.jobs.set id next)
      (counts : after.counts lane field + contribution m lane field =
        db.counts lane field + contribution next lane field) :
      Balance fresh now cause lane field db after
  | removed {db after : Db} {id : TaskId} {m : ScriptJob}
      (found : db.jobs.get? id = some m) (jobs : after.jobs = db.jobs.del id)
      (counts : after.counts lane field + contribution m lane field = db.counts lane field) :
      Balance fresh now cause lane field db after
  /-- An admission counts its record in, whatever it overwrites. -/
  | born {db after : Db} {id : TaskId} {next : ScriptJob} (clear : fresh db id)
      (jobs : after.jobs = db.jobs.set id next)
      (counts : after.counts lane field = db.counts lane field + contribution next lane field) :
      Balance fresh now cause lane field db after
  /-- A retry counts its child in, and then saves its parent, also over the child. -/
  | succeeded {db after : Db} {id parent : TaskId} {m next child : ScriptJob}
      (clear : fresh db id) (found : db.jobs.get? parent = some m)
      (eligible : m.retryEligible = true)
      (jobs : after.jobs = (db.jobs.set id child).set parent next)
      (counts : after.counts lane field + contribution m lane field =
        db.counts lane field + contribution next lane field + contribution child lane field) :
      Balance fresh now cause lane field db after
  /-- Keys run out without the script. -/
  | expired {db : Db} : Balance fresh now cause lane field db (expire db now)
  /-- The metadata pass counts out what the owner entry says. -/
  | forgotten {db after : Db} {id : TaskId} {owner : Owner} (sweeps : cause = .sweep)
      (due : ∃ score, db.expiryMetadata.get? id = some score ∧ score ≤ now)
      (found : db.owners.get? id = some owner) (jobs : after.jobs = db.jobs)
      (counts : after.counts lane field = db.counts lane field +
        if lane = owner.lane ∧ field = .state owner.state then -1 else 0) :
      Balance fresh now cause lane field db after
  /-- A claim of another lane counts a start in the lane it is called for. -/
  | strayed {db after : Db} {m : ScriptJob} {other : Lane}
      (found : db.jobs.get? m.taskId = some m)
      (listed : (db.ready other).contains m.taskId = true) (elsewhere : m.lane ≠ other)
      (running : field = .running) : Balance fresh now cause lane field db after

section Procedures

/-- Counters that follow a record in every field of its lane are balanced. -/
theorem balanced {before after : Lane → CountField → Int} (m next : ScriptJob)
    (state : JobState) (accounted : Bool) (sameLane : next.lane = m.lane)
    (sameBytes : next.payloadBytes = m.payloadBytes) (becomes : next.state = state)
    (accounts : next.payloadAccounted = accounted)
    (elsewhere : ∀ lane field, lane ≠ m.lane → after lane field = before lane field)
    (nonterminal : after m.lane .nonterminal + (if m.state.active then 1 else 0) =
      before m.lane .nonterminal + if state.active then 1 else 0)
    (running : after m.lane .running + (if m.state.owned then 1 else 0) =
      before m.lane .running + if state.owned then 1 else 0)
    (bytes : after m.lane .payloadBytes +
        (if m.payloadAccounted then (m.payloadBytes : Int) else 0) =
      before m.lane .payloadBytes + if accounted then (m.payloadBytes : Int) else 0)
    (states : ∀ each, after m.lane (.state each) + (if each = m.state then 1 else 0) =
      before m.lane (.state each) + if each = state then 1 else 0)
    (lane : Lane) (field : CountField) :
    after lane field + contribution m lane field =
      before lane field + contribution next lane field := by
  subst becomes accounts
  unfold contribution
  by_cases same : lane = m.lane
  · subst same
    rw [if_pos rfl, if_pos sameLane.symm]
    cases field with
    | nonterminal => exact nonterminal
    | running => exact running
    | payloadBytes => rw [sameBytes]; exact bytes
    | state each => exact states each
  · rw [if_neg same, if_neg (sameLane ▸ same), elsewhere lane field same]

variable (db : Db) (now : Time) (m : ScriptJob) (lane : Lane) (field : CountField)

theorem dropPayload_apply :
    (dropPayload db m).counts lane field = db.counts lane field +
        if m.payloadAccounted = true ∧ lane = m.lane ∧ field = .payloadBytes then
          -(m.payloadBytes : Int) else 0 := by
  unfold dropPayload
  cases m.payloadAccounted <;> simp

/-- The payload of a record is counted out once. -/
theorem dropPayload_counts :
    (dropPayload db m).counts lane field + contribution m lane field =
      db.counts lane field + contribution (unaccounted m) lane field := by
  apply balanced m (unaccounted m) m.state false rfl rfl rfl rfl
  all_goals simp only [dropPayload_apply]
  · intro lane field ne
    simp [ne]
  · simp
  · simp
  · cases m.payloadAccounted <;> simp
  · simp

theorem transition_apply (state : JobState) :
    (transition db m state).counts lane field =
      db.counts lane field + (if lane = m.lane ∧ field = .state m.state then -1 else 0) +
        if lane = m.lane ∧ field = .state state then 1 else 0 := by
  simp only [transition, hincrby_apply]

theorem releaseRunning_apply :
    (releaseRunning db m).counts lane field = db.counts lane field +
        if m.state.owned = true ∧ lane = m.lane ∧ field = .running then -1 else 0 := by
  unfold releaseRunning
  cases m.state.owned <;> simp

/-- A counter follows a record between two states of one kind. -/
theorem transition_counts {next : ScriptJob} {state : JobState} (sameLane : next.lane = m.lane)
    (bytes : next.payloadBytes = m.payloadBytes)
    (accounted : next.payloadAccounted = m.payloadAccounted) (becomes : next.state = state)
    (active : m.state.active = true) (stays : state.active = true)
    (owned : state.owned = m.state.owned) :
    (transition db m state).counts lane field + contribution m lane field =
      db.counts lane field + contribution next lane field := by
  apply balanced m next state m.payloadAccounted sameLane bytes becomes accounted
  all_goals simp only [transition_apply]
  · intro lane field ne
    simp [ne]
  · simp [active, stays]
  · simp [owned]
  · simp
  · intro each
    simp only [true_and, CountField.state.injEq]
    split_ifs <;> omega

/-- The same for a held record that is given up. -/
theorem release_counts {next : ScriptJob} {state : JobState} (sameLane : next.lane = m.lane)
    (bytes : next.payloadBytes = m.payloadBytes)
    (accounted : next.payloadAccounted = m.payloadAccounted) (becomes : next.state = state)
    (owned : m.state.owned = true) (waits : state.waiting = true) :
    (transition (releaseRunning db m) m state).counts lane field + contribution m lane field =
      db.counts lane field + contribution next lane field := by
  have released := JobState.owned_eq_false_of_waiting waits
  have active := JobState.active_of_owned owned
  have stays : state.active = true := by rw [JobState.active_eq, waits, Bool.or_true]
  apply balanced m next state m.payloadAccounted sameLane bytes becomes accounted
  all_goals simp only [transition_apply, releaseRunning_apply, owned, released, active, stays]
  · intro lane field ne
    simp [ne]
  · simp
  · simp
  · simp
  · intro each
    simp only [true_and, CountField.state.injEq, reduceCtorEq, if_false]
    split_ifs <;> omega

/-- An owner's retry counts the job from its lease to its lane. -/
theorem requeueRetry_counts (delay : Time) (reason : Option String)
    (owned : m.state.owned = true) :
    (requeueRetry db now m delay reason).counts lane field + contribution m lane field =
      db.counts lane field + contribution (requeued m now delay reason) lane field := by
  have counts : (requeueRetry db now m delay reason).counts =
      (transition (releaseRunning db m) m (requeued m now delay reason).state).counts := by
    unfold requeueRetry
    dsimp only [save]
    split <;> rfl
  rw [counts]
  exact release_counts db m lane field rfl rfl rfl rfl owned
    (m.requeueRetry_waiting now delay reason)

/-- An admission counts its record in. -/
theorem accept_counts (submission : Submission) (policy : QueuePolicy) (record : LaneRecord) :
    (accept db now submission policy record).counts lane field = db.counts lane field +
        contribution (accepted submission policy now (db.sequence + 1)) lane field := by
  have counts : (accept db now submission policy record).counts lane field =
      hincrby (hincrby (hincrby db.counts submission.lane .nonterminal 1) submission.lane
        .payloadBytes submission.job.payload.size) submission.lane
        (.state (accepted submission policy now (db.sequence + 1)).state) 1 lane field := by
    unfold accept
    dsimp only
    split <;> rfl
  have waits : (accepted submission policy now (db.sequence + 1)).state.waiting = true :=
    JobRecord.admitted_waiting ..
  have active : (accepted submission policy now (db.sequence + 1)).state.active = true := by
    rw [JobState.active_eq, waits, Bool.or_true]
  rw [counts]
  unfold contribution
  rw [JobState.owned_eq_false_of_waiting waits, active]
  simp only [hincrby_apply]
  have sameLane : (accepted submission policy now (db.sequence + 1)).lane = submission.lane := rfl
  have bytes : (accepted submission policy now (db.sequence + 1)).payloadBytes =
    submission.job.payload.size := rfl
  have accounted : (accepted submission policy now (db.sequence + 1)).payloadAccounted = true :=
    rfl
  rw [sameLane, bytes, accounted]
  by_cases same : lane = submission.lane
  · cases field <;> simp [same]
  · simp [same]

/-- A start counts the job in the lane it is claimed for. -/
theorem start_apply (other : Lane) (ownerToken : String) :
    (start db now other m ownerToken).counts lane field =
      (transition db m .running).counts lane field +
        if lane = other ∧ field = .running then 1 else 0 := by
  have counts : (start db now other m ownerToken).counts =
      hincrby (transition db m .running).counts other .running 1 := by
    unfold start extendKeys
    dsimp only [save]
    split <;> rfl
  rw [counts, hincrby_apply]

theorem started_fields (ownerToken : String) :
    (started m now ownerToken).lane = m.lane ∧
      (started m now ownerToken).payloadBytes = m.payloadBytes := by
  rcases m.extendDaily_cases now (executionBudget m.toJobRecord) with same | same <;>
    simp only [started, same, JobRecord.start, and_self]

theorem start_counts (other : Lane) (ownerToken : String) (queued : m.state = .queued)
    (placed : m.lane = other ∨ field ≠ .running) :
    (start db now other m ownerToken).counts lane field + contribution m lane field =
      db.counts lane field + contribution (started m now ownerToken) lane field := by
  have there : (start db now other m ownerToken).counts lane field =
      (start db now m.lane m ownerToken).counts lane field := by
    rcases placed with same | other'
    · rw [same]
    · rw [start_apply, start_apply]
      simp [other']
  rw [there]
  obtain ⟨sameLane, bytes⟩ := started_fields now m ownerToken
  apply balanced m (started m now ownerToken) .running m.payloadAccounted sameLane bytes rfl rfl
  all_goals simp only [start_apply, transition_apply, queued]
  · intro lane field ne
    simp [ne]
  · simp [JobState.active]
  · simp [JobState.owned]
  · simp
  · intro each
    simp only [true_and, CountField.state.injEq, reduceCtorEq, and_false, if_false]
    split_ifs <;> omega

/-- An erasure counts its record out. -/
theorem eraseRecord_counts (id : TaskId) :
    (eraseRecord db m id).counts lane field + contribution m lane field =
      db.counts lane field := by
  have counts : (eraseRecord db m id).counts lane field = db.counts lane field +
        (if m.state.active = true ∧ lane = m.lane ∧ field = .nonterminal then -1 else 0) +
        (if lane = m.lane ∧ field = .state m.state then -1 else 0) +
        (if m.state.owned = true ∧ lane = m.lane ∧ field = .running then -1 else 0) +
        if m.payloadAccounted = true ∧ lane = m.lane ∧ field = .payloadBytes then
          -(m.payloadBytes : Int) else 0 := by
    unfold eraseRecord
    dsimp only
    rw [dropPayload_apply]
    change (releaseRunning _ m).counts lane field + _ = _
    rw [releaseRunning_apply]
    dsimp only
    rw [hincrby_apply]
    cases m.state.active with
    | false => simp only [Bool.false_eq_true, false_and, if_false, add_zero]
    | true => simp only [if_true, true_and, hincrby_apply]
  rw [counts]
  unfold contribution
  by_cases same : lane = m.lane
  · cases field with
    | nonterminal => cases m.state.active <;> simp [same]
    | running => cases m.state.owned <;> simp [same]
    | payloadBytes => cases m.payloadAccounted <;> simp [same]
    | state each =>
      simp only [same, true_and, reduceCtorEq, and_false, if_false, CountField.state.injEq, if_true]
      split_ifs <;> omega
  · simp [same]

end Procedures

section Phases

variable {fresh : Db → TaskId → Prop} {now : Time} {cause : Cause} {db after : Db}

/-- A retry counts its child in and its parent's payload out. -/
theorem balance_succeeds (lane : Lane) (field : CountField) {m : ScriptJob}
    (found : db.jobs.get? m.taskId = some m) (eligible : m.retryEligible = true)
    {submission : Submission} (clear : fresh db submission.job.taskId) (policy : QueuePolicy)
    (record : LaneRecord) :
    Balance fresh now cause lane field db
      (handOver (accept db now submission policy record) m) := by
  have admitted := accept_counts db now lane field submission policy record
  have dropped := dropPayload_counts (accept db now submission policy record) m lane field
  have jobs : (handOver (accept db now submission policy record) m).jobs =
      (db.jobs.set submission.job.taskId
        (accepted submission policy now (db.sequence + 1))).set m.taskId
          (unaccounted { m with toJobRecord := m.spendGrant }) := by
    change (accept db now submission policy record).jobs.set m.taskId _ = _
    rw [accept_jobs]
  refine .succeeded clear found eligible jobs ?_
  change (dropPayload (accept db now submission policy record) m).counts lane field + _ =
    _ + contribution (unaccounted m) lane field + _
  omega

/-- Every elementary change is balanced, or loses a record without counting it out. -/
theorem Edit.balance (edit : Edit fresh now cause db after) (lane : Lane) (field : CountField) :
    Balance fresh now cause lane field db after := by
  cases edit with
  | expires => exact .expired
  | @drops m _ found _ =>
    exact .changed found rfl (dropPayload_counts db m lane field)
  | @endsUnpaid m _ found active =>
    have ended : (if m.uncertain then JobState.unknownDelivery else .expired).active = false := by
      split <;> rfl
    have first := dropPayload_counts db m lane field
    have second := terminal_counts (dropPayload db m) now (unaccounted m) _
      (some "payload_expired") false ended lane field
    refine .changed found (terminal_jobs ..) ?_
    omega
  | @ends m next state safe found moves same reason how =>
    have job := moves.sameJob
    have counts := terminal_counts db now { m with toJobRecord := next } state reason safe
      how.active_ends.2 lane field
    have weight : contribution { m with toJobRecord := next } lane field =
        contribution m lane field :=
      contribution_congr m { m with toJobRecord := next } job.lane same.1 job.payloadBytes rfl
        lane field
    have jobs := terminal_jobs db now { m with toJobRecord := next } state reason safe
    refine .changed (job.taskId ▸ found) jobs ?_
    rw [weight] at counts
    exact counts
  | @requeuesLost m _ found running _ _ =>
    exact .changed found rfl (release_counts db m lane field rfl rfl rfl rfl
      (by rw [running]; rfl) rfl)
  | @promotes m other _ found delayed _ =>
    exact .changed found rfl (transition_counts
      { db with delayed := atLane db.delayed other fun set => set.del m.taskId } m lane field
      rfl rfl rfl rfl (by rw [delayed]; rfl) rfl (by rw [delayed]; rfl))
  | @forgets id sweeps due =>
    cases found : db.owners.get? id with
    | none =>
      refine .unmoved ?_ ?_ <;>
      · unfold metadataStep
        rw [found]
    | some owner =>
      refine .forgotten sweeps due found ?_ ?_
      · unfold metadataStep
        rw [found]
      · unfold metadataStep
        rw [found]
        exact hincrby_apply ..
  | accepts _ clear =>
    exact .born clear (accept_jobs ..) (accept_counts ..)
  | @succeeds m payload revision actor operationId epoch called found offered clear takes =>
    exact balance_succeeds lane field found (retryable?_eq_some offered).2.2.1 clear _ _
  | @starts m other ownerToken called found listed queued _ _ _ =>
    by_cases placed : m.lane = other ∨ field ≠ .running
    · exact .changed found (start_jobs ..)
        (start_counts db now m lane field other ownerToken queued placed)
    · obtain ⟨elsewhere, running⟩ := not_or.mp placed
      exact .strayed found listed elsewhere (not_not.mp running)
  | @beats m ownerToken revision _ found _ =>
    exact .changed found rfl rfl
  | @annotates m next found moves same =>
    have job := moves.sameJob
    have state : next.state = m.state := by
      rcases same with ⟨update, rfl⟩ | ⟨token, rfl⟩ <;> rfl
    have weight := contribution_congr m { m with toJobRecord := next } job.lane state
      job.payloadBytes rfl lane field
    refine .changed (job.taskId ▸ found) rfl ?_
    rw [weight]
    rfl
  | @requeuesRetry m ownerToken revision result delay update _ found owned _ _ _ _ =>
    exact .changed found (requeueRetry_jobs ..)
      (requeueRetry_counts db now { m with toJobRecord := m.summarise update } lane field delay
        result.reasonCode owned.owned)
  | @requestsCancel m actor operationId _ found owned =>
    exact .changed found rfl (transition_counts db m lane field rfl rfl rfl rfl
      (JobState.active_of_owned owned) rfl owned.symm)
  | @handsOver m revision actor operationId epoch _ found _ =>
    exact .changed found rfl (dropPayload_counts db m lane field)
  | @erases userId members id _ =>
    cases found : db.jobs.get? id with
    | none =>
      refine .unmoved ?_ ?_ <;>
      · unfold eraseStep
        rw [found]
        rfl
    | some m =>
      refine .removed found ?_ ?_
      · unfold eraseStep
        rw [found]
        rfl
      · unfold eraseStep
        rw [found]
        exact eraseRecord_counts db m lane field id
  | unlistsPayload | unlistsDeadline | unlistsRunning | unlistsDelayed | unlistsReady | joins
  | remembers | setsLane => exact .unmoved rfl rfl

/-- A key that has run out held the record of a job that had ended. -/
theorem expire_keeps {m : ScriptJob}
    (dropped : (m.metadataExpiresAt.elim true fun expiry => decide (now < expiry)) = false) :
    m.outlived now = true := by
  unfold JobRecord.outlived
  generalize m.metadataExpiresAt = expiry at dropped ⊢
  cases expiry with
  | none => cases dropped
  | some expiry' => simpa using dropped

/-- A job whose metadata has run out is not active. -/
theorem inactive_of_outlived {m : JobRecord} (good : m.WellFormed)
    (outlived : m.outlived now = true) : m.state.active = false := by
  cases active : m.state.active with
  | false => rfl
  | true =>
    rw [JobRecord.outlived, good.unexpired active] at outlived
    cases outlived

/-- What a change adds to a total. -/
theorem contributed_set {db after : Db} {id : TaskId} {next : ScriptJob} (lane : Lane)
    (field : CountField) (jobs : after.jobs = db.jobs.set id next) :
    contributed after lane field +
        (db.jobs.get? id).elim 0 (fun m => contribution m lane field) =
      contributed db lane field + contribution next lane field := by
  rw [contributed, jobs]
  exact db.jobs.total_set (fun _ m => contribution m lane field) id next

/-- What a retry adds to a total: its child, and the change of its parent. -/
theorem contributed_succeeded {db after : Db} {id parent : TaskId} {m next child : ScriptJob}
    (lane : Lane) (field : CountField) (found : db.jobs.get? parent = some m)
    (jobs : after.jobs = (db.jobs.set id child).set parent next) :
    contributed after lane field + contribution m lane field ≤
        contributed db lane field + contribution next lane field +
          contribution child lane field ∧
      (parent ≠ id → (db.jobs.get? id).elim 0 (fun m => contribution m lane field) = 0 →
        contributed after lane field + contribution m lane field =
          contributed db lane field + contribution next lane field +
            contribution child lane field) := by
  have first := @contributed_set db { db with jobs := db.jobs.set id child } id child lane field rfl
  have second := @contributed_set { db with jobs := db.jobs.set id child } after parent next lane
    field jobs
  have weight := contribution_nonneg child lane field
  by_cases same : parent = id
  · subst same
    rw [found, Option.elim_some] at first
    rw [Dict.get?_set_self, Option.elim_some] at second
    exact ⟨by omega, fun apart => absurd rfl apart⟩
  · rw [Dict.get?_set_ne _ _ same, found, Option.elim_some] at second
    have lost : 0 ≤ (db.jobs.get? id).elim 0 (fun m => contribution m lane field) := by
      cases db.jobs.get? id with
      | none => exact le_rfl
      | some old => exact contribution_nonneg old lane field
    exact ⟨by omega, fun _ nothing => by omega⟩

theorem contributed_del {db after : Db} {id : TaskId} {m : ScriptJob} (lane : Lane)
    (field : CountField) (found : db.jobs.get? id = some m)
    (jobs : after.jobs = db.jobs.del id) :
    contributed after lane field + contribution m lane field = contributed db lane field := by
  have total := db.jobs.total_del (fun _ m => contribution m lane field) id
  simp only [Dict.weightAt, found, Option.elim_some] at total
  rw [contributed, jobs]
  exact total

/-- The record of the id, if there is one, is at its end in every respect. -/
def Free (db : Db) (id : TaskId) : Prop :=
  ∀ m, db.jobs.get? id = some m →
    m.state.active = false ∧ m.payloadAccounted = false ∧ m.retryEligible = false

/-- What is promised of a task id says that its record, if any, is at its end. -/
def Frees (fresh : Db → TaskId → Prop) : Prop := ∀ db id, fresh db id → Free db id

/-- An ended record adds nothing to the counters of what is to be run or paid for. -/
theorem contribution_ended {m : ScriptJob} {field : CountField} (lane : Lane)
    (ended : m.state.active = false)
    (unpaid : field = .payloadBytes → m.payloadAccounted = false)
    (active : ∀ state, field = .state state → state.active = true) :
    contribution m lane field = 0 := by
  have released := JobState.owned_eq_false_of_ended ended
  unfold contribution
  split
  · cases field with
    | nonterminal => simp [ended]
    | running => simp [released]
    | payloadBytes => simp [unpaid rfl]
    | state state =>
      have ne : state ≠ m.state := by
        rintro rfl
        exact absurd (ended.symm.trans (active _ rfl)) Bool.false_ne_true
      simp [ne]
  · rfl

/-- What a counter needs so that no change of the keys goes uncounted. -/
structure Tracked (fresh : Db → TaskId → Prop) (now : Time) (cause : Cause) (field : CountField)
    (db : Db) : Prop where
  clear : ∀ id, fresh db id → Free db id
  placed : field = .running → ∀ lane m, db.jobs.get? m.taskId = some m →
    (db.ready lane).contains m.taskId = true → m.lane = lane
  paid : field = .payloadBytes → ∀ id m, db.jobs.get? id = some m → m.outlived now = true →
    m.payloadAccounted = false
  active : ∀ state, field = .state state → state.active = true
  kept : cause = .sweep → ∀ state, field = .state state → ∀ id owner,
    (∃ score, db.expiryMetadata.get? id = some score ∧ score ≤ now) →
    db.owners.get? id = some owner → owner.state ≠ state

/-- A tracked counter follows the records exactly. -/
theorem Balance.slack_eq {lane : Lane} {field : CountField}
    (balance : Balance fresh now cause lane field db after) (good : (ledger db).WellFormed)
    (tracked : Tracked fresh now cause field db) :
    slack after lane field = slack db lane field := by
  unfold slack
  have nothing : ∀ id, fresh db id →
      (db.jobs.get? id).elim 0 (fun m => contribution m lane field) = 0 := by
    intro id clear
    cases found : db.jobs.get? id with
    | none => rfl
    | some m =>
      obtain ⟨ended, unpaid, _⟩ := tracked.clear id clear m found
      exact contribution_ended lane ended (fun _ => unpaid) tracked.active
  cases balance with
  | unmoved jobs counts => simp only [contributed, jobs, counts]
  | changed found jobs counts =>
    have total := contributed_set lane field jobs
    simp only [found, Option.elim_some] at total
    omega
  | removed found jobs counts =>
    have total := contributed_del lane field found jobs
    omega
  | @born _ id next clear jobs counts =>
    have total := contributed_set lane field jobs
    rw [nothing id clear] at total
    omega
  | succeeded clear found eligible jobs counts =>
    have total := (contributed_succeeded lane field found jobs).2 (fun same => ?_)
      (nothing _ clear)
    · omega
    · have spent := (tracked.clear _ clear _ (same ▸ found)).2.2
      exact absurd (spent.symm.trans eligible) Bool.false_ne_true
  | expired =>
    have total : contributed (expire db now) lane field = contributed db lane field := by
      refine db.jobs.total_retain
        (fun _ m => m.metadataExpiresAt.elim true fun expiry => decide (now < expiry))
        fun id m found dropped => ?_
      have outlived := expire_keeps dropped
      have inactive := inactive_of_outlived (good.record id _ (ledger_of_get? found)) outlived
      exact contribution_ended lane inactive (fun paid => tracked.paid paid id m found outlived)
        tracked.active
    have counts : (expire db now).counts lane field = db.counts lane field := rfl
    omega
  | @forgotten _ id owner sweeps due found jobs counts =>
    have same : after.counts lane field = db.counts lane field := by
      rw [counts]
      cases field with
      | state state =>
        have ne := tracked.kept sweeps state rfl id owner due found
        simp [Ne.symm ne]
      | _ => simp
    simp only [contributed, jobs, same]
  | strayed found listed elsewhere running =>
    exact absurd (tracked.placed running _ _ found listed) elsewhere

end Phases

end Script

end BobbyBotique.Queue
