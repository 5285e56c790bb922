import BobbyBotique.Queue.ScriptCommands

/-!
# The due indexes of the Redis script

An active record is listed under its deadline and under the expiry of its
payload, and a held one under the end of its lease.  A pass that takes the
whole of what is due therefore meets every record that is due.
-/

namespace BobbyBotique.Queue

namespace Script

/-- The index entries of a record. -/
structure Listed (db : Db) (id : TaskId) (m : JobRecord) : Prop where
  deadline : m.state.active = true → db.deadline.get? id = some m.deadlineAt
  payload : m.state.active = true → db.expiryPayload.get? id = some m.payloadExpiresAt
  running : m.state.owned = true →
    db.running.get? id = m.heartbeatAt.map fun beat => beat + ownerLease

/-- Every record is listed under what it can fall due by. -/
def Indexed (db : Db) : Prop :=
  ∀ id m, db.jobs.get? id = some m → Listed db id m.toJobRecord

theorem Listed.of_inactive {db : Db} {id : TaskId} {m : JobRecord}
    (ended : m.state.active = false) : Listed db id m where
  deadline active := absurd (ended.symm.trans active) Bool.false_ne_true
  payload active := absurd (ended.symm.trans active) Bool.false_ne_true
  running owned :=
    absurd (ended.symm.trans (JobState.active_of_owned owned)) Bool.false_ne_true

/-- A change that touches one task id keeps the others listed. -/
theorem Indexed.update {db after : Db} (indexed : Indexed db) (id : TaskId)
    (jobs : ∀ other, other ≠ id → after.jobs.get? other = db.jobs.get? other)
    (deadline : ∀ other, other ≠ id → after.deadline.get? other = db.deadline.get? other)
    (payload : ∀ other, other ≠ id → after.expiryPayload.get? other = db.expiryPayload.get? other)
    (running : ∀ other, other ≠ id → after.running.get? other = db.running.get? other)
    (entry : ∀ m, after.jobs.get? id = some m → Listed after id m.toJobRecord) :
    Indexed after := by
  intro other m found
  by_cases same : other = id
  · subst same
    exact entry m found
  · have listed := indexed other m (jobs other same ▸ found)
    exact
      { deadline := fun active => (deadline other same).trans (listed.deadline active)
        payload := fun active => (payload other same).trans (listed.payload active)
        running := fun owned => (running other same).trans (listed.running owned) }

theorem Indexed.congr {db after : Db} (indexed : Indexed db) (jobs : after.jobs = db.jobs)
    (deadline : after.deadline = db.deadline)
    (payload : after.expiryPayload = db.expiryPayload) (running : after.running = db.running) :
    Indexed after := by
  intro id m found
  have listed := indexed id m (jobs ▸ found)
  exact ⟨deadline ▸ listed.deadline, payload ▸ listed.payload, running ▸ listed.running⟩

section Phases

variable {fresh : Db → TaskId → Prop} {now : Time} {cause : Cause} {db after : Db}

/-- A saved record that is not active needs no entry. -/
theorem entry_of_set {id : TaskId} (db : Db) (next : ScriptJob)
    (jobs : after.jobs = db.jobs.set id next)
    (listed : Listed after id next.toJobRecord) :
    ∀ m, after.jobs.get? id = some m → Listed after id m.toJobRecord := by
  intro m found
  rw [jobs, Dict.get?_set_self] at found
  cases found
  exact listed

theorem indexed_terminal (indexed : Indexed db) (m : ScriptJob) (state : JobState)
    (reason : Option String) (safe : Bool) (ended : state.active = false) :
    Indexed (terminal db now m state reason safe) := by
  refine indexed.update m.taskId (fun other ne => ?_) (fun other ne => ?_) (fun other ne => ?_)
    (fun other ne => ?_) (entry_of_set _ _ (terminal_jobs ..) (Listed.of_inactive ended))
  · rw [terminal_jobs, Dict.get?_set_ne _ _ ne]
  · rw [terminal_deadline, Dict.get?_del_ne _ ne]
  · rw [terminal_expiryPayload]
    split
    · exact Dict.get?_set_ne _ _ ne
    · exact Dict.get?_del_ne _ ne
  · rw [terminal_running, Dict.get?_del_ne _ ne]

/-- The payload of a record that is not active leaves the index. -/
theorem indexed_drop (indexed : Indexed db) {m : ScriptJob} {next : ScriptJob}
    (named : next.taskId = m.taskId) (ended : next.state.active = false) :
    Indexed (save (dropPayload db m) next) := by
  refine indexed.update m.taskId (fun other ne => ?_) (fun _ _ => rfl) (fun other ne => ?_)
    (fun _ _ => rfl) (entry_of_set db next ?_ (Listed.of_inactive ended))
  · exact Dict.get?_set_ne _ _ (named ▸ ne)
  · exact Dict.get?_del_ne _ ne
  · exact named ▸ rfl

theorem indexed_accept (indexed : Indexed db) (submission : Submission) (policy : QueuePolicy)
    (lane : LaneRecord) : Indexed (accept db now submission policy lane) := by
  have waits : (accepted submission policy now (db.sequence + 1)).state.waiting = true :=
    JobRecord.admitted_waiting ..
  refine indexed.update submission.job.taskId (fun other ne => ?_) (fun other ne => ?_)
    (fun other ne => ?_) (fun other ne => ?_) (entry_of_set _ _ (accept_jobs ..) ?_)
  · rw [accept_jobs, Dict.get?_set_ne _ _ ne]
  · unfold accept
    dsimp only
    split <;> exact Dict.get?_set_ne _ _ ne
  · unfold accept
    dsimp only
    split <;> exact Dict.get?_set_ne _ _ ne
  · unfold accept
    dsimp only
    split <;> rfl
  · refine ⟨fun _ => ?_, fun _ => ?_, fun owned => ?_⟩
    · unfold accept
      dsimp only
      split <;> exact Dict.get?_set_self _ _ _
    · unfold accept
      dsimp only
      split <;> exact Dict.get?_set_self _ _ _
    · exact absurd ((JobState.owned_eq_false_of_waiting waits).symm.trans owned)
        Bool.false_ne_true

theorem indexed_start (indexed : Indexed db) {m : ScriptJob}
    (found : db.jobs.get? m.taskId = some m) (active : m.state.active = true) (lane : Lane)
    (ownerToken : String) : Indexed (start db now lane m ownerToken) := by
  have listed := indexed _ m found
  refine indexed.update m.taskId (fun other ne => ?_) (fun other ne => ?_)
    (fun other ne => ?_) (fun other ne => ?_) (entry_of_set _ _ (start_jobs ..) ?_)
  · rw [start_jobs, Dict.get?_set_ne _ _ ne]
  · unfold start extendKeys
    dsimp only [save, transition]
    split
    · exact Dict.get?_set_ne _ _ ne
    · rfl
  · unfold start extendKeys
    dsimp only [save, transition]
    split
    · exact Dict.get?_set_ne _ _ ne
    · rfl
  · unfold start extendKeys
    dsimp only [save, transition]
    split <;> exact Dict.get?_set_ne _ _ ne
  · refine ⟨fun _ => ?_, fun _ => ?_, fun _ => ?_⟩
    · by_cases daily : m.lane = .daily ∧ m.userId = 0
      · simp only [start, extendKeys, if_pos daily, save, transition, Dict.get?_set_self]
      · simp only [start, extendKeys, if_neg daily, save, transition, started,
          JobRecord.extendDaily, JobRecord.start]
        exact listed.deadline active
    · by_cases daily : m.lane = .daily ∧ m.userId = 0
      · simp only [start, extendKeys, if_pos daily, save, transition, Dict.get?_set_self]
      · simp only [start, extendKeys, if_neg daily, save, transition, started,
          JobRecord.extendDaily, JobRecord.start]
        exact listed.payload active
    · unfold start extendKeys
      dsimp only [save, transition]
      split <;> exact Dict.get?_set_self _ _ _

theorem indexed_requeueRetry (indexed : Indexed db) (m : ScriptJob) (delay : Time)
    (reason : Option String) : Indexed (requeueRetry db now m delay reason) := by
  have waits := m.requeueRetry_waiting now delay reason
  refine indexed.update m.taskId (fun other ne => ?_) (fun other ne => ?_)
    (fun other ne => ?_) (fun other ne => ?_) (entry_of_set _ _ (requeueRetry_jobs ..) ?_)
  · rw [requeueRetry_jobs, Dict.get?_set_ne _ _ ne]
  · unfold requeueRetry
    dsimp only [save]
    split <;> exact Dict.get?_set_ne _ _ ne
  · unfold requeueRetry
    dsimp only [save]
    split <;> exact Dict.get?_set_ne _ _ ne
  · unfold requeueRetry
    dsimp only [save]
    split <;> exact Dict.get?_del_ne _ ne
  · refine ⟨fun _ => ?_, fun _ => ?_, fun owned => ?_⟩
    · unfold requeueRetry
      dsimp only [save]
      split <;> exact Dict.get?_set_self _ _ _
    · unfold requeueRetry
      dsimp only [save]
      split <;> exact Dict.get?_set_self _ _ _
    · exact absurd ((JobState.owned_eq_false_of_waiting waits).symm.trans owned)
        Bool.false_ne_true

theorem indexed_eraseStep (good : (ledger db).WellFormed) (indexed : Indexed db)
    (userId : Int) (id : TaskId) : Indexed (eraseStep userId db id) := by
  refine indexed.update id (fun other ne => ?_) (fun other ne => ?_) (fun other ne => ?_)
    (fun other ne => ?_) (fun m found => ?_)
  · rw [eraseStep_jobs, if_neg ne]
  · unfold eraseStep
    cases db.jobs.get? id <;> exact Dict.get?_del_ne _ ne
  · unfold eraseStep
    cases found : db.jobs.get? id with
    | none => rfl
    | some m =>
      have same := named good found
      subst same
      exact Dict.get?_del_ne _ ne
  · unfold eraseStep
    cases found : db.jobs.get? id with
    | none => rfl
    | some m =>
      have same := named good found
      subst same
      exact Dict.get?_del_ne _ ne
  · rw [eraseStep_jobs, if_pos rfl] at found
    cases found

theorem Edit.indexed (edit : Edit fresh now cause db after) (good : (ledger db).WellFormed)
    (indexed : Indexed db) : Indexed after := by
  cases edit with
  | expires =>
    intro id m found
    have kept : db.jobs.get? id = some m := ((Dict.get?_retain_eq_some _ _ _ _).mp found).1
    exact ⟨(indexed id m kept).deadline, (indexed id m kept).payload, (indexed id m kept).running⟩
  | @unlistsPayload id gone =>
    exact indexed.update id (fun _ _ => rfl) (fun _ _ => rfl)
      (fun other ne => Dict.get?_del_ne _ ne) (fun _ _ => rfl)
      fun m found => absurd (gone.symm.trans found) (Option.some_ne_none m).symm
  | @unlistsDeadline id idle =>
    exact indexed.update id (fun _ _ => rfl) (fun other ne => Dict.get?_del_ne _ ne)
      (fun _ _ => rfl) (fun _ _ => rfl) fun m found => Listed.of_inactive (idle m found)
  | @unlistsRunning id free =>
    refine indexed.update id (fun _ _ => rfl) (fun _ _ => rfl) (fun _ _ => rfl)
      (fun other ne => Dict.get?_del_ne _ ne) fun m found => ?_
    exact ⟨(indexed id m found).deadline, (indexed id m found).payload,
      fun owned => absurd ((free m found).symm.trans owned) Bool.false_ne_true⟩
  | unlistsDelayed | unlistsReady => exact indexed.congr rfl rfl rfl rfl
  | drops _ _ ended => exact indexed_drop indexed rfl ended
  | @endsUnpaid m _ found active =>
    refine indexed.update m.taskId (fun other ne => ?_) (fun other ne => ?_)
      (fun other ne => ?_) (fun other ne => ?_)
      (entry_of_set _ _ (terminal_jobs ..)
        (Listed.of_inactive (Ending.overdue active).active_ends.2))
    · rw [terminal_jobs]
      exact Dict.get?_set_ne _ _ ne
    · rw [terminal_deadline]
      exact Dict.get?_del_ne _ ne
    · rw [terminal_expiryPayload]
      exact (Dict.get?_del_ne _ ne).trans (Dict.get?_del_ne _ ne)
    · rw [terminal_running]
      exact Dict.get?_del_ne _ ne
  | @ends m next state safe found moves _ reason how =>
    exact indexed_terminal indexed _ _ _ _ how.active_ends.2
  | @requeuesLost m sweeps found running safe left =>
    have active : m.state.active = true := by rw [running]; rfl
    refine indexed.update m.taskId (fun other ne => Dict.get?_set_ne _ _ ne)
      (fun other ne => Dict.get?_set_ne _ _ ne) (fun _ _ => rfl)
      (fun other ne => Dict.get?_del_ne _ ne)
      (entry_of_set db { m with toJobRecord := m.requeueLost } rfl ?_)
    exact ⟨fun _ => Dict.get?_set_self _ _ _, fun _ => (indexed _ m found).payload active,
      fun owned => by cases owned⟩
  | @promotes m lane sweeps found delayed _ =>
    have active : m.state.active = true := by rw [delayed]; rfl
    refine indexed.update m.taskId (fun other ne => Dict.get?_set_ne _ _ ne)
      (fun _ _ => rfl) (fun _ _ => rfl) (fun _ _ => rfl)
      (entry_of_set db { m with toJobRecord := m.promote } rfl ?_)
    exact ⟨fun _ => (indexed _ m found).deadline active,
      fun _ => (indexed _ m found).payload active, fun owned => by cases owned⟩
  | @forgets id sweeps _ =>
    refine indexed.congr ?_ ?_ ?_ ?_ <;>
    · unfold metadataStep
      cases db.owners.get? id <;> rfl
  | joins => exact indexed.congr rfl rfl rfl rfl
  | accepts => exact indexed_accept indexed _ _ _
  | @succeeds m payload revision actor operationId epoch called found offered _ _ =>
    exact indexed_drop (indexed_accept indexed _ _ _) rfl (retryable?_eq_some offered).2.1
  | @starts m lane ownerToken called found _ queued left _ _ =>
    exact indexed_start indexed found (by rw [queued]; rfl) lane ownerToken
  | @beats m ownerToken revision called found owned =>
    have active := JobState.active_of_owned owned.owned
    refine indexed.update m.taskId (fun other ne => Dict.get?_set_ne _ _ ne)
      (fun _ _ => rfl) (fun _ _ => rfl) (fun other ne => Dict.get?_set_ne _ _ ne)
      (entry_of_set db { m with toJobRecord := m.beat now } rfl ?_)
    exact ⟨fun _ => (indexed _ m found).deadline active,
      fun _ => (indexed _ m found).payload active, fun _ => Dict.get?_set_self _ _ _⟩
  | @annotates m next found moves same =>
    have listed := indexed _ m found
    rcases same with ⟨update, rfl⟩ | ⟨token, rfl⟩
    · exact indexed.update m.taskId (fun other ne => Dict.get?_set_ne _ _ ne)
        (fun _ _ => rfl) (fun _ _ => rfl) (fun _ _ => rfl)
        (entry_of_set db { m with toJobRecord := m.summarise update } rfl
          ⟨listed.deadline, listed.payload, listed.running⟩)
    · exact indexed.update m.taskId (fun other ne => Dict.get?_set_ne _ _ ne)
        (fun _ _ => rfl) (fun _ _ => rfl) (fun _ _ => rfl)
        (entry_of_set db { m with toJobRecord := m.settledBy token } rfl
          ⟨listed.deadline, listed.payload, listed.running⟩)
  | @requeuesRetry m ownerToken revision result delay update called found owned running outcome
      left _ =>
      exact indexed_requeueRetry indexed { m with toJobRecord := m.summarise update } delay
        result.reasonCode
  | @requestsCancel m actor operationId called found owned =>
    have listed := indexed _ m found
    have active := JobState.active_of_owned owned
    refine indexed.update m.taskId (fun other ne => Dict.get?_set_ne _ _ ne)
      (fun _ _ => rfl) (fun _ _ => rfl) (fun _ _ => rfl)
      (entry_of_set db { m with toJobRecord := m.requestCancel } rfl ?_)
    exact ⟨fun _ => listed.deadline active, fun _ => listed.payload active,
      fun _ => listed.running owned⟩
  | handsOver _ _ ended => exact indexed_drop indexed rfl ended
  | remembers | setsLane => exact indexed.congr rfl rfl rfl rfl
  | @erases userId members id called =>
    exact indexed_eraseStep good indexed userId id

theorem Edits.indexed (edits : Edits fresh now cause db after)
    (good : (ledger db).WellFormed) (indexed : Indexed db) : Indexed after :=
  edits.keeps (fun _ _ good edit indexed => edit.indexed good indexed) good indexed

theorem exec_indexed (good : (ledger db).WellFormed) (indexed : Indexed db)
    (command : Command) : Indexed (exec now db command).2 := by
  rcases exec_cases now db command with ⟨reply, same⟩ | ⟨_, same⟩
  · rw [same]
    exact indexed
  · rw [same]
    have swept : Edits (fun _ _ => True) now .sweep db (sweep db now) := edits_sweep good
    have own : Edits (fun _ _ => True) now (.call command) (sweep db now)
        (act now (sweep db now) command).2 :=
      edits_act (swept.wellFormed good) command fun _ _ => trivial
    exact own.indexed (swept.wellFormed good) (swept.indexed good indexed)

/-! ## Due records -/

/-- The number of entries of an index that are due. -/
def dueCount (set : ZSet) (now : Time) : Nat := (set.items.filter fun item => item.2 ≤ now).length

/-- A batch that is large enough holds everything that is due. -/
theorem mem_batch {set : ZSet} {limit : Nat} {id : TaskId} {score : Int}
    (fits : dueCount set now ≤ limit) (found : set.get? id = some score) (due : score ≤ now) :
    id ∈ set.rangeByScore now limit := by
  refine List.mem_map.mpr ⟨(id, score), ?_, rfl⟩
  have length : ((set.items.filter fun item => item.2 ≤ now).insertionSort
      fun first second => first.2 ≤ second.2).length ≤ limit := by
    rw [List.length_insertionSort]
    exact fits
  rw [List.take_of_length_le length, List.mem_insertionSort, List.mem_filter]
  exact ⟨(Dict.mem_items_iff set id score).mpr found, decide_eq_true due⟩

/-- The passes over payloads, deadlines and leases each take all that is due. -/
structure Fits (db : Db) (now : Time) : Prop where
  payload : dueCount (expire db now).expiryPayload now ≤ 256
  deadline : dueCount (payloadPass (expire db now) now).deadline now ≤ 256
  running : dueCount (deadlinePass (payloadPass (expire db now) now) now).running now ≤ 256

/-- A pass whose batch holds the job loses it. -/
theorem pass_loses {step : Db → TaskId → Db} {id : TaskId} {m : JobRecord}
    (each : ∀ db id, (ledger db).WellFormed → Edits fresh now .sweep db (step db id))
    (effectful : m.effectful = true) (owned : m.state.owned = true)
    (ends : ∀ db job, db.jobs.get? id = some job → job.taskId = id →
      job.state.owned = true → job.effectful = true → ∃ base held reason safe,
        step db id = terminal base now held .unknownDelivery reason safe ∧ held.taskId = id)
    (ids : List TaskId) (member : id ∈ ids) (good : (ledger db).WellFormed)
    (bound : m.sequence ≤ (ledger db).sequence) (pending : Ledger.Pending id m (ledger db)) :
    Ledger.Lost id m.sequence (ledger (ids.foldl step db)) := by
  refine Ledger.foldl_loses (Clears fresh) now ledger (fun db => (ledger db).WellFormed) step
    (fun db each' good => ?_) effectful owned id (fun db r good before later => ?_) ids member db
    good bound pending
  · exact ⟨(each db each' good).wellFormed good, (each db each' good).progress⟩
  · obtain ⟨job, stored, rfl⟩ := get?_of_ledger before
    obtain ⟨next, stored', rfl⟩ := get?_of_ledger later
    obtain ⟨base, held, reason, safe, step, same⟩ :=
      ends db job stored (named good stored) owned effectful
    rw [step, terminal_jobs, same, Dict.get?_set_self] at stored'
    cases stored'
    rfl

/-- A job that may still be pending is lost, or its record is still there. -/
theorem lost_or_found {id : TaskId} {m : JobRecord} (pending : Ledger.Pending id m (ledger db)) :
    Ledger.Lost id m.sequence (ledger db) ∨
      ∃ job, db.jobs.get? id = some job ∧ job.toJobRecord = m := by
  by_cases present : ∃ job, db.jobs.get? id = some job ∧ job.toJobRecord = m
  · exact .inr present
  · refine .inl fun r found same => ?_
    obtain ⟨job, stored, rfl⟩ := get?_of_ledger found
    rcases pending _ found same with kept | lost
    · exact absurd ⟨job, stored, kept⟩ present
    · exact lost

theorem payloadStep_ends {id : TaskId} {job : ScriptJob} (found : db.jobs.get? id = some job)
    (named : job.taskId = id) (owned : job.state.owned = true)
    (effectful : job.effectful = true) :
    ∃ base held reason safe,
      payloadStep now db id = terminal base now held .unknownDelivery reason safe ∧
        held.taskId = id := by
  refine ⟨dropPayload db job, unaccounted job, some "payload_expired", false, ?_, named⟩
  have uncertain : job.uncertain = true := by rw [JobRecord.uncertain, owned, effectful]; rfl
  simp only [payloadStep, found, JobState.active_of_owned owned, uncertain, if_true]

theorem deadlineStep_ends {id : TaskId} {job : ScriptJob} (found : db.jobs.get? id = some job)
    (named : job.taskId = id) (owned : job.state.owned = true)
    (effectful : job.effectful = true) :
    ∃ base held reason safe,
      deadlineStep now db id = terminal base now held .unknownDelivery reason safe ∧
        held.taskId = id := by
  refine ⟨db, job, some (uncertainReason job), false, ?_, named⟩
  have uncertain : job.uncertain = true := by rw [JobRecord.uncertain, owned, effectful]; rfl
  simp only [deadlineStep, found, Option.filter_some, JobState.active_of_owned owned, uncertain,
    if_true]

theorem runningStep_ends {id : TaskId} {job : ScriptJob} (found : db.jobs.get? id = some job)
    (named : job.taskId = id) (owned : job.state.owned = true)
    (effectful : job.effectful = true) :
    ∃ base held reason safe,
      runningStep now db id = terminal base now held .unknownDelivery reason safe ∧
        held.taskId = id := by
  refine ⟨db, job, some (uncertainReason job), false, ?_, named⟩
  simp only [runningStep, found, Option.filter_some, owned, effectful, if_true]

/-- The sweep ends every effectful job that its owner has let lapse. -/
theorem sweep_loses (good : (ledger db).WellFormed) (indexed : Indexed db) (fits : Fits db now)
    {id : TaskId} {m : JobRecord} (found : (ledger db).records.get? id = some m)
    (effectful : m.effectful = true) (owned : m.state.owned = true) (lapsed : m.lapsed now) :
    Ledger.Lost id m.sequence (ledger (sweep db now)) := by
  let anyone : Db → TaskId → Prop := fun _ _ => True
  have active := JobState.active_of_owned owned
  have expires : Edits anyone now .sweep db (expire db now) := Edits.single (.expires rfl)
  have good₁ := expires.wellFormed good
  have bound₁ : m.sequence ≤ (ledger (expire db now)).sequence := good.counted id m found
  have pending₁ : Ledger.Pending id m (ledger (expire db now)) :=
    expires.progress.pending (good.counted id m found) effectful owned fun r stored _ =>
      .inl (Option.some.inj (stored.symm.trans found))
  have unpaid : Edits anyone now .sweep _ (payloadPass (expire db now) now) :=
    edits_payloadPass good₁
  have good₂ := unpaid.wellFormed good₁
  have bound₂ := bound₁.trans unpaid.progress.counted
  have pending₂ := unpaid.progress.pending bound₁ effectful owned pending₁
  have overdue : Edits anyone now .sweep _ (deadlinePass (payloadPass (expire db now) now) now) :=
    edits_deadlinePass good₂
  have good₃ := overdue.wellFormed good₂
  have bound₃ := bound₂.trans overdue.progress.counted
  have pending₃ := overdue.progress.pending bound₂ effectful owned pending₂
  have lost : Edits anyone now .sweep _
      (runningPass (deadlinePass (payloadPass (expire db now) now) now) now) :=
    edits_runningPass good₃
  have last : Edits anyone now .sweep _ (sweep db now) := edits_lastPasses (lost.wellFormed good₃)
  have bound₄ := bound₃.trans lost.progress.counted
  rcases lapsed with due | due | due
  · refine ((overdue.trans lost).trans last).progress.lost bound₂ ?_
    rcases lost_or_found pending₁ with gone | ⟨job, stored, rfl⟩
    · exact unpaid.progress.lost bound₁ gone
    · exact @pass_loses anyone _ _ _ _ _ (fun _ id good => edits_payloadStep good id) effectful
        owned (fun _ _ found named owned effectful => payloadStep_ends found named owned effectful)
        _ (mem_batch fits.payload ((expires.indexed good indexed _ _ stored).payload active) due)
        good₁ bound₁ pending₁
  · refine (lost.trans last).progress.lost bound₃ ?_
    rcases lost_or_found pending₂ with gone | ⟨job, stored, rfl⟩
    · exact overdue.progress.lost bound₂ gone
    · have indexed₂ := (expires.trans unpaid).indexed good indexed
      exact @pass_loses anyone _ _ _ _ _ (fun _ id good => edits_deadlineStep good id) effectful
        owned (fun _ _ found named owned effectful => deadlineStep_ends found named owned effectful)
        _ (mem_batch fits.deadline ((indexed₂ _ _ stored).deadline active) due) good₂ bound₂
        pending₂
  · refine last.progress.lost bound₄ ?_
    rcases lost_or_found pending₃ with gone | ⟨job, stored, rfl⟩
    · exact lost.progress.lost bound₃ gone
    · have indexed₃ := ((expires.trans unpaid).trans overdue).indexed good indexed
      have listed := (indexed₃ _ _ stored).running owned
      cases beat : job.heartbeatAt with
      | none =>
        rw [JobRecord.leaseLost, beat] at due
        cases due
      | some beat' =>
        rw [JobRecord.leaseLost, beat] at due
        rw [beat] at listed
        exact @pass_loses anyone _ _ _ _ _ (fun _ id good => edits_runningStep good id)
          effectful owned
          (fun _ _ found named owned effectful => runningStep_ends found named owned effectful)
          _ (mem_batch fits.running listed (of_decide_eq_true due)) good₃ bound₃ pending₃

end Phases

end Script

end BobbyBotique.Queue
