import BobbyBotique.Queue.ScriptCounts
import BobbyBotique.Queue.ScriptIndex
import BobbyBotique.Queue.Slots

/-!
# Worker slots of the Redis script

The script does not count held records.  It trusts a counter for the workers
of a lane and an expiring permit for image work, and it finds what to start in
the ready set of a lane.  The invariant below ties these keys to the records:
it needs that no admission overwrites a live job, and that no claim brings the
token of a job that is held.
-/

namespace BobbyBotique.Queue

namespace Script

/-- The entries of one id in the ready sets, the lease index and the image permit. -/
structure Standing (now : Time) (db : Db) (id : TaskId) : Prop where
  ready : ∀ lane, (db.ready lane).contains id = true →
    ∃ m, db.jobs.get? id = some m ∧ m.state = .queued ∧ m.lane = lane
  running : db.running.contains id = true → ∃ m, db.jobs.get? id = some m ∧ m.state.owned = true
  permit : ∀ m, db.jobs.get? id = some m → m.state.owned = true → m.imageWork = true →
    m.leaseLost now = false → ∃ permit, db.permit = some permit ∧ m.ownerToken = some permit.token ∧
      m.heartbeatAt.map (fun beat => beat + ownerLease) = some permit.expiresAt

/-- No two held jobs have one owner token. -/
def Apart (db : Db) : Prop :=
  ∀ id other m r, db.jobs.get? id = some m → db.jobs.get? other = some r →
    m.state.owned = true → r.state.owned = true → m.ownerToken = r.ownerToken → id = other

/-- No held job has the token. -/
def Unheld (db : Db) (ownerToken : String) : Prop :=
  ∀ id m, db.jobs.get? id = some m → m.state.owned = true → m.ownerToken ≠ some ownerToken

/-- No admission of the command takes the id of a job that is to be run, paid for or retried. -/
def Spares (now : Time) (db : Db) (command : Command) : Prop :=
  answered now db command = none → ∀ id, Accepts (sweep db now) command id → Free (sweep db now) id

structure Orderly (now : Time) (db : Db) : Prop where
  standing : ∀ id, Standing now db id
  apart : Apart db

section Sets

variable {sets : Lane → ZSet} {lane each : Lane} {id other : TaskId} {score : Int}

theorem of_atLane_del
    (listed : (atLane sets each (fun set => set.del id) lane).contains other = true) :
    (sets lane).contains other = true ∧ (other = id → lane ≠ each) := by
  unfold atLane at listed
  split at listed
  · rw [Dict.contains, Dict.get?_del] at listed
    split at listed
    · cases listed
    · next apart => exact ⟨listed, fun same => absurd same apart⟩
  · next elsewhere => exact ⟨listed, fun _ => elsewhere⟩

theorem of_atLane_set
    (listed : (atLane sets each (fun set => set.set id score) lane).contains other = true) :
    (sets lane).contains other = true ∨ (other = id ∧ lane = each) := by
  unfold atLane at listed
  split at listed
  · next same =>
      rw [Dict.contains, Dict.get?_set] at listed
      split at listed
      · next here => exact .inr ⟨here, same⟩
      · exact .inl listed
  · exact .inl listed

theorem of_del {set : ZSet} (listed : (set.del id).contains other = true) :
    other ≠ id ∧ set.contains other = true := by
  rw [Dict.contains, Dict.get?_del] at listed
  split at listed
  · cases listed
  · next apart => exact ⟨apart, listed⟩

theorem of_set {set : ZSet} (listed : (set.set id score).contains other = true) :
    other = id ∨ set.contains other = true := by
  rw [Dict.contains, Dict.get?_set] at listed
  split at listed
  · next same => exact .inl same
  · exact .inr listed

end Sets

section Listings

variable {now : Time} {db : Db} {lane : Lane} {other : TaskId}

theorem start_ready (m : ScriptJob) (ownerToken : String) :
    (start db now lane m ownerToken).ready =
      atLane db.ready lane fun set => set.del m.taskId := by
  unfold start extendKeys
  dsimp only [save, transition]
  split <;> rfl

/-- An admission lists its job as ready unless it is delayed. -/
theorem of_accept_ready {submission : Submission} {policy : QueuePolicy} {record : LaneRecord}
    (listed : ((accept db now submission policy record).ready lane).contains other = true) :
    (db.ready lane).contains other = true ∨ (other = submission.job.taskId ∧
      (accepted submission policy now (db.sequence + 1)).state = .queued ∧
        lane = submission.lane) := by
  unfold accept at listed
  dsimp only at listed
  split at listed
  · exact .inl listed
  · next undelayed =>
      rcases of_atLane_set listed with before | ⟨same, placed⟩
      · exact .inl before
      · exact .inr ⟨same, JobState.queued_of_waiting (JobRecord.admitted_waiting ..) undelayed,
          placed⟩

end Listings

namespace Standing

variable {now : Time} {db after : Db} {id : TaskId}

/-- A job that nobody holds is not among the leases, and ready only if it is queued. -/
theorem free (standing : Standing now db id)
    (released : ∀ m, db.jobs.get? id = some m → m.state.owned = false) :
    db.running.contains id = false := by
  cases listed : db.running.contains id with
  | false => rfl
  | true =>
    obtain ⟨m, found, owned⟩ := standing.running listed
    exact absurd ((released m found).symm.trans owned) Bool.false_ne_true

/-- What an id needs that nobody holds. -/
theorem of_free (released : ∀ m, after.jobs.get? id = some m → m.state.owned = false)
    (running : after.running.contains id = false)
    (ready : ∀ lane, (after.ready lane).contains id = true →
      ∃ m, after.jobs.get? id = some m ∧ m.state = .queued ∧ m.lane = lane) :
    Standing now after id where
  ready := ready
  running listed := absurd (running.symm.trans listed) Bool.false_ne_true
  permit m found owned := absurd ((released m found).symm.trans owned) Bool.false_ne_true

end Standing

theorem started_imageWork (m : ScriptJob) (now : Time) (ownerToken : String) :
    (started m now ownerToken).imageWork = m.imageWork := by
  rcases m.extendDaily_cases now (executionBudget m.toJobRecord) with same | same <;>
    simp only [started, same, JobRecord.start]

namespace Orderly

variable {now : Time} {db after : Db}

theorem congr (orderly : Orderly now db) (jobs : after.jobs = db.jobs)
    (ready : after.ready = db.ready) (running : after.running = db.running)
    (permit : after.permit = db.permit) : Orderly now after := by
  constructor
  · intro id
    have standing := orderly.standing id
    constructor
    · rw [jobs, ready]
      exact standing.ready
    · rw [jobs, running]
      exact standing.running
    · rw [jobs, permit]
      exact standing.permit
  · unfold Apart
    rw [jobs]
    exact orderly.apart

/--
A change of one id keeps the keys in order when the permit of any other holder
stays, and the token of a new holder is new.
-/
theorem update (orderly : Orderly now db) (id : TaskId)
    (jobs : ∀ other, other ≠ id → after.jobs.get? other = db.jobs.get? other)
    (ready : ∀ lane other, other ≠ id → (after.ready lane).contains other = true →
      (db.ready lane).contains other = true)
    (running : ∀ other, other ≠ id → after.running.contains other = true →
      db.running.contains other = true)
    (permit : ∀ permit, db.permit = some permit →
      (∀ m, db.jobs.get? id = some m → m.state.owned = true →
        m.ownerToken ≠ some permit.token) → after.permit = some permit)
    (entry : Standing now after id)
    (token : ∀ next, after.jobs.get? id = some next → next.state.owned = true →
      ∀ other r, other ≠ id → db.jobs.get? other = some r → r.state.owned = true →
        next.ownerToken ≠ r.ownerToken) : Orderly now after := by
  constructor
  · intro other
    by_cases same : other = id
    · exact same ▸ entry
    · have standing := orderly.standing other
      constructor
      · intro lane listed
        rw [jobs other same]
        exact standing.ready lane (ready lane other same listed)
      · intro listed
        rw [jobs other same]
        exact standing.running (running other same listed)
      · intro m found owned image live
        rw [jobs other same] at found
        obtain ⟨held, permitted, mine, expiry⟩ := standing.permit m found owned image live
        refine ⟨held, permit held permitted fun r stored busy taken => same ?_, mine, expiry⟩
        exact orderly.apart other id m r found stored owned busy (mine.trans taken.symm)
  · intro first second m r found stored owned busy shared
    by_cases here : first = id
    · by_cases there : second = id
      · exact here.trans there.symm
      · rw [jobs second there] at stored
        subst here
        exact absurd shared (token m found owned second r there stored busy)
    · rw [jobs first here] at found
      by_cases there : second = id
      · subst there
        exact absurd shared.symm (token r stored busy first m here found owned)
      · rw [jobs second there] at stored
        exact orderly.apart first second m r found stored owned busy shared

/-- A change of one id that nobody holds before or after. -/
theorem update_free (orderly : Orderly now db) (id : TaskId)
    (jobs : ∀ other, other ≠ id → after.jobs.get? other = db.jobs.get? other)
    (released : ∀ m, after.jobs.get? id = some m → m.state.owned = false)
    (before : ∀ m, db.jobs.get? id = some m → m.state.owned = false)
    (running : after.running = db.running) (permit : after.permit = db.permit)
    (ready : ∀ lane other, (after.ready lane).contains other = true →
      (other ≠ id ∧ (db.ready lane).contains other = true) ∨
        (other = id ∧ ∃ next, after.jobs.get? id = some next ∧ next.state = .queued ∧
          next.lane = lane)) : Orderly now after := by
  apply orderly.update id jobs
  · intro lane other apart listed
    rcases ready lane other listed with ⟨_, there⟩ | ⟨here, _⟩
    · exact there
    · exact absurd here apart
  · intro other _ listed
    exact running ▸ listed
  · intro held permitted _
    exact permit.trans permitted
  · apply Standing.of_free released
    · rw [running]
      exact (orderly.standing id).free before
    · intro lane listed
      rcases ready lane id listed with ⟨apart, _⟩ | ⟨_, here⟩
      · exact absurd rfl apart
      · exact here
  · intro next found owned
    exact absurd ((released next found).symm.trans owned) Bool.false_ne_true

/-- A job that is given up takes its lease and its permit with it. -/
theorem release (orderly : Orderly now db) (good : (ledger db).WellFormed) {id : TaskId}
    {m : ScriptJob} (found : db.jobs.get? id = some m)
    (jobs : ∀ other, other ≠ id → after.jobs.get? other = db.jobs.get? other)
    (released : ∀ m, after.jobs.get? id = some m → m.state.owned = false)
    (running : after.running = db.running.del id)
    (permit : after.permit =
      db.permit.filter fun permit => !decide (m.ownerToken = some permit.token))
    (ready : ∀ lane other, (after.ready lane).contains other = true →
      (other ≠ id ∧ (db.ready lane).contains other = true) ∨
        (other = id ∧ ∃ next, after.jobs.get? id = some next ∧ next.state = .queued ∧
          next.lane = lane)) : Orderly now after := by
  apply orderly.update id jobs
  · intro lane other apart listed
    rcases ready lane other listed with ⟨_, there⟩ | ⟨here, _⟩
    · exact there
    · exact absurd here apart
  · intro other _ listed
    rw [running] at listed
    exact (of_del listed).2
  · intro held permitted apart
    have another : m.ownerToken ≠ some held.token := by
      intro mine
      have token := (good.record id _ (ledger_of_get? found)).token
      rw [mine] at token
      exact apart m found token.symm mine
    rw [permit, permitted, Option.filter_some, if_pos]
    rw [decide_eq_false another]
    rfl
  · apply Standing.of_free released
    · cases listed : after.running.contains id with
      | false => rfl
      | true =>
        rw [running] at listed
        exact absurd rfl (of_del listed).1
    · intro lane listed
      rcases ready lane id listed with ⟨apart, _⟩ | ⟨_, here⟩
      · exact absurd rfl apart
      · exact here
  · intro next found owned
    exact absurd ((released next found).symm.trans owned) Bool.false_ne_true

/-- Entries may be struck off. -/
theorem unlist (orderly : Orderly now db) (jobs : after.jobs = db.jobs)
    (ready : ∀ lane id, (after.ready lane).contains id = true → (db.ready lane).contains id = true)
    (running : ∀ id, after.running.contains id = true → db.running.contains id = true)
    (permit : after.permit = db.permit) : Orderly now after := by
  constructor
  · intro id
    have standing := orderly.standing id
    constructor
    · intro lane listed
      rw [jobs]
      exact standing.ready lane (ready lane id listed)
    · intro listed
      rw [jobs]
      exact standing.running (running id listed)
    · rw [jobs, permit]
      exact standing.permit
  · unfold Apart
    rw [jobs]
    exact orderly.apart

/-- A held job stays as its keys describe it. -/
theorem restate (orderly : Orderly now db) {id : TaskId} {m next : ScriptJob}
    (found : db.jobs.get? id = some m) (jobs : after.jobs = db.jobs.set id next)
    (ready : after.ready = db.ready) (running : after.running = db.running)
    (permit : after.permit = db.permit) (lane : next.lane = m.lane)
    (image : next.imageWork = m.imageWork) (token : next.ownerToken = m.ownerToken)
    (beat : next.heartbeatAt = m.heartbeatAt) (owned : next.state.owned = m.state.owned)
    (queued : m.state = .queued → next.state = .queued) : Orderly now after := by
  have there : after.jobs.get? id = some next := by rw [jobs, Dict.get?_set_self]
  apply orderly.update id
  · intro other apart
    rw [jobs, Dict.get?_set_ne _ _ apart]
  · intro each other _ listed
    exact ready ▸ listed
  · intro other _ listed
    exact running ▸ listed
  · intro held permitted _
    exact permit.trans permitted
  · have standing := orderly.standing id
    constructor
    · intro each listed
      rw [ready] at listed
      obtain ⟨old, stored, waits, placed⟩ := standing.ready each listed
      cases found.symm.trans stored
      exact ⟨next, there, queued waits, lane.trans placed⟩
    · intro listed
      rw [running] at listed
      obtain ⟨old, stored, held⟩ := standing.running listed
      cases found.symm.trans stored
      exact ⟨next, there, owned.trans held⟩
    · intro new stored held works live
      cases there.symm.trans stored
      rw [permit, token, beat]
      apply standing.permit m found (owned.symm.trans held) (image.symm.trans works)
      unfold JobRecord.leaseLost at live ⊢
      rw [← beat]
      exact live
  · intro new stored held other r apart busy holds
    cases there.symm.trans stored
    intro shared
    exact apart (orderly.apart other id r m busy found holds (owned.symm.trans held)
      (shared.symm.trans token))

/-- A later clock asks less of the permit. -/
theorem later (orderly : Orderly now db) {time : Time} (passed : now ≤ time) :
    Orderly time db := by
  refine ⟨fun id => ?_, orderly.apart⟩
  have standing := orderly.standing id
  refine ⟨standing.ready, standing.running, ?_⟩
  intro m found owned image live
  apply standing.permit m found owned image
  unfold JobRecord.leaseLost at live ⊢
  cases beat : m.heartbeatAt with
  | none => rfl
  | some last =>
    rw [beat] at live
    have fresh : ¬ last + ownerLease ≤ time := by simpa using live
    exact decide_eq_false fun lost => fresh (lost.trans passed)

theorem expire (orderly : Orderly now db) (good : (ledger db).WellFormed) :
    Orderly now (Script.expire db now) := by
  have kept : ∀ {id m}, (Script.expire db now).jobs.get? id = some m →
      db.jobs.get? id = some m := fun found => ((Dict.get?_retain_eq_some _ _ _ _).mp found).1
  have stays : ∀ {id m}, db.jobs.get? id = some m → m.state.active = true →
      (Script.expire db now).jobs.get? id = some m := by
    intro id m found active
    refine (Dict.get?_retain_eq_some _ _ _ _).mpr ⟨found, ?_⟩
    rw [(good.record id _ (ledger_of_get? found)).unexpired active]
    rfl
  refine ⟨fun id => ?_, fun first second m r found stored =>
    orderly.apart first second m r (kept found) (kept stored)⟩
  have standing := orderly.standing id
  constructor
  · intro lane listed
    obtain ⟨m, found, queued, placed⟩ := standing.ready lane listed
    exact ⟨m, stays found (by rw [queued]; rfl), queued, placed⟩
  · intro listed
    obtain ⟨m, found, owned⟩ := standing.running listed
    exact ⟨m, stays found (JobState.active_of_owned owned), owned⟩
  · intro m found owned image live
    obtain ⟨permit, held, token, expiry⟩ := standing.permit m (kept found) owned image live
    refine ⟨permit, ?_, token, expiry⟩
    change db.permit.filter _ = _
    rw [held, Option.filter_some, if_pos]
    obtain ⟨beat, last, same⟩ := Option.map_eq_some_iff.mp expiry
    unfold JobRecord.leaseLost at live
    rw [last] at live
    have fresh : ¬ beat + ownerLease ≤ now := by simpa using live
    rw [← same]
    exact decide_eq_true (lt_of_not_ge fresh)

theorem terminal (orderly : Orderly now db) (good : (ledger db).WellFormed) {m held : ScriptJob}
    (found : db.jobs.get? m.taskId = some m) (named : held.taskId = m.taskId)
    (lane : held.lane = m.lane) (token : held.ownerToken = m.ownerToken) {base : Db}
    (jobs : base.jobs = db.jobs) (ready : base.ready = db.ready)
    (running : base.running = db.running) (permit : base.permit = db.permit)
    (state : JobState) (reason : Option String) (safe : Bool) (ended : state.active = false) :
    Orderly now (Script.terminal base now held state reason safe) := by
  apply orderly.release good found
  · intro other apart
    rw [terminal_jobs, jobs, named, Dict.get?_set_ne _ _ apart]
  · intro next there
    rw [terminal_jobs, named, Dict.get?_set_self] at there
    cases there
    exact JobState.owned_eq_false_of_ended ended
  · rw [terminal_running, running, named]
  · rw [terminal_permit, permit, token]
  · intro each other listed
    rw [terminal_ready, ready, named, lane] at listed
    obtain ⟨before, elsewhere⟩ := of_atLane_del listed
    refine .inl ⟨?_, before⟩
    rintro rfl
    obtain ⟨old, stored, _, placed⟩ := (orderly.standing m.taskId).ready each before
    cases found.symm.trans stored
    exact elsewhere rfl placed.symm

/-- A record that nobody holds is saved again. -/
theorem drop (orderly : Orderly now db) {m next : ScriptJob}
    (found : db.jobs.get? m.taskId = some m) (named : next.taskId = m.taskId)
    (ended : m.state.active = false) (same : next.state = m.state) :
    Orderly now (save (dropPayload db m) next) := by
  have free := JobState.owned_eq_false_of_ended ended
  have jobs : (save (dropPayload db m) next).jobs = db.jobs.set m.taskId next := named ▸ rfl
  apply orderly.update_free m.taskId
  · intro other apart
    rw [jobs, Dict.get?_set_ne _ _ apart]
  · intro new there
    rw [jobs, Dict.get?_set_self] at there
    cases there
    rw [same, free]
  · intro old stored
    cases found.symm.trans stored
    exact free
  · rfl
  · rfl
  · intro lane other listed
    refine .inl ⟨?_, listed⟩
    rintro rfl
    obtain ⟨old, stored, queued, _⟩ := (orderly.standing m.taskId).ready lane listed
    cases found.symm.trans stored
    rw [queued] at ended
    cases ended

theorem accept (orderly : Orderly now db) {submission : Submission} (policy : QueuePolicy)
    (record : LaneRecord) (free : Free db submission.job.taskId) :
    Orderly now (Script.accept db now submission policy record) := by
  have waits : (accepted submission policy now (db.sequence + 1)).state.waiting = true :=
    JobRecord.admitted_waiting ..
  have there : (Script.accept db now submission policy record).jobs.get? submission.job.taskId =
      some (accepted submission policy now (db.sequence + 1)) := by
    rw [accept_jobs, Dict.get?_set_self]
  apply orderly.update_free submission.job.taskId
  · intro other apart
    rw [accept_jobs, Dict.get?_set_ne _ _ apart]
  · intro next found
    cases there.symm.trans found
    exact JobState.owned_eq_false_of_waiting waits
  · intro m found
    exact JobState.owned_eq_false_of_ended (free m found).1
  · unfold Script.accept
    dsimp only
    split <;> rfl
  · unfold Script.accept
    dsimp only
    split <;> rfl
  · have old : ∀ {lane other}, (db.ready lane).contains other = true →
        other ≠ submission.job.taskId := by
      rintro lane other listed rfl
      obtain ⟨m, found, queued, _⟩ := (orderly.standing _).ready lane listed
      have ended := (free m found).1
      rw [queued] at ended
      cases ended
    intro lane other listed
    rcases of_accept_ready listed with before | ⟨same, queued, placed⟩
    · exact .inl ⟨old before, before⟩
    · exact .inr ⟨same, _, there, queued, placed.symm⟩

theorem start (orderly : Orderly now db) {m : ScriptJob} {lane : Lane} {ownerToken : String}
    (found : db.jobs.get? m.taskId = some m)
    (listed : (db.ready lane).contains m.taskId = true)
    (idle : m.imageWork = true → db.permit = none) (unheld : Unheld db ownerToken) :
    Orderly now (Script.start db now lane m ownerToken) := by
  have there : (Script.start db now lane m ownerToken).jobs.get? m.taskId =
      some (started m now ownerToken) := by rw [start_jobs, Dict.get?_set_self]
  have placed : m.lane = lane := by
    obtain ⟨old, stored, _, placed⟩ := (orderly.standing m.taskId).ready lane listed
    cases found.symm.trans stored
    exact placed
  have running : (Script.start db now lane m ownerToken).running =
      db.running.set m.taskId (now + ownerLease) := by
    unfold Script.start extendKeys
    dsimp only [save, transition]
    split <;> rfl
  have permit : (Script.start db now lane m ownerToken).permit =
      if m.imageWork then some ⟨ownerToken, now + ownerLease⟩ else db.permit := by
    unfold Script.start extendKeys
    dsimp only [save, transition]
    split_ifs <;> rfl
  apply orderly.update m.taskId
  · intro other apart
    rw [start_jobs, Dict.get?_set_ne _ _ apart]
  · intro each other _ after
    rw [start_ready] at after
    exact (of_atLane_del after).1
  · intro other apart after
    rw [running] at after
    exact (of_set after).resolve_left apart
  · intro held permitted _
    rw [permit]
    split
    · next works =>
        rw [idle works] at permitted
        cases permitted
    · exact permitted
  · constructor
    · intro each after
      rw [start_ready] at after
      obtain ⟨before, elsewhere⟩ := of_atLane_del after
      obtain ⟨old, stored, _, same⟩ := (orderly.standing m.taskId).ready each before
      cases found.symm.trans stored
      exact absurd (same.symm.trans placed) (elsewhere rfl)
    · intro _
      exact ⟨_, there, rfl⟩
    · intro next stored _ works _
      cases there.symm.trans stored
      rw [permit, if_pos ((started_imageWork m now ownerToken).symm.trans works)]
      exact ⟨_, rfl, rfl, rfl⟩
  · intro next stored _ other r _ busy holds shared
    cases there.symm.trans stored
    exact unheld other r busy holds shared.symm

/-- A held job that is put back into its lane. -/
theorem requeue (orderly : Orderly now db) (good : (ledger db).WellFormed) {m next : ScriptJob}
    (found : db.jobs.get? m.taskId = some m) (jobs : after.jobs = db.jobs.set m.taskId next)
    (waits : next.state.waiting = true) (lane : next.lane = m.lane)
    (running : after.running = db.running.del m.taskId)
    (permit : after.permit =
      db.permit.filter fun permit => !decide (m.ownerToken = some permit.token))
    (ready : after.ready = db.ready ∨ next.state = .queued ∧ ∃ score,
      after.ready = atLane db.ready m.lane fun set => set.set m.taskId score)
    (owned : m.state.owned = true) : Orderly now after := by
  have there : after.jobs.get? m.taskId = some next := by rw [jobs, Dict.get?_set_self]
  have old : ∀ {each other}, (db.ready each).contains other = true → other ≠ m.taskId := by
    rintro each other listed rfl
    obtain ⟨held, stored, queued, _⟩ := (orderly.standing m.taskId).ready each listed
    cases found.symm.trans stored
    rw [queued] at owned
    cases owned
  apply orderly.release good found
  · intro other apart
    rw [jobs, Dict.get?_set_ne _ _ apart]
  · intro new stored
    cases there.symm.trans stored
    exact JobState.owned_eq_false_of_waiting waits
  · exact running
  · exact permit
  · intro each other listed
    rcases ready with same | ⟨queued, score, same⟩
    · rw [same] at listed
      exact .inl ⟨old listed, listed⟩
    · rw [same] at listed
      rcases of_atLane_set listed with before | ⟨rfl, placed⟩
      · exact .inl ⟨old before, before⟩
      · exact .inr ⟨rfl, next, there, queued, lane.trans placed.symm⟩

theorem promote (orderly : Orderly now db) {m : ScriptJob} {lane : Lane}
    (found : db.jobs.get? m.taskId = some m) (delayed : m.state = .delayed) :
    Orderly now (Script.promote
      { db with delayed := atLane db.delayed lane fun set => set.del m.taskId } m) := by
  let promoted : ScriptJob := { m with toJobRecord := m.promote }
  have there : (db.jobs.set m.taskId promoted).get? m.taskId = some promoted :=
    Dict.get?_set_self _ _ _
  apply orderly.update_free m.taskId
  · intro other apart
    exact Dict.get?_set_ne _ _ apart
  · intro next stored
    cases there.symm.trans stored
    rfl
  · intro old stored
    cases found.symm.trans stored
    rw [delayed]
    rfl
  · rfl
  · rfl
  · intro each other listed
    rcases of_atLane_set listed with before | ⟨rfl, placed⟩
    · refine .inl ⟨?_, before⟩
      rintro rfl
      obtain ⟨old, stored, queued, _⟩ := (orderly.standing m.taskId).ready each before
      cases found.symm.trans stored
      cases delayed.symm.trans queued
    · exact .inr ⟨rfl, promoted, there, rfl, placed.symm⟩

theorem beat (orderly : Orderly now db) {m : ScriptJob} {ownerToken : String}
    (found : db.jobs.get? m.taskId = some m) (owned : m.state.owned = true)
    (token : m.ownerToken = some ownerToken)
    (live : m.imageWork = true → m.leaseLost now = false) :
    Orderly now (save
      { db with
        running := db.running.set m.taskId (now + ownerLease)
        permit := db.permit.map fun permit =>
          if m.imageWork ∧ permit.token = ownerToken then
            { permit with expiresAt := now + ownerLease }
          else permit }
      { m with toJobRecord := m.beat now }) := by
  let beaten : ScriptJob := { m with toJobRecord := m.beat now }
  have there : (db.jobs.set m.taskId beaten).get? m.taskId = some beaten :=
    Dict.get?_set_self _ _ _
  apply orderly.update m.taskId
  · intro other apart
    exact Dict.get?_set_ne _ _ apart
  · exact fun _ _ _ listed => listed
  · intro other apart listed
    exact (of_set listed).resolve_left apart
  · intro held permitted apart
    change db.permit.map _ = _
    rw [permitted, Option.map_some, if_neg]
    rintro ⟨_, mine⟩
    exact apart m found owned (token.trans (congrArg some mine.symm))
  · constructor
    · intro each listed
      obtain ⟨old, stored, queued, _⟩ := (orderly.standing m.taskId).ready each listed
      cases found.symm.trans stored
      rw [queued] at owned
      cases owned
    · exact fun _ => ⟨beaten, there, owned⟩
    · intro next stored _ works _
      cases there.symm.trans stored
      obtain ⟨permit, held, mine, _⟩ :=
        (orderly.standing m.taskId).permit m found owned works (live works)
      refine ⟨{ permit with expiresAt := now + ownerLease }, ?_, mine, rfl⟩
      change db.permit.map _ = _
      rw [held, Option.map_some, if_pos ⟨works, Option.some.inj (mine.symm.trans token)⟩]
  · intro next stored held other r apart busy holds shared
    cases there.symm.trans stored
    exact apart (orderly.apart other m.taskId r m busy found holds owned shared.symm)

theorem erase (orderly : Orderly now db) (good : (ledger db).WellFormed) (userId : Int)
    (id : TaskId) : Orderly now (eraseStep userId db id) := by
  cases found : db.jobs.get? id with
  | none =>
    have same : (db.jobs.get? id).elim db (fun m => eraseRecord db m id) = db := by
      rw [found]
      rfl
    apply orderly.congr
    all_goals
      unfold eraseStep
      rw [same]
  | some m =>
    have same : (db.jobs.get? id).elim db (fun m => eraseRecord db m id) =
        eraseRecord db m id := by
      rw [found]
      rfl
    have named := named good found
    apply orderly.release good found
    · intro other apart
      rw [eraseStep_jobs, if_neg apart]
    · intro next there
      rw [eraseStep_jobs, if_pos rfl] at there
      cases there
    · unfold eraseStep
      rw [same, ← named]
      rfl
    · unfold eraseStep
      rw [same]
      rfl
    · intro each other listed
      unfold eraseStep at listed
      rw [same] at listed
      obtain ⟨before, elsewhere⟩ := of_atLane_del listed
      refine .inl ⟨?_, before⟩
      rintro rfl
      obtain ⟨old, stored, _, placed⟩ := (orderly.standing other).ready each before
      cases found.symm.trans stored
      exact elsewhere rfl placed.symm

end Orderly

section Phases

variable {fresh : Db → TaskId → Prop} {now : Time} {cause : Cause} {db after : Db}

/-- Every change but a claim and a heartbeat keeps the keys in order. -/
theorem Edit.orderly (edit : Edit fresh now cause db after) (good : (ledger db).WellFormed)
    (frees : Frees fresh) (quiet : ∀ lane ownerToken, cause ≠ .call (.claim lane ownerToken))
    (still : ∀ id ownerToken revision, cause ≠ .call (.heartbeat id ownerToken revision))
    (orderly : Orderly now db) : Orderly now after := by
  cases edit with
  | expires => exact orderly.expire good
  | unlistsPayload | unlistsDeadline => exact orderly.congr rfl rfl rfl rfl
  | unlistsRunning =>
    exact orderly.unlist rfl (fun _ _ listed => listed) (fun _ listed => (of_del listed).2) rfl
  | unlistsDelayed => exact orderly.congr rfl rfl rfl rfl
  | unlistsReady lane =>
    exact orderly.unlist rfl (fun _ _ listed => (of_atLane_del listed).1)
      (fun _ listed => listed) rfl
  | @drops m _ found ended => exact orderly.drop found rfl ended rfl
  | @endsUnpaid m _ found active =>
    apply orderly.terminal good found
    case ended => exact (Ending.overdue active).active_ends.2
    all_goals rfl
  | @ends m next state safe found moves same reason how =>
    exact orderly.terminal good found moves.sameJob.taskId moves.sameJob.lane same.2 rfl rfl rfl
      rfl _ _ _ how.active_ends.2
  | @requeuesLost m sweeps found running safe left =>
    exact orderly.requeue good found rfl rfl rfl rfl rfl (.inr ⟨rfl, _, rfl⟩)
      (by rw [running]; rfl)
  | @promotes m lane _ found delayed _ => exact orderly.promote found delayed
  | @forgets id _ _ =>
    apply orderly.congr
    all_goals
      unfold metadataStep
      cases db.owners.get? id <;> rfl
  | joins => exact orderly.congr rfl rfl rfl rfl
  | @accepts job policy lane _ clear _ => exact orderly.accept _ _ (frees db _ clear)
  | @succeeds m payload revision actor operationId epoch _ found offered clear _ =>
    have free := frees db _ clear
    refine Orderly.drop (orderly.accept _ _ free) ?_ rfl (retryable?_eq_some offered).2.1 rfl
    rw [accept_jobs, Dict.get?_set_ne _ _ fun same => ?_]
    · exact found
    · rw [same] at found
      have spent := (free m found).2.2
      cases spent.symm.trans (retryable?_eq_some offered).2.2.1
  | starts called => exact absurd called (quiet _ _)
  | beats called => exact absurd called (still _ _ _)
  | @annotates m next found moves same =>
    rcases same with ⟨update, rfl⟩ | ⟨token, rfl⟩
    · exact orderly.restate found rfl rfl rfl rfl rfl rfl rfl rfl rfl id
    · exact orderly.restate found rfl rfl rfl rfl rfl rfl rfl rfl rfl id
  | @requeuesRetry m ownerToken revision result delay update _ found owned _ _ _ _ =>
    refine orderly.requeue good found (requeueRetry_jobs _ _ _ _ _) ?_ rfl ?_ ?_ ?_ owned.owned
    · exact JobRecord.requeueRetry_waiting _ _ _ _
    · unfold requeueRetry
      dsimp only [save]
      split <;> rfl
    · unfold requeueRetry
      dsimp only [save]
      split <;> rfl
    · unfold requeueRetry
      dsimp only [save]
      split
      · exact .inl rfl
      · next undelayed =>
          have waits := m.requeueRetry_waiting now delay result.reasonCode
          exact .inr ⟨JobState.queued_of_waiting waits undelayed, _, rfl⟩
  | @requestsCancel m actor operationId _ found owned =>
    refine orderly.restate found rfl rfl rfl rfl rfl rfl rfl rfl owned.symm ?_
    intro queued
    rw [queued] at owned
    cases owned
  | handsOver _ found ended => exact orderly.drop found rfl ended rfl
  | remembers | setsLane => exact orderly.congr rfl rfl rfl rfl
  | erases id => exact orderly.erase good _ id

end Phases

end Script

end BobbyBotique.Queue
