import BobbyBotique.Queue.ScriptSlots

/-!
# The counters of the Redis script

A counter follows the records exactly as long as every entry of a ready set,
of the owner table and of the metadata index stands for the record of its id.
The script keeps these entries in step, but for two places: an admission does
not strike off an old entry of the metadata index, and a record whose key runs
out takes the account of its payload with it.
-/

namespace BobbyBotique.Queue

namespace Script

/-- The entries of one id in the ready sets and in the owner table. -/
structure Filed (db : Db) (id : TaskId) : Prop where
  ready : ∀ lane, (db.ready lane).contains id = true →
    ∃ m, db.jobs.get? id = some m ∧ m.state = .queued ∧ m.lane = lane
  owner : ∀ owner, db.owners.get? id = some owner →
    (db.jobs.get? id).elim (owner.state.active = false) fun m => owner.state = m.state

/-- Every id has the entries that its record calls for. -/
def Files (db : Db) : Prop := ∀ id, Filed db id

namespace Files

variable {now : Time} {db after : Db}

/-- A change that touches one task id keeps the entries of the others. -/
theorem update (files : Files db) (id : TaskId)
    (jobs : ∀ other, other ≠ id → after.jobs.get? other = db.jobs.get? other)
    (ready : ∀ lane other, other ≠ id → (after.ready lane).contains other = true →
      (db.ready lane).contains other = true)
    (owners : ∀ other, other ≠ id → after.owners.get? other = db.owners.get? other)
    (entry : Filed after id) : Files after := by
  intro other
  by_cases same : other = id
  · exact same ▸ entry
  · have filed := files other
    constructor
    · intro lane listed
      rw [jobs other same]
      exact filed.ready lane (ready lane other same listed)
    · intro owner found
      rw [jobs other same]
      exact filed.owner owner (owners other same ▸ found)

theorem congr (files : Files db) (jobs : after.jobs = db.jobs) (ready : after.ready = db.ready)
    (owners : after.owners = db.owners) : Files after := by
  intro id
  have filed := files id
  exact ⟨jobs ▸ ready ▸ filed.ready, jobs ▸ owners ▸ filed.owner⟩

/-- A record that is saved with its owner entry stays filed. -/
theorem change (files : Files db) {id : TaskId} {m next : ScriptJob}
    (found : db.jobs.get? id = some m) (jobs : after.jobs = db.jobs.set id next)
    (owners : after.owners = db.owners ∧ next.state = m.state ∨
      ∃ owner, after.owners = db.owners.set id owner ∧ owner.state = next.state)
    (ready : ∀ lane other, (after.ready lane).contains other = true →
      (db.ready lane).contains other = true ∧
        (other = id → next.state = m.state ∧ next.lane = m.lane) ∨
      other = id ∧ next.state = .queued ∧ next.lane = lane) : Files after := by
  have there : after.jobs.get? id = some next := by rw [jobs, Dict.get?_set_self]
  have filed := files id
  apply files.update id
  · intro other apart
    rw [jobs, Dict.get?_set_ne _ _ apart]
  · intro lane other apart listed
    rcases ready lane other listed with ⟨before, _⟩ | ⟨same, _⟩
    · exact before
    · exact absurd same apart
  · intro other apart
    rcases owners with ⟨same, _⟩ | ⟨owner, same, _⟩
    · rw [same]
    · rw [same, Dict.get?_set_ne _ _ apart]
  · constructor
    · intro lane listed
      rcases ready lane id listed with ⟨before, same⟩ | ⟨_, queued, placed⟩
      · obtain ⟨old, stored, queued, placed⟩ := filed.ready lane before
        cases found.symm.trans stored
        exact ⟨next, there, (same rfl).1.trans queued, (same rfl).2.trans placed⟩
      · exact ⟨next, there, queued, placed⟩
    · intro owner listed
      rw [there, Option.elim_some]
      rcases owners with ⟨same, state⟩ | ⟨entry, same, state⟩
      · rw [same] at listed
        have before := filed.owner owner listed
        rw [found, Option.elim_some] at before
        exact before.trans state.symm
      · rw [same, Dict.get?_set_self] at listed
        cases listed
        exact state

/-- The ready sets are left as they are, and so is the record. -/
theorem listed_same {m next : ScriptJob} {lane : Lane} {other : TaskId}
    (state : next.state = m.state) (placed : next.lane = m.lane)
    (listed : (db.ready lane).contains other = true) :
    (db.ready lane).contains other = true ∧
        (other = m.taskId → next.state = m.state ∧ next.lane = m.lane) ∨
      other = m.taskId ∧ next.state = .queued ∧ next.lane = lane :=
  .inl ⟨listed, fun _ => ⟨state, placed⟩⟩

/-- A record that was not queued is put into the ready set of its lane. -/
theorem listed_set (files : Files db) {m next : ScriptJob} {lane each : Lane} {other : TaskId}
    {score : Int} (found : db.jobs.get? m.taskId = some m) (moved : m.state ≠ .queued)
    (queued : next.state = .queued) (placed : next.lane = each)
    (listed : (atLane db.ready each (fun set => set.set m.taskId score) lane).contains other =
      true) :
    (db.ready lane).contains other = true ∧
        (other = m.taskId → next.state = m.state ∧ next.lane = m.lane) ∨
      other = m.taskId ∧ next.state = .queued ∧ next.lane = lane := by
  rcases of_atLane_set listed with before | ⟨same, here⟩
  · refine .inl ⟨before, ?_⟩
    rintro rfl
    obtain ⟨old, stored, waits, _⟩ := (files m.taskId).ready lane before
    cases found.symm.trans stored
    exact absurd waits moved
  · exact .inr ⟨same, queued, placed.trans here.symm⟩

/-- The record of an ended job is saved again. -/
theorem drop (files : Files db) {m next : ScriptJob} (found : db.jobs.get? m.taskId = some m)
    (named : next.taskId = m.taskId) (lane : next.lane = m.lane) (state : next.state = m.state) :
    Files (save (dropPayload db m) next) := by
  have jobs : (save (dropPayload db m) next).jobs = db.jobs.set m.taskId next := named ▸ rfl
  exact files.change found jobs (.inl ⟨rfl, state⟩) fun _ _ => listed_same state lane

theorem expire (files : Files db) (good : (ledger db).WellFormed) :
    Files (Script.expire db now) := by
  intro id
  have filed := files id
  cases found : db.jobs.get? id with
  | none =>
    have gone : (Script.expire db now).jobs.get? id = none := by
      change (db.jobs.retain _).get? id = none
      rw [Dict.get?_retain, found]
      rfl
    constructor
    · intro lane listed
      obtain ⟨m, stored, _⟩ := filed.ready lane listed
      cases found.symm.trans stored
    · intro owner listed
      have before := filed.owner owner listed
      rw [found] at before
      rw [gone]
      exact before
  | some m =>
    have record := good.record id _ (ledger_of_get? found)
    have kept : m.state.active = true → (Script.expire db now).jobs.get? id = some m := by
      intro active
      refine (Dict.get?_retain_eq_some _ _ _ _).mpr ⟨found, ?_⟩
      rw [record.unexpired active]
      rfl
    have only : ∀ r, (Script.expire db now).jobs.get? id = some r → r = m := by
      intro r stored
      have before := ((Dict.get?_retain_eq_some _ _ _ _).mp stored).1
      exact Option.some.inj (before.symm.trans found)
    constructor
    · intro lane listed
      obtain ⟨old, stored, queued, placed⟩ := filed.ready lane listed
      cases found.symm.trans stored
      exact ⟨m, kept (by rw [queued]; rfl), queued, placed⟩
    · intro owner listed
      have before := filed.owner owner listed
      rw [found, Option.elim_some] at before
      cases left : (Script.expire db now).jobs.get? id with
      | some r =>
        cases only r left
        exact before
      | none =>
        rw [Option.elim_none, before]
        cases active : m.state.active with
        | false => rfl
        | true => cases left.symm.trans (kept active)

theorem terminal (files : Files db) {m held : ScriptJob}
    (found : db.jobs.get? m.taskId = some m) (named : held.taskId = m.taskId)
    (lane : held.lane = m.lane) {base : Db} (jobs : base.jobs = db.jobs)
    (ready : base.ready = db.ready) (owners : base.owners = db.owners) (state : JobState)
    (reason : Option String) (safe : Bool) :
    Files (Script.terminal base now held state reason safe) := by
  have there : (Script.terminal base now held state reason safe).jobs.get? m.taskId =
      some (Script.ended base now held state reason safe) := by
    rw [terminal_jobs, named, Dict.get?_set_self]
  have unlisted : ∀ each other,
      ((Script.terminal base now held state reason safe).ready each).contains other = true →
      other ≠ m.taskId ∧ (db.ready each).contains other = true := by
    intro each other listed
    rw [terminal_ready, ready, named, lane] at listed
    obtain ⟨before, elsewhere⟩ := of_atLane_del listed
    refine ⟨?_, before⟩
    rintro rfl
    obtain ⟨old, stored, _, placed⟩ := (files m.taskId).ready each before
    cases found.symm.trans stored
    exact elsewhere rfl placed.symm
  apply files.update m.taskId
  · intro other apart
    rw [terminal_jobs, jobs, named, Dict.get?_set_ne _ _ apart]
  · intro each other _ listed
    exact (unlisted each other listed).2
  · intro other apart
    rw [terminal_owners, owners, named, Dict.get?_set_ne _ _ apart]
  · constructor
    · intro each listed
      exact absurd rfl (unlisted each m.taskId listed).1
    · intro owner listed
      rw [terminal_owners, named, Dict.get?_set_self] at listed
      cases listed
      rw [there]
      rfl

theorem accept (files : Files db) {submission : Submission} (policy : QueuePolicy)
    (record : LaneRecord) (free : Free db submission.job.taskId) :
    Files (Script.accept db now submission policy record) := by
  have there : (Script.accept db now submission policy record).jobs.get? submission.job.taskId =
      some (accepted submission policy now (db.sequence + 1)) := by
    rw [accept_jobs, Dict.get?_set_self]
  have owners : (Script.accept db now submission policy record).owners =
      db.owners.set submission.job.taskId
        ⟨submission.job.userId, submission.lane,
          (accepted submission policy now (db.sequence + 1)).state⟩ := by
    unfold Script.accept
    dsimp only
    split <;> rfl
  have old : ∀ {lane other}, (db.ready lane).contains other = true →
      other ≠ submission.job.taskId := by
    rintro lane other listed rfl
    obtain ⟨m, found, queued, _⟩ := (files _).ready lane listed
    have ended := (free m found).1
    rw [queued] at ended
    cases ended
  apply files.update submission.job.taskId
  · intro other apart
    rw [accept_jobs, Dict.get?_set_ne _ _ apart]
  · intro lane other apart listed
    rcases of_accept_ready listed with before | ⟨same, _⟩
    · exact before
    · exact absurd same apart
  · intro other apart
    rw [owners, Dict.get?_set_ne _ _ apart]
  · constructor
    · intro lane listed
      rcases of_accept_ready listed with before | ⟨_, queued, placed⟩
      · exact absurd rfl (old before)
      · exact ⟨_, there, queued, placed.symm⟩
    · intro owner listed
      rw [owners, Dict.get?_set_self] at listed
      cases listed
      rw [there]
      rfl

/-- A held job that its owner puts back. -/
theorem requeueRetry (files : Files db) {m held : ScriptJob}
    (found : db.jobs.get? m.taskId = some m) (named : held.taskId = m.taskId)
    (lane : held.lane = m.lane) (moved : m.state ≠ .queued) (delay : Time)
    (reason : Option String) :
    Files (Script.requeueRetry db now held delay reason) := by
  have waits : (held.requeueRetry now delay reason).state.waiting = true :=
    JobRecord.requeueRetry_waiting _ _ _ _
  have jobs := requeueRetry_jobs db now held delay reason
  have owners : (Script.requeueRetry db now held delay reason).owners = db.owners.set held.taskId
        ⟨held.userId, held.lane, (held.requeueRetry now delay reason).state⟩ := by
    unfold Script.requeueRetry
    dsimp only [save]
    split <;> rfl
  have ready : ∀ each other,
      ((Script.requeueRetry db now held delay reason).ready each).contains other = true →
      (db.ready each).contains other = true ∨ other = m.taskId ∧
        (held.requeueRetry now delay reason).state = .queued ∧ m.lane = each := by
    intro each other listed
    unfold Script.requeueRetry at listed
    dsimp only [save] at listed
    split at listed
    · exact .inl listed
    · next undelayed =>
        rcases of_atLane_set listed with before | ⟨same, here⟩
        · exact .inl before
        · exact .inr ⟨same.trans named, JobState.queued_of_waiting waits undelayed,
            lane.symm.trans here.symm⟩
  rw [named] at jobs owners
  apply files.change found jobs (.inr ⟨_, owners, rfl⟩)
  intro each other listed
  rcases ready each other listed with before | ⟨same, queued, placed⟩
  · refine .inl ⟨before, ?_⟩
    rintro rfl
    obtain ⟨old, stored, queued, _⟩ := (files m.taskId).ready each before
    cases found.symm.trans stored
    exact absurd queued moved
  · exact .inr ⟨same, queued, lane.trans placed⟩

theorem forget (files : Files db) (id : TaskId) : Files (metadataStep db id) := by
  have jobs := metadataStep_jobs db id
  have ready : (metadataStep db id).ready = db.ready := by
    unfold metadataStep
    cases db.owners.get? id <;> rfl
  have owners : (metadataStep db id).owners = db.owners.del id := by
    unfold metadataStep
    cases db.owners.get? id <;> rfl
  apply files.update id
  · exact fun _ _ => by rw [jobs]
  · exact fun _ _ _ listed => ready ▸ listed
  · intro other apart
    rw [owners, Dict.get?_del_ne _ apart]
  · constructor
    · rw [jobs, ready]
      exact (files id).ready
    · intro owner listed
      rw [owners, Dict.get?_del_self] at listed
      cases listed

theorem erase (files : Files db) (userId : Int) (id : TaskId) :
    Files (eraseStep userId db id) := by
  have owners : (eraseStep userId db id).owners = db.owners.del id := by
    unfold eraseStep
    cases db.jobs.get? id <;> rfl
  have ready : ∀ lane other, ((eraseStep userId db id).ready lane).contains other = true →
      other ≠ id ∧ (db.ready lane).contains other = true := by
    intro lane other listed
    unfold eraseStep at listed
    cases found : db.jobs.get? id with
    | none =>
      rw [found] at listed
      refine ⟨?_, listed⟩
      rintro rfl
      obtain ⟨m, stored, _⟩ := (files other).ready lane listed
      cases found.symm.trans stored
    | some m =>
      rw [found] at listed
      obtain ⟨before, elsewhere⟩ := of_atLane_del listed
      refine ⟨?_, before⟩
      rintro rfl
      obtain ⟨old, stored, _, placed⟩ := (files other).ready lane before
      cases found.symm.trans stored
      exact elsewhere rfl placed.symm
  apply files.update id
  · intro other apart
    rw [eraseStep_jobs, if_neg apart]
  · exact fun lane other _ listed => (ready lane other listed).2
  · intro other apart
    rw [owners, Dict.get?_del_ne _ apart]
  · constructor
    · intro lane listed
      exact absurd rfl (ready lane id listed).1
    · intro owner listed
      rw [owners, Dict.get?_del_self] at listed
      cases listed

end Files

section Phases

variable {fresh : Db → TaskId → Prop} {now : Time} {cause : Cause} {db after : Db}

/-- Every change keeps the entries when no admission takes an id that is still filed. -/
theorem Edit.files (edit : Edit fresh now cause db after) (good : (ledger db).WellFormed)
    (frees : Frees fresh) (files : Files db) : Files after := by
  cases edit with
  | expires => exact files.expire good
  | unlistsPayload | unlistsDeadline | unlistsRunning | unlistsDelayed =>
    exact files.congr rfl rfl rfl
  | unlistsReady lane =>
    intro id
    have filed := files id
    exact ⟨fun each listed => filed.ready each (of_atLane_del listed).1, filed.owner⟩
  | @drops m _ found ended =>
    exact files.drop found rfl rfl rfl
  | @endsUnpaid m _ found active =>
    apply files.terminal found
    all_goals rfl
  | @ends m next state safe found moves same reason how =>
    exact files.terminal found moves.sameJob.taskId moves.sameJob.lane rfl rfl rfl _ _ _
  | @requeuesLost m sweeps found running safe left =>
    have waiting : m.state ≠ .queued := by rw [running]; nofun
    let requeued : ScriptJob := { m with toJobRecord := m.requeueLost }
    exact @Files.change db (requeueLost db m) files _ _ requeued found rfl
      (.inr ⟨⟨m.userId, m.lane, .queued⟩, rfl, rfl⟩)
      fun lane other => files.listed_set found waiting rfl rfl
  | @promotes m lane _ found delayed _ =>
    have waiting : m.state ≠ .queued := by rw [delayed]; nofun
    let promoted : ScriptJob := { m with toJobRecord := m.promote }
    exact @Files.change db (promote _ m) files _ _ promoted found rfl
      (.inr ⟨⟨m.userId, m.lane, .queued⟩, rfl, rfl⟩)
      fun each other => files.listed_set found waiting rfl rfl
  | @forgets id _ _ => exact files.forget id
  | joins => exact files.congr rfl rfl rfl
  | @accepts job policy lane _ clear _ => exact files.accept _ _ (frees db _ clear)
  | @succeeds m payload revision actor operationId epoch _ found offered clear _ =>
    have free := frees db _ clear
    apply (files.accept _ _ free).drop
    · rw [accept_jobs, Dict.get?_set_ne _ _ fun same => ?_]
      · exact found
      · rw [same] at found
        have spent := (free m found).2.2
        cases spent.symm.trans (retryable?_eq_some offered).2.2.1
    · rfl
    · rfl
    · rfl
  | @starts m lane ownerToken called found listed queued left idle payload =>
    have owners : (start db now lane m ownerToken).owners =
        db.owners.set m.taskId ⟨m.userId, m.lane, .running⟩ := by
      unfold start extendKeys
      dsimp only [save, transition]
      split <;> rfl
    have placed : m.lane = lane := by
      obtain ⟨old, stored, _, placed⟩ := (files m.taskId).ready lane listed
      cases found.symm.trans stored
      exact placed
    apply files.change found (start_jobs ..) (.inr ⟨_, owners, rfl⟩)
    intro each other still
    rw [start_ready] at still
    obtain ⟨before, elsewhere⟩ := of_atLane_del still
    refine .inl ⟨before, ?_⟩
    rintro rfl
    obtain ⟨old, stored, _, there⟩ := (files m.taskId).ready each before
    cases found.symm.trans stored
    exact absurd (there.symm.trans placed) (elsewhere rfl)
  | @beats m ownerToken revision called found owned =>
    let beaten : ScriptJob := { m with toJobRecord := m.beat now }
    exact @Files.change db (save _ beaten) files _ _ beaten found rfl (.inl ⟨rfl, rfl⟩)
      fun _ _ => Files.listed_same rfl rfl
  | @annotates m next found moves same =>
    have state : next.state = m.state := by
      rcases same with ⟨update, rfl⟩ | ⟨token, rfl⟩ <;> rfl
    have job := moves.sameJob
    have jobs : (save db { m with toJobRecord := next }).jobs =
        db.jobs.set m.taskId { m with toJobRecord := next } := job.taskId ▸ rfl
    exact files.change found jobs (.inl ⟨rfl, state⟩)
      fun _ _ => Files.listed_same state job.lane
  | @requeuesRetry m ownerToken revision result delay update _ found owned running _ _ _ =>
    have moved : m.state ≠ .queued := by rw [running]; nofun
    exact @Files.requeueRetry now db files m { m with toJobRecord := m.summarise update } found
      rfl rfl moved _ _
  | @requestsCancel m actor operationId _ found owned =>
    let requested : ScriptJob := { m with toJobRecord := m.requestCancel }
    refine @Files.change db (save _ requested) files _ _ requested found rfl
      (.inr ⟨⟨m.userId, m.lane, .cancelRequested⟩, rfl, rfl⟩) ?_
    intro lane other listed
    refine .inl ⟨listed, ?_⟩
    rintro rfl
    obtain ⟨old, stored, queued, _⟩ := (files m.taskId).ready lane listed
    cases found.symm.trans stored
    rw [queued] at owned
    cases owned
  | @handsOver m _ _ _ _ _ found ended =>
    exact files.drop found rfl rfl rfl
  | remembers | setsLane => exact files.congr rfl rfl rfl
  | erases id => exact files.erase _ id

/-! ## The metadata index -/

/-- No entry of the metadata index that is due stands for an active job. -/
def Settled (now : Time) (db : Db) : Prop :=
  ∀ id score, db.expiryMetadata.get? id = some score → score ≤ now →
    ∀ m, db.jobs.get? id = some m → m.state.active = false

/-- A record that is saved without a new entry in the metadata index. -/
theorem Settled.change (settled : Settled now db) {id : TaskId} {next : ScriptJob}
    (jobs : after.jobs = db.jobs.set id next) (due : after.expiryMetadata = db.expiryMetadata)
    (stays : next.state.active = true → ∃ m, db.jobs.get? id = some m ∧ m.state.active = true) :
    Settled now after := by
  intro other score listed reached r stored
  rw [due] at listed
  rw [jobs, Dict.get?_set] at stored
  split at stored
  · next same =>
      subst same
      cases stored
      cases active : next.state.active with
      | false => rfl
      | true =>
        obtain ⟨m, found, before⟩ := stays active
        exact absurd ((settled other score listed reached m found).symm.trans before)
          Bool.false_ne_true
  · exact settled other score listed reached r stored

/-- A job that ends is no longer active. -/
theorem Settled.terminal (settled : Settled now db) {base : Db} (jobs : base.jobs = db.jobs)
    (due : base.expiryMetadata = db.expiryMetadata) {m : ScriptJob} {state : JobState}
    {reason : Option String} {safe : Bool} (ended : state.active = false) :
    Settled now (Script.terminal base now m state reason safe) := by
  intro other score listed reached r stored
  rw [terminal_jobs, jobs, Dict.get?_set] at stored
  split at stored
  · cases stored
    exact ended
  · next apart =>
      rw [terminal_expiryMetadata, due, Dict.get?_set_ne _ _ apart] at listed
      exact settled other score listed reached r stored

/-- The sweep leaves no active job an entry of the metadata index that is due. -/
theorem Edit.settled (edit : Edit fresh now cause db after) (sweeps : cause = .sweep)
    (settled : Settled now db) : Settled now after := by
  cases edit with
  | expires =>
    intro id score listed reached m found
    exact settled id score listed reached m ((Dict.get?_retain_eq_some _ _ _ _).mp found).1
  | unlistsPayload | unlistsDeadline | unlistsRunning | unlistsDelayed | unlistsReady =>
    exact settled
  | @drops m _ found ended =>
    apply @Settled.change now db (save _ (unaccounted m)) settled _ _ rfl rfl
    exact fun active => ⟨m, found, active⟩
  | @endsUnpaid m _ _ active =>
    exact @Settled.terminal now db settled (dropPayload db m) rfl rfl _ _ _ _
      (Ending.overdue active).active_ends.2
  | ends _ _ _ _ how => exact settled.terminal rfl rfl how.active_ends.2
  | @requeuesLost m _ found running _ _ =>
    let requeued : ScriptJob := { m with toJobRecord := m.requeueLost }
    apply @Settled.change now db (requeueLost db m) settled _ requeued rfl rfl
    exact fun _ => ⟨m, found, by rw [running]; rfl⟩
  | @promotes m lane _ found delayed _ =>
    let promoted : ScriptJob := { m with toJobRecord := m.promote }
    apply @Settled.change now db (promote _ m) settled _ promoted rfl rfl
    exact fun _ => ⟨m, found, by rw [delayed]; rfl⟩
  | @forgets id _ _ =>
    have jobs := metadataStep_jobs db id
    have due : (metadataStep db id).expiryMetadata = db.expiryMetadata.del id := by
      unfold metadataStep
      cases db.owners.get? id <;> rfl
    intro other score listed reached m found
    rw [due, Dict.get?_del] at listed
    rw [jobs] at found
    split at listed
    · cases listed
    · exact settled other score listed reached m found
  | joins => exact settled
  | @annotates m next found moves same =>
    have state : next.state = m.state := by
      rcases same with ⟨update, rfl⟩ | ⟨token, rfl⟩ <;> rfl
    have named := moves.sameJob.taskId
    have jobs : (save db { m with toJobRecord := next }).jobs =
        db.jobs.set m.taskId { m with toJobRecord := next } := named ▸ rfl
    exact settled.change jobs rfl fun active => ⟨m, found, state ▸ active⟩
  | setsLane => exact settled
  | accepts called | succeeds called | starts called | beats called | requeuesRetry _ called
  | requestsCancel called | handsOver called | remembers _ called | erases _ called =>
    cases sweeps.symm.trans called

/-! ## The counters -/

/-- The counter is not one of the jobs that ended in some state. -/
def activeField : CountField → Bool
  | .state state => state.active
  | _ => true

/-- No record whose metadata has run out still has its payload accounted. -/
def PaidOut (now : Time) (db : Db) : Prop :=
  ∀ id m, db.jobs.get? id = some m → m.outlived now = true → m.payloadAccounted = false

/-- Every counter of a lane is what the records add to it. -/
def Exact (db : Db) : Prop := ∀ lane field, activeField field = true → slack db lane field = 0

/-- While the entries stand for the records no change of a counter is lost. -/
theorem tracked {field : CountField} (frees : Frees fresh)
    (files : Files db) (paid : PaidOut now db) (settled : cause = .sweep → Settled now db)
    (counted : activeField field = true) : Tracked fresh now cause field db := by
  have active : ∀ state, field = .state state → state.active = true := by
    rintro state rfl
    exact counted
  constructor
  · exact frees db
  · intro _ each m found listed
    obtain ⟨old, stored, _, placed⟩ := (files m.taskId).ready each listed
    cases found.symm.trans stored
    exact placed
  · exact fun _ => paid
  · exact active
  · rintro sweeps state same id owner ⟨score, due, reached⟩ stored rfl
    have filed := (files id).owner owner stored
    have ended : owner.state.active = false := by
      cases found : db.jobs.get? id with
      | none =>
        rw [found] at filed
        exact filed
      | some m =>
        rw [found, Option.elim_some] at filed
        rw [filed]
        exact settled sweeps id score due reached m found
    exact absurd (ended.symm.trans (active _ same)) Bool.false_ne_true

theorem Edit.exact (edit : Edit fresh now cause db after) (good : (ledger db).WellFormed)
    (frees : Frees fresh) (files : Files db) (paid : PaidOut now db)
    (settled : cause = .sweep → Settled now db) (exact : Exact db) : Exact after := by
  intro lane field counted
  have kept := tracked frees files paid settled counted
  exact ((edit.balance lane field).slack_eq good kept).trans (exact lane field counted)

/-- What holds of the counters and of the entries behind them. -/
structure Reckoned (now : Time) (db : Db) : Prop where
  good : (ledger db).WellFormed
  files : Files db
  exact : Exact db
  paid : PaidOut now db

/-- A record that is in the store by the script's clock. -/
def Young (now : Time) (db : Db) : Prop :=
  ∀ id m, db.jobs.get? id = some m → m.outlived now = false

theorem Young.paidOut (young : Young now db) : PaidOut now db := by
  intro id m found gone
  exact absurd ((young id m found).symm.trans gone) Bool.false_ne_true

theorem Edit.young (edit : Edit fresh now cause db after) (young : Young now db) :
    Young now after := by
  intro id next found
  apply Bool.eq_false_iff.mpr
  intro gone
  have fate := (Edits.single edit).progress.fate id
  rw [ledger_of_get? found] at fate
  generalize earlier : (ledger db).records.get? id = before at fate
  cases fate with
  | kept moves =>
    obtain ⟨m, stored, same⟩ := get?_of_ledger earlier
    have before := moves.outlived gone
    rw [← same, young id m stored] at before
    cases before
  | @born _ first _ admission _ _ _ _ moves =>
    have before := moves.outlived gone
    have active : first.state.active = true := by
      rw [JobState.active_eq, admission.waiting, Bool.or_true]
    rw [JobRecord.outlived, admission.wellFormed.unexpired active] at before
    cases before

/-- The phases that follow the expiry of the keys keep the counters exact. -/
theorem Edits.reckoned (edits : Edits fresh now cause db after)
    (frees : Frees fresh)
    (settled : cause = .sweep → Settled now db) (reckoned : Reckoned now db)
    (young : Young now db) : Reckoned now after ∧ Young now after := by
  have kept : Files after ∧ Exact after ∧ Young now after ∧
      (cause = .sweep → Settled now after) := by
    refine @Edits.keeps _ _ _ _ _ (fun db => Files db ∧ Exact db ∧ Young now db ∧
      (cause = .sweep → Settled now db)) (fun old new good edit held => ?_) edits reckoned.good
      ⟨reckoned.files, reckoned.exact, young, settled⟩
    obtain ⟨files, exact, young, settled⟩ := held
    exact ⟨edit.files good frees files,
      edit.exact good frees files young.paidOut settled exact, edit.young young,
      fun sweeps => edit.settled sweeps (settled sweeps)⟩
  obtain ⟨files, exact, young, _⟩ := kept
  exact ⟨⟨edits.wellFormed reckoned.good, files, exact, young.paidOut⟩, young⟩

/-- The keys that have run out are gone, and the counters are exact without them. -/
theorem Reckoned.expire (reckoned : Reckoned now db) :
    Reckoned now (Script.expire db now) ∧ Young now (Script.expire db now) := by
  have edit : Edit (fun _ _ => False) now .sweep db (Script.expire db now) := .expires rfl
  have young : Young now (Script.expire db now) := by
    intro id m found
    have left := ((Dict.get?_retain_eq_some _ _ _ _).mp found).2
    unfold JobRecord.outlived
    cases expiry : m.metadataExpiresAt with
    | none => rfl
    | some last =>
      rw [expiry] at left
      exact decide_eq_false (not_le.mpr (of_decide_eq_true left))
  refine ⟨⟨(Edits.single edit).wellFormed reckoned.good, ?_, ?_, young.paidOut⟩, young⟩
  · exact reckoned.files.expire reckoned.good
  · intro lane field counted
    have balance : Balance (fun _ _ => False) now (.call .sweep) lane field db
        (Script.expire db now) := .expired
    have kept : Tracked (fun _ _ => False) now (.call .sweep) field db :=
      tracked (fun _ _ => False.elim) reckoned.files reckoned.paid nofun counted
    exact (balance.slack_eq reckoned.good kept).trans (reckoned.exact lane field counted)

theorem Reckoned.sweep (reckoned : Reckoned now db) (settled : Settled now db) :
    Reckoned now (Script.sweep db now) ∧ Young now (Script.sweep db now) := by
  let never : Db → TaskId → Prop := fun _ _ => False
  obtain ⟨clean, young⟩ := reckoned.expire
  have left : Settled now (Script.expire db now) :=
    (Edit.expires rfl : Edit never now .sweep db (Script.expire db now)).settled rfl settled
  have unpaid : Edits never now .sweep (Script.expire db now)
      (payloadPass (Script.expire db now) now) := edits_payloadPass clean.good
  have overdue := unpaid.trans (edits_deadlinePass (unpaid.wellFormed clean.good))
  have lost := overdue.trans (edits_runningPass (overdue.wellFormed clean.good))
  have swept : Edits never now .sweep (Script.expire db now) (Script.sweep db now) :=
    lost.trans (edits_lastPasses (lost.wellFormed clean.good))
  exact swept.reckoned (fun _ _ => False.elim) (fun _ => left) clean young

/-- When the command is sent no due entry of the metadata index stands for an active job. -/
def Sorted (now : Time) (db : Db) (command : Command) : Prop :=
  answered now db command = none → Settled now db

theorem Reckoned.exec (reckoned : Reckoned now db) {command : Command}
    (sorted : Sorted now db command) (spares : Spares now db command) :
    Reckoned now (Script.exec now db command).2 := by
  rcases exec_cases now db command with ⟨reply, same⟩ | ⟨sent, same⟩
  · rw [same]
    exact reckoned
  · rw [same]
    obtain ⟨swept, young⟩ := reckoned.sweep (sorted sent)
    have own : Edits Free now (.call command) (Script.sweep db now)
        (act now (Script.sweep db now) command).2 := edits_act swept.good command (spares sent)
    exact (own.reckoned (fun _ _ free => free) nofun swept young).1

end Phases

end Script

namespace ScriptMachine

/--
What the counters need of a step: no time passes in which the metadata of a
record runs out while its payload is accounted, no active job has the metadata
entry of an earlier one, and no admission overwrites a job that still counts.
-/
def Accountable (machine : ScriptMachine) : Label → Prop
  | .advance elapsed => Script.PaidOut (machine.clock + elapsed) machine.db
  | .call command =>
    Script.Sorted machine.clock machine.db command ∧ Script.Spares machine.clock machine.db command

theorem reckoned_initial (clock : Time) : Script.Reckoned clock (initial clock).db := by
  constructor
  · exact initial_wellFormed clock
  · intro id
    constructor
    · exact fun _ => nofun
    · exact fun _ => nofun
  · exact fun _ _ _ => rfl
  · exact fun _ _ => nofun

/-- The counters are what the records add to them; a record whose key has run out is gone. -/
def CountersExact (machine : ScriptMachine) : Prop :=
  ∀ lane field, Script.activeField field = true → machine.db.counts lane field =
      Script.contributed (Script.expire machine.db machine.clock) lane field

/-- In a run of accountable steps the counters stay exact. -/
theorem counters_exact (start : Time) (labels : List Label)
    (accountable : Run.Along step Accountable (initial start) labels) :
    (Run.run step (initial start) labels).CountersExact := by
  have reckoned : Script.Reckoned (Run.run step (initial start) labels).clock
      (Run.run step (initial start) labels).db := by
    refine @Run.Along.invariant _ _ step Accountable
      (fun machine => Script.Reckoned machine.clock machine.db)
      (fun machine label reckoned met => ?_) _ _ (reckoned_initial start) accountable
    cases label with
    | advance elapsed => exact { reckoned with paid := met }
    | call command => exact Script.Reckoned.exec reckoned met.1 met.2
  intro lane field active
  exact sub_eq_zero.mp (reckoned.expire.1.exact lane field active)

/-- A submission to the lane of deferred jobs. -/
def submitted : Label :=
  .call (.admitJob
    { taskId := .submission 7 "a", kind := "mail", lane := "deferred", userId := 7,
      payload := .text "x", idempotencyKey := .given "a", effectful := false }
    defaultQueuePolicy)

/-- A submission that a worker starts a second later. -/
def startedSubmission : List Label :=
  [submitted, .advance 1000, .call (.claim .deferred "w")]

theorem accountable_startedSubmission :
    Run.Along step Accountable (initial 0) startedSubmission := by
  have empty : (Script.sweep (initial 0).db (initial 0).clock).jobs.items = [] := by decide +kernel
  have young : ((initial 0).step submitted).db.jobs.items.all
      (fun item => !item.2.outlived 1000) = true := by decide +kernel
  have unlisted : (((initial 0).step submitted).step (.advance 1000)).db.expiryMetadata.items =
      [] := by decide +kernel
  refine ⟨⟨fun _ _ _ => nofun, fun _ id _ m found => ?_⟩, fun id m found gone => ?_,
    ⟨fun _ id score listed => ?_, fun _ id accepts => ?_⟩, trivial⟩
  · have listed := (Dict.mem_items_iff _ id m).mpr found
    rw [empty] at listed
    cases listed
  · have kept := List.all_eq_true.mp young _ ((Dict.mem_items_iff _ id m).mpr found)
    have outlived : m.outlived 1000 = true := gone
    rw [outlived] at kept
    cases kept
  · have member := (Dict.mem_items_iff _ id score).mpr listed
    rw [unlisted] at member
    cases member
  · cases accepts

theorem counters_exact_startedSubmission :
    Script.contributed (Script.expire (Run.run step (initial 0) startedSubmission).db
      (Run.run step (initial 0) startedSubmission).clock) .deferred .running = 1 := by
  have exact := counters_exact 0 startedSubmission accountable_startedSubmission .deferred .running
    rfl
  rw [← exact]
  decide +kernel

/-- The payload of a failed job is kept for a retry, and nobody comes for a day. -/
def forgottenRetry : List Label :=
  [submitted, .call (.claim .deferred "w"),
    .call (.finish (.submission 7 "a") "w" 2 { outcome := .retryableFailure } 86400000),
    .advance 86400000, .call .sweep]

/--
A submission expires unclaimed a day later.  It is made again, and is still
queued when the metadata of the first comes to its end.
-/
def submittedTwice : List Label :=
  [submitted, .advance 86400000, .call .sweep, .advance 86000000, submitted, .advance 400000,
    .call .sweep]

/--
The bytes of a payload stay counted after the record is gone, and a job that
is queued is counted out with the metadata of its predecessor.
-/
theorem counters_drift :
    ¬ (Run.run step (initial 0) forgottenRetry).CountersExact ∧
      ¬ (Run.run step (initial 0) submittedTwice).CountersExact := by
  constructor
  · intro exact
    have bytes := exact .deferred .payloadBytes rfl
    exact absurd bytes (by decide +kernel)
  · intro exact
    have queued := exact .deferred (.state .queued) rfl
    exact absurd queued (by decide +kernel)

end ScriptMachine

end BobbyBotique.Queue
