import BobbyBotique.Queue.Fencing

/-!
# The finish of a worker

A worker reads the record of its job and finishes it at the revision it has
read.  A cancellation between the two calls raises the revision, and the finish
is refused; otherwise a success is never lost.
-/

namespace BobbyBotique.Queue

/-- A held job that no test of the sweep applies to. -/
structure JobRecord.Timely (m : JobRecord) (now : Time) : Prop where
  owned : m.state.owned = true
  paid : now < m.payloadExpiresAt
  early : now < m.deadlineAt
  leased : m.leaseLost now = false

/-! ## The sweep leaves such a job -/

namespace MemoryQueueStore

variable {s : MemoryQueueStore} {now : Time} {id other : TaskId}

theorem sweepJob_other (good : s.ledger.WellFormed) (ne : other ≠ id) :
    (sweepJob now s id).jobs.get? other = s.jobs.get? other := by
  unfold sweepJob
  split
  · rfl
  · next m found =>
      have same := named good found
      subst same
      split
      · exact Dict.get?_del_ne _ ne
      · split
        · unfold sweepPayload
          split
          · rw [terminal_jobs]
            exact (Dict.get?_set_ne _ _ ne).trans (Dict.get?_set_ne _ _ ne)
          · exact Dict.get?_set_ne _ _ ne
        · split
          · rw [terminal_jobs]
            exact Dict.get?_set_ne _ _ ne
          · split
            · unfold sweepLease
              split
              · rw [terminal_jobs]
                exact Dict.get?_set_ne _ _ ne
              · split
                · rw [terminal_jobs]
                  exact Dict.get?_set_ne _ _ ne
                · split
                  · rw [terminal_jobs]
                    exact Dict.get?_set_ne _ _ ne
                  · split
                    · rw [terminal_jobs]
                      exact Dict.get?_set_ne _ _ ne
                    · exact Dict.get?_set_ne _ _ ne
            · split
              · exact Dict.get?_set_ne _ _ ne
              · rfl

theorem sweepJob_timely (good : s.ledger.WellFormed) {m : MemoryJob}
    (found : s.jobs.get? id = some m) (timely : m.toJobRecord.Timely now) :
    sweepJob now s id = s := by
  have active := JobState.active_of_owned timely.owned
  have kept := (good.record _ _ (ledger_of_get? found)).unexpired active
  have waits : m.state ≠ .delayed := by
    intro delayed
    have owned := timely.owned
    rw [delayed] at owned
    cases owned
  unfold sweepJob
  rw [found]
  simp only [kept, Option.elim_none, Bool.false_eq_true, if_false, not_le.mpr timely.paid,
    not_le.mpr timely.early, and_false, timely.leased, waits, false_and]

/-- The sweep leaves a held job whose time has not come. -/
theorem sweep_timely (good : s.ledger.WellFormed) {m : MemoryJob}
    (found : s.jobs.get? id = some m) (timely : m.toJobRecord.Timely now) :
    (s.sweep now).jobs.get? id = some m := by
  have through : ∀ (ids : List TaskId) (u : MemoryQueueStore), u.ledger.WellFormed →
      u.jobs.get? id = some m → (ids.foldl (sweepJob now) u).jobs.get? id = some m := by
    intro ids
    induction ids with
    | nil => exact fun _ _ found => found
    | cons each rest ih =>
      intro u good found
      have edits : Edits True now .sweep u (sweepJob now u each) := edits_sweepJob good each
      refine ih _ (edits.wellFormed good) ?_
      by_cases same : id = each
      · subst same
        rw [sweepJob_timely good found timely, found]
      · rw [sweepJob_other good same, found]
  exact through s.jobs.keys (s.forget now) good found

/-- After the sweep only the command itself decides what becomes of such a job. -/
theorem exec_timely (good : s.ledger.WellFormed) {m : MemoryJob}
    (found : s.jobs.get? id = some m) (timely : m.toJobRecord.Timely now) (command : Command) :
    ∃ lower upper, Fate ((s.swept now command).Fresh now command) now (.call command) id lower
      upper (some m.toJobRecord) ((exec now s command).2.ledger.records.get? id) := by
  have kept : (s.swept now command).jobs.get? id = some m := by
    unfold swept
    split
    · exact sweep_timely good found timely
    · exact found
  have clean := (@edits_swept True now s good command).wellFormed good
  have fate := ((@edits_act now _ clean command).progress clean).fate id
  rw [ledger_of_get? kept] at fate
  exact ⟨_, _, fate⟩

/-- The finish of the owner at the current revision is answered with the job. -/
theorem finish_accepted (good : s.ledger.WellFormed) {m : MemoryJob}
    (found : s.jobs.get? id = some m) {ownerToken : String} {revision : Nat}
    (owner : m.toJobRecord.OwnedBy ownerToken revision) {result : JobResult}
    (valid : (PublicSummary.ofSummary? result.resultSummary).isSome = true) (delay : Time) :
    ∃ snapshot, (s.finish now id ownerToken revision result delay).1 = .job snapshot := by
  have free : m.finishToken ≠ some ownerToken := fun settled =>
    absurd ((good.record _ _ (ledger_of_get? found)).released settled) (by simp [owner.owned])
  have held := owned?_eq_some.mpr ⟨found, owner⟩
  obtain ⟨clean, written⟩ := Option.isSome_iff_exists.mp valid
  unfold finish
  rw [found, Option.filter_some, if_neg (by simpa using free), held, written]
  exact ⟨_, rfl⟩

end MemoryQueueStore

namespace Script

variable {db : Db} {now : Time} {id other : TaskId}

theorem payloadStep_other (good : (ledger db).WellFormed) (ne : other ≠ id) :
    (payloadStep now db id).jobs.get? other = db.jobs.get? other := by
  unfold payloadStep
  split
  · rfl
  · next m found =>
      have same := named good found
      subst same
      dsimp only
      split
      · rw [terminal_jobs]
        exact Dict.get?_set_ne _ _ ne
      · exact Dict.get?_set_ne _ _ ne

theorem deadlineStep_other (good : (ledger db).WellFormed) (ne : other ≠ id) :
    (deadlineStep now db id).jobs.get? other = db.jobs.get? other := by
  unfold deadlineStep
  split
  · rfl
  · next m selected =>
      have same := named good (Option.filter_eq_some_iff.mp selected).1
      subst same
      rw [terminal_jobs]
      exact Dict.get?_set_ne _ _ ne

theorem runningStep_other (good : (ledger db).WellFormed) (ne : other ≠ id) :
    (runningStep now db id).jobs.get? other = db.jobs.get? other := by
  unfold runningStep
  split
  · rfl
  · next m selected =>
      have same := named good (Option.filter_eq_some_iff.mp selected).1
      subst same
      split
      · rw [terminal_jobs]
        exact Dict.get?_set_ne _ _ ne
      · split
        · rw [terminal_jobs]
          exact Dict.get?_set_ne _ _ ne
        · split
          · rw [terminal_jobs]
            exact Dict.get?_set_ne _ _ ne
          · split
            · rw [terminal_jobs]
              exact Dict.get?_set_ne _ _ ne
            · exact Dict.get?_set_ne _ _ ne

/-- The delay pass touches delayed jobs only. -/
theorem delayedStep_held (held : ∀ id m, db.jobs.get? id = some m → m.taskId = id) {lane : Lane}
    {m : ScriptJob} (found : db.jobs.get? other = some m) (owned : m.state.owned = true) :
    (delayedStep lane db id).jobs.get? other = some m ∧
      ∀ each r, (delayedStep lane db id).jobs.get? each = some r → r.taskId = each := by
  unfold delayedStep
  dsimp only
  split
  · exact ⟨found, held⟩
  · next r selected =>
      obtain ⟨stored, delayed⟩ := Option.filter_eq_some_iff.mp selected
      have same : r.taskId = id := held id r stored
      have waiting : r.state = .delayed := of_decide_eq_true delayed
      have apart : other ≠ r.taskId := by
        rintro rfl
        rw [same, stored] at found
        cases found
        rw [waiting] at owned
        cases owned
      refine ⟨(Dict.get?_set_ne _ _ apart).trans found, fun each next later => ?_⟩
      change (Dict.set _ r.taskId _).get? each = some next at later
      rw [Dict.get?_set] at later
      split at later
      · next here =>
          cases later
          exact here.symm
      · exact held each next later

/-- A pass whose batch does not hold the job leaves its record. -/
theorem pass_other {step : Db → TaskId → Db}
    (edits : ∀ db id, (ledger db).WellFormed → Edits (fun _ _ => True) now .sweep db (step db id))
    (apart : ∀ db each, (ledger db).WellFormed → other ≠ each →
      (step db each).jobs.get? other = db.jobs.get? other)
    (ids : List TaskId) (absent : other ∉ ids) (good : (ledger db).WellFormed) :
    (ids.foldl step db).jobs.get? other = db.jobs.get? other := by
  induction ids generalizing db with
  | nil => rfl
  | cons each rest ih =>
    obtain ⟨ne, absent⟩ := List.ne_and_not_mem_of_not_mem_cons absent
    exact (ih absent ((edits db each good).wellFormed good)).trans (apart db each good ne)

/-- An id whose score is not due is not in a batch. -/
theorem not_due {set : ZSet} {limit : Nat} {score : Int} (found : set.get? id = some score)
    (later : now < score) : id ∉ set.rangeByScore now limit := by
  intro member
  obtain ⟨other, stored, due⟩ := ZSet.mem_rangeByScore member
  rw [found] at stored
  cases stored
  exact absurd due (not_le.mpr later)

theorem delayedPass_held (good : (ledger db).WellFormed) {m : ScriptJob}
    (found : db.jobs.get? id = some m) (owned : m.state.owned = true) :
    (delayedPass db now).jobs.get? id = some m := by
  have batch : ∀ (lane : Lane) (ids : List TaskId) (db : Db),
      (∀ id m, db.jobs.get? id = some m → m.taskId = id) → db.jobs.get? id = some m →
      (ids.foldl (delayedStep lane) db).jobs.get? id = some m ∧
        ∀ each r, (ids.foldl (delayedStep lane) db).jobs.get? each = some r →
          r.taskId = each := by
    intro lane ids
    induction ids with
    | nil => exact fun db held found => ⟨found, held⟩
    | cons each rest ih =>
      intro db held found
      obtain ⟨kept, named⟩ := @delayedStep_held db each id held lane m found owned
      exact ih _ named kept
  have lanes : ∀ (lanes : List Lane) (db : Db),
      (∀ id m, db.jobs.get? id = some m → m.taskId = id) → db.jobs.get? id = some m →
      (lanes.foldl (delayedLane now) db).jobs.get? id = some m := by
    intro lanes
    induction lanes with
    | nil => exact fun _ _ found => found
    | cons lane rest ih =>
      intro db held found
      obtain ⟨kept, named⟩ := batch lane _ db held found
      exact ih _ named kept
  exact lanes Lane.all db (fun _ _ stored => named good stored) found

theorem metadataPass_jobs (db : Db) : (metadataPass db now).jobs = db.jobs := by
  unfold metadataPass
  induction ZSet.rangeByScore db.expiryMetadata now 256 generalizing db with
  | nil => rfl
  | cons each rest ih => exact (ih _).trans (metadataStep_jobs db each)

/-- The sweep leaves a held job whose time has not come. -/
theorem sweep_timely (good : (ledger db).WellFormed) (indexed : Indexed db) {m : ScriptJob}
    (found : db.jobs.get? id = some m) (timely : m.toJobRecord.Timely now) :
    (sweep db now).jobs.get? id = some m := by
  have active := JobState.active_of_owned timely.owned
  have first : Edits (fun _ _ => True) now .sweep db (expire db now) := Edits.single (.expires rfl)
  have good₁ := first.wellFormed good
  have indexed₁ := first.indexed good indexed
  have found₁ : (expire db now).jobs.get? id = some m := by
    refine (Dict.get?_retain_eq_some _ _ _ _).mpr ⟨found, ?_⟩
    rw [(good.record _ _ (ledger_of_get? found)).unexpired active]
    rfl
  have second : Edits (fun _ _ => True) now .sweep _ (payloadPass (expire db now) now) :=
    edits_payloadPass good₁
  have good₂ := second.wellFormed good₁
  have indexed₂ := second.indexed good₁ indexed₁
  have found₂ : (payloadPass (expire db now) now).jobs.get? id = some m := by
    refine (pass_other (fun _ each good => edits_payloadStep good each)
      (fun _ _ good ne => payloadStep_other good ne) _ ?_ good₁).trans found₁
    exact not_due ((indexed₁ id m found₁).payload active) timely.paid
  have third : Edits (fun _ _ => True) now .sweep _
      (deadlinePass (payloadPass (expire db now) now) now) := edits_deadlinePass good₂
  have good₃ := third.wellFormed good₂
  have indexed₃ := third.indexed good₂ indexed₂
  have found₃ : (deadlinePass (payloadPass (expire db now) now) now).jobs.get? id = some m := by
    refine (pass_other (fun _ each good => edits_deadlineStep good each)
      (fun _ _ good ne => deadlineStep_other good ne) _ ?_ good₂).trans found₂
    exact not_due ((indexed₂ id m found₂).deadline active) timely.early
  have fourth : Edits (fun _ _ => True) now .sweep _
      (runningPass (deadlinePass (payloadPass (expire db now) now) now) now) :=
    edits_runningPass good₃
  have good₄ := fourth.wellFormed good₃
  have found₄ :
      (runningPass (deadlinePass (payloadPass (expire db now) now) now) now).jobs.get? id =
        some m := by
    refine (pass_other (fun _ each good => edits_runningStep good each)
      (fun _ _ good ne => runningStep_other good ne) _ ?_ good₃).trans found₃
    have listed := (indexed₃ id m found₃).running timely.owned
    have leased := timely.leased
    cases beat : m.heartbeatAt with
    | none =>
      have beats := (good.record _ _ (ledger_of_get? found)).beats timely.owned
      change m.heartbeatAt.isSome = true at beats
      rw [beat] at beats
      cases beats
    | some time =>
      rw [beat, Option.map_some] at listed
      refine not_due listed ?_
      unfold JobRecord.leaseLost at leased
      rw [beat] at leased
      exact not_le.mp (of_decide_eq_false leased)
  unfold sweep
  rw [metadataPass_jobs]
  exact delayedPass_held good₄ found₄ timely.owned

/-- After the sweep only the command itself decides what becomes of such a job. -/
theorem exec_timely (good : (ledger db).WellFormed) (indexed : Indexed db) {m : ScriptJob}
    (found : db.jobs.get? id = some m) (timely : m.toJobRecord.Timely now) (command : Command) :
    ∃ lower upper, Fate (Fresh now db command) now (.call command) id lower upper
      (some m.toJobRecord) ((ledger (exec now db command).2).records.get? id) := by
  rcases exec_cases now db command with ⟨reply, same⟩ | ⟨sent, same⟩
  · rw [same, ledger_of_get? found]
    exact ⟨0, 0, .refl _⟩
  · rw [same]
    have swept : Edits (fun _ _ => True) now .sweep db (sweep db now) := edits_sweep good
    have own : Edits (fun keys id => Fresh now db command → keys.jobs.get? id = none) now
        (.call command) (sweep db now) (act now (sweep db now) command).2 :=
      edits_act (swept.wellFormed good) command fun id accepts fresh => fresh sent id accepts
    have fate := (own.progress.mono fun fresh _ _ clear => clear fresh).fate id
    rw [ledger_of_get? (sweep_timely good indexed found timely)] at fate
    exact ⟨_, _, fate⟩

/-- The finish of the owner at the current revision is answered with the job. -/
theorem finish_accepted (good : (ledger db).WellFormed) {m : ScriptJob}
    (found : db.jobs.get? id = some m) {ownerToken : String} {revision : Nat}
    (owner : m.toJobRecord.OwnedBy ownerToken revision) {result : JobResult}
    (valid : (PublicSummary.ofSummary? result.resultSummary).isSome = true) (delay : Time) :
    ∃ snapshot, (finish db now id ownerToken revision result delay).1 = .job snapshot := by
  have free : m.finishToken ≠ some ownerToken := fun settled =>
    absurd ((good.record _ _ (ledger_of_get? found)).released settled) (by simp [owner.owned])
  have held := owned?_eq_some.mpr ⟨found, owner⟩
  obtain ⟨clean, written⟩ := Option.isSome_iff_exists.mp valid
  unfold finish
  rw [written, found]
  dsimp only
  rw [Option.filter_some, if_neg (by simpa using free), held]
  exact ⟨_, rfl⟩

end Script

/-! ## The two calls -/

namespace JobRecord

/-- A cancellation of a held job either finds another revision or is noted once. -/
theorem moves_requestCancel {now : Time} {id : TaskId} {revision : Nat} {actor operationId : String}
    {m next : JobRecord} (owned : m.state.owned = true)
    (moves : Moves now (.call (.requestCancel id revision actor operationId)) m next) :
    next = m ∨ revision = m.revision ∧ next = m.requestCancel := by
  induction moves with
  | refl => exact .inl rfl
  | @tail middle next _ last ih =>
    have waits : middle.state.waiting = true → False := by
      intro waiting
      rcases ih with rfl | ⟨_, rfl⟩
      · exact absurd ((JobState.owned_eq_false_of_waiting waiting).symm.trans owned)
          Bool.false_ne_true
      · cases waiting
    cases last with
    | ending how =>
      cases how with
      | withdrawn waiting => exact (waits waiting).elim
    | requestCancel =>
      rcases ih with rfl | ⟨same, rfl⟩
      · exact .inr ⟨rfl, rfl⟩
      · change m.revision + 1 = m.revision at same
        omega

/-- A success of the owner leaves the job held, or it ends it as a success or cancelled. -/
theorem moves_success {now : Time} {id : TaskId} {ownerToken : String} {revision : Nat}
    {result : JobResult} {delay : Time} {m next : JobRecord} (success : result.outcome = .succeeded)
    (owned : m.state.owned = true)
    (moves : Moves now (.call (.finish id ownerToken revision result delay)) m next) :
    next.state.owned = true ∨ next.state = .succeeded ∨ next.state = .cancelled := by
  refine @Moves.keeps _ _ _ _ (fun m => m.state.owned = true ∨ m.state = .succeeded ∨
    m.state = .cancelled) (fun old new last held => ?_) moves (.inl owned)
  cases last with
  | ending how =>
    cases how with
    | uncertainResult _ outcome => exact absurd (success.symm.trans outcome) (by decide)
    | cancelledResult => exact .inr (.inr rfl)
    | retryExhausted _ _ outcome | retryLate _ _ outcome =>
      exact absurd (success.symm.trans outcome) (by decide)
    | succeeded => exact .inr (.inl rfl)
    | failed _ _ outcome => exact absurd (success.symm.trans outcome) (by decide)
  | result => exact held
  | requeueRetry _ _ outcome => exact absurd (success.symm.trans outcome) (by decide)
  | settled => exact held

/-- The times of a job do not depend on a cancellation. -/
theorem Timely.requestCancel {m : JobRecord} {now : Time} (timely : m.Timely now) :
    m.requestCancel.Timely now where
  owned := rfl
  paid := timely.paid
  early := timely.early
  leased := timely.leased

theorem Timely.earlier {m : JobRecord} {now later : Time} (timely : m.Timely later)
    (before : now ≤ later) : m.Timely now where
  owned := timely.owned
  paid := lt_of_le_of_lt before timely.paid
  early := lt_of_le_of_lt before timely.early
  leased := by
    have leased := timely.leased
    unfold leaseLost at leased ⊢
    cases beat : m.heartbeatAt with
    | none => rfl
    | some time =>
      rw [beat] at leased
      have live := of_decide_eq_false leased
      exact decide_eq_false fun lost => live (le_trans lost before)

end JobRecord

namespace Backend

variable {backend : Backend} {state : backend.State} {id : TaskId} {ownerToken : String}

theorem swept_timely (sound : backend.Sound state) {m : JobRecord}
    (found : backend.record state id = some m) (timely : m.Timely (backend.clock state)) :
    backend.record (backend.swept state) id = some m := by
  cases backend with
  | memory =>
    obtain ⟨job, stored, rfl⟩ := MemoryQueueStore.get?_of_ledger found
    have kept := MemoryQueueStore.sweep_timely sound stored timely
    exact MemoryQueueStore.ledger_of_get? kept
  | redis =>
    obtain ⟨job, stored, rfl⟩ := Script.get?_of_ledger found
    have kept := Script.sweep_timely sound.1 sound.2 stored timely
    have same : Backend.redis.swept state =
        { clock := ScriptMachine.clock state
          db := Script.sweep (ScriptMachine.db state) (ScriptMachine.clock state) } :=
      ScriptMachine.step_sweep state
    rw [same]
    exact Script.ledger_of_get? kept

/-- The calls that race for a held job. -/
inductive Races (id : TaskId) : Command → Prop where
  | cancel (revision : Nat) (actor operationId : String) :
      Races id (.requestCancel id revision actor operationId)
  | finish (ownerToken : String) (revision : Nat) (result : JobResult) (delay : Time) :
      Races id (.finish id ownerToken revision result delay)

/-- In such a call a record only moves. -/
theorem Races.moves {command : Command} (races : Races id command) {fresh : Prop} {now : Time}
    {lower upper : Nat} {m : JobRecord} {after : Option JobRecord}
    (fate : Fate fresh now (.call command) id lower upper (some m) after) :
    ∃ next, after = some next ∧ Moves now (.call command) m next := by
  cases fate with
  | kept moves => exact ⟨_, rfl, moves⟩
  | expired sweeps => cases sweeps
  | erased userId members erases =>
    cases races with
    | cancel | finish => cases erases
  | born admission =>
    cases races with
    | cancel | finish => cases admission

/-- What a command makes of a held job whose time has not come. -/
theorem timely_fate (sound : backend.Sound state) {m : JobRecord}
    (found : backend.record state id = some m) (timely : m.Timely (backend.clock state))
    (command : Command) :
    ∃ lower upper, Fate (backend.Fresh state (.call command)) (backend.clock state)
      (.call command) id lower upper (some m)
      (backend.record (backend.step state (.call command)) id) := by
  cases backend with
  | memory =>
    obtain ⟨job, stored, rfl⟩ := MemoryQueueStore.get?_of_ledger found
    exact MemoryQueueStore.exec_timely sound stored timely command
  | redis =>
    obtain ⟨job, stored, rfl⟩ := Script.get?_of_ledger found
    exact Script.exec_timely sound.1 sound.2 stored timely command

/-- Such a call moves the record of a held job by its own transitions only. -/
theorem timely_moves (sound : backend.Sound state) {m : JobRecord}
    (found : backend.record state id = some m) (timely : m.Timely (backend.clock state))
    {command : Command} (races : Races id command) :
    ∃ next, backend.record (backend.step state (.call command)) id = some next ∧
      Moves (backend.clock state) (.call command) m next := by
  obtain ⟨lower, upper, fate⟩ := timely_fate sound found timely command
  exact races.moves fate

theorem finish_accepted (sound : backend.Sound state) {m : JobRecord}
    (found : backend.record state id = some m) (timely : m.Timely (backend.clock state))
    (token : m.ownerToken = some ownerToken) {result : JobResult}
    (valid : (PublicSummary.ofSummary? result.resultSummary).isSome = true) (delay : Time) :
    ∃ snapshot, backend.reply state (.finish id ownerToken m.revision result delay) =
      .job snapshot := by
  cases backend with
  | memory =>
    obtain ⟨job, stored, rfl⟩ := MemoryQueueStore.get?_of_ledger found
    have swept : MemoryQueueStore.Edits True (MemoryMachine.clock state) .sweep
        (MemoryMachine.store state)
        ((MemoryMachine.store state).sweep (MemoryMachine.clock state)) :=
      MemoryQueueStore.edits_sweep sound
    exact MemoryQueueStore.finish_accepted (swept.wellFormed sound)
      (MemoryQueueStore.sweep_timely sound stored timely) ⟨timely.owned, token, rfl⟩ valid delay
  | redis =>
    obtain ⟨job, stored, rfl⟩ := Script.get?_of_ledger found
    have swept : Script.Edits (fun _ _ => True) (ScriptMachine.clock state) .sweep
        (ScriptMachine.db state)
        (Script.sweep (ScriptMachine.db state) (ScriptMachine.clock state)) :=
      Script.edits_sweep sound.1
    have answer := @Script.finish_accepted _ (ScriptMachine.clock state) id
      (swept.wellFormed sound.1) job (Script.sweep_timely sound.1 sound.2 stored timely)
      ownerToken job.revision ⟨timely.owned, token, rfl⟩ result valid delay
    have sent : (PublicSummary.ofSummary? result.resultSummary).isNone = false := by
      rw [Option.isNone_eq_false_iff]
      exact valid
    rw [reply_redis]
    simp only [Script.exec, Script.answered, Script.act, sent, Bool.false_eq_true, if_false]
    exact answer

/-- Time passes, or the job is asked to be cancelled. -/
inductive Cancels (id : TaskId) : Label → Prop where
  | advance (elapsed : Nat) : Cancels id (.advance elapsed)
  | cancel (revision : Nat) (actor operationId : String) :
      Cancels id (.call (.requestCancel id revision actor operationId))

/-- The label asks for a cancellation at this revision. -/
def Names (id : TaskId) (revision : Nat) (label : Label) : Prop :=
  ∃ actor operationId, label = .call (.requestCancel id revision actor operationId)

/-- A step of the race leaves the job held, and changes it only at its own revision. -/
theorem cancels_step (sound : backend.Sound state) {m : JobRecord}
    (found : backend.record state id = some m) (timely : m.Timely (backend.clock state))
    {label : Label} (cancels : Cancels id label) :
    ∃ next, backend.record (backend.step state label) id = some next ∧
      (next = m ∨ Names id m.revision label ∧ next = m.requestCancel) := by
  cases cancels with
  | advance elapsed =>
    have same : backend.ledger (backend.step state (.advance elapsed)) = backend.ledger state :=
      ledger_step sound (.advance elapsed)
    refine ⟨m, ?_, .inl rfl⟩
    rw [record, same]
    exact found
  | cancel revision actor operationId =>
    obtain ⟨next, later, moves⟩ :=
      timely_moves sound found timely (.cancel revision actor operationId)
    refine ⟨next, later, ?_⟩
    rcases JobRecord.moves_requestCancel timely.owned moves with same | ⟨rfl, noted⟩
    · exact .inl same
    · exact .inr ⟨⟨actor, operationId, rfl⟩, noted⟩

theorem cancels_run (sound : backend.Sound state) {m : JobRecord}
    (found : backend.record state id = some m) {labels : List Label}
    (cancels : ∀ label ∈ labels, Cancels id label)
    (timely : m.Timely (backend.clock (Run.run backend.step state labels))) :
    ∃ next, backend.record (Run.run backend.step state labels) id = some next ∧
      next.ownerToken = m.ownerToken ∧ (∀ later, m.Timely later → next.Timely later) ∧
      ((∀ label ∈ labels, ¬ Names id m.revision label) → next = m) := by
  induction labels generalizing state m with
  | nil => exact ⟨m, found, rfl, fun _ timely => timely, fun _ => rfl⟩
  | cons label rest ih =>
    obtain ⟨first, later⟩ := List.forall_mem_cons.mp cancels
    obtain ⟨next, stored, how⟩ := cancels_step sound found
      (timely.earlier (clock_le_run state (label :: rest))) first
    have held : next.ownerToken = m.ownerToken ∧
        ∀ later, m.Timely later → next.Timely later := by
      rcases how with rfl | ⟨_, rfl⟩
      · exact ⟨rfl, fun _ timely => timely⟩
      · exact ⟨rfl, fun _ timely => timely.requestCancel⟩
    obtain ⟨last, kept, token, live, quiet⟩ :=
      ih (sound.step label) stored later (held.2 _ timely)
    refine ⟨last, kept, token.trans held.1, fun time timely => live time (held.2 time timely),
      fun unnamed => ?_⟩
    obtain ⟨here, rest⟩ := List.forall_mem_cons.mp unnamed
    rcases how with rfl | ⟨named, _⟩
    · exact quiet rest
    · exact absurd named here

/--
`_finish_claim`: the record is read, others take their steps, and the job is
finished at the revision that was read.
-/
def finishClaim (backend : Backend) (state : backend.State) (id : TaskId) (ownerToken : String)
    (between : List Label) (result : JobResult) (delay : Time) : backend.State :=
  let later := Run.run backend.step (backend.step state (.call (.privateRecord id))) between
  match backend.reply state (.privateRecord id) with
  | .record (some current) =>
    if current.ownerToken = some ownerToken then
      backend.step later (.call (.finish id ownerToken current.revision result delay))
    else later
  | _ => later

theorem step_privateRecord (state : backend.State) (id : TaskId) :
    backend.step state (.call (.privateRecord id)) = backend.swept state := by
  cases backend with
  | memory => rfl
  | redis =>
    have swept : ScriptMachine.step state (.call (.privateRecord id)) =
        { clock := ScriptMachine.clock state
          db := Script.sweep (ScriptMachine.db state) (ScriptMachine.clock state) } := by
      simp only [ScriptMachine.step, Script.exec, Script.answered, Script.act]
    exact swept.trans (ScriptMachine.step_sweep state).symm

/-- The record that is read is the one the sweep of the read leaves. -/
theorem reply_privateRecord (state : backend.State) (id : TaskId) :
    backend.reply state (.privateRecord id) =
      .record (backend.record (backend.swept state) id) := by
  cases backend with
  | memory =>
    exact congrArg Reply.record (MemoryQueueStore.ledger_get?
      ((MemoryMachine.store state).sweep (MemoryMachine.clock state)) id).symm
  | redis =>
    have same : Backend.redis.swept state =
        { clock := ScriptMachine.clock state
          db := Script.sweep (ScriptMachine.db state) (ScriptMachine.clock state) } :=
      ScriptMachine.step_sweep state
    rw [same, reply_redis]
    simp only [Script.exec, Script.answered, Script.act]
    generalize Script.sweep _ _ = db
    exact congrArg Reply.record (Script.ledger_get? db id).symm

/-- The job has ended as a success or cancelled, and every later state agrees. -/
def Kept (backend : Backend) (state : backend.State) (id : TaskId) : Prop :=
  ∃ final, backend.record state id = some final ∧
    (final.state = .succeeded ∨ final.state = .cancelled) ∧
    ∀ further next, backend.record (Run.run backend.step state further) id = some next →
      next.sequence = final.sequence → next.state = .succeeded ∨ next.state = .cancelled

theorem clock_call (state : backend.State) (command : Command) :
    backend.clock (backend.step state (.call command)) = backend.clock state := by
  cases backend <;> rfl

theorem clock_advance (state : backend.State) (elapsed : Nat) :
    backend.clock (backend.step state (.advance elapsed)) = backend.clock state + elapsed := by
  cases backend <;> rfl

/-- Where a run ends in time depends on the time it starts at only. -/
theorem clock_run {first second : backend.State}
    (same : backend.clock first = backend.clock second) (labels : List Label) :
    backend.clock (Run.run backend.step first labels) =
      backend.clock (Run.run backend.step second labels) := by
  induction labels generalizing first second with
  | nil => exact same
  | cons label rest ih =>
    refine ih ?_
    cases label with
    | advance elapsed => rw [clock_advance, clock_advance, same]
    | call command => rw [clock_call, clock_call, same]

/-- A success of a held job at its current revision ends it for good. -/
theorem finish_ends (sound : backend.Sound state) {m : JobRecord}
    (found : backend.record state id = some m) (timely : m.Timely (backend.clock state))
    (token : m.ownerToken = some ownerToken) {result : JobResult}
    (success : result.outcome = .succeeded)
    (valid : (PublicSummary.ofSummary? result.resultSummary).isSome = true) (delay : Time) :
    backend.Kept
      (backend.step state (.call (.finish id ownerToken m.revision result delay))) id := by
  obtain ⟨snapshot, replied⟩ := finish_accepted sound found timely token valid delay
  obtain ⟨final, ended, _, released⟩ := finish_settles sound replied
  obtain ⟨next, moved, moves⟩ :=
    timely_moves sound found timely (.finish ownerToken m.revision result delay)
  cases ended.symm.trans moved
  have outcome : final.state = .succeeded ∨ final.state = .cancelled := by
    rcases JobRecord.moves_success success timely.owned moves with held | ended
    · exact absurd (released.symm.trans held) Bool.false_ne_true
    · exact ended
  refine ⟨final, ended, outcome, fun further next later same => ?_⟩
  have after := sound.step (.call (.finish id ownerToken m.revision result delay))
  refine persists_run (fun m => m.state = .succeeded ∨ m.state = .cancelled) ?_ after
    (after.wellFormed.counted _ _ ended) ?_ further later same
  · intro now cause old new move settled
    have inactive : old.state.active = false := by
      rcases settled with state | state <;> rw [state] <;> rfl
    rw [move.absorbs inactive]
    exact settled
  · intro other stored _
    cases ended.symm.trans stored
    exact outcome

/--
A success that the owner reports of a held job is kept, through any
cancellations before its read and between its two calls, as long as none of the
latter names the revision that was read.
-/
theorem finish_keeps_result (backend : Backend) (start : Time) (labels before between : List Label)
    (id : TaskId) (ownerToken : String) {m : JobRecord}
    (found : backend.record (backend.after start labels) id = some m)
    (owner : m.ownerToken = some ownerToken)
    (cancels : ∀ label ∈ before ++ between, Cancels id label)
    (timely : m.Timely
      (backend.clock (backend.after start (labels ++ before ++ between))))
    (unnamed : ∀ current,
      backend.record (backend.swept (backend.after start (labels ++ before))) id = some current →
      ∀ label ∈ between, ¬ Names id current.revision label)
    {result : JobResult} (success : result.outcome = .succeeded)
    (valid : (PublicSummary.ofSummary? result.resultSummary).isSome = true) (delay : Time) :
    backend.Kept
      (backend.finishClaim (backend.after start (labels ++ before)) id ownerToken between result
        delay) id := by
  have sound := sound_after backend start labels
  have split : backend.after start (labels ++ before) =
      Run.run backend.step (backend.after start labels) before := Run.run_append ..
  have whole : backend.after start (labels ++ before ++ between) =
      Run.run backend.step (backend.after start (labels ++ before)) between := Run.run_append ..
  rw [whole] at timely
  have ahead := timely.earlier (clock_le_run _ between)
  rw [split] at ahead
  obtain ⟨current, stored, token, live, _⟩ := cancels_run sound found
    (fun label member => cancels label (List.mem_append_left _ member)) ahead
  rw [← split] at stored ahead
  have reached := sound_after backend start (labels ++ before)
  have seen := swept_timely reached stored (live _ ahead)
  have good : backend.Sound (backend.swept (backend.after start (labels ++ before))) :=
    reached.step (.call .sweep)
  have clocks : backend.clock (Run.run backend.step
      (backend.swept (backend.after start (labels ++ before))) between) =
      backend.clock (Run.run backend.step (backend.after start (labels ++ before)) between) :=
    clock_run (clock_call _ .sweep) between
  have late : current.Timely (backend.clock (Run.run backend.step
      (backend.swept (backend.after start (labels ++ before))) between)) := by
    rw [clocks]
    exact live _ timely
  obtain ⟨last, kept, _, last_timely, quiet⟩ := cancels_run good seen
    (fun label member => cancels label (List.mem_append_right _ member)) late
  cases quiet (unnamed current seen)
  rw [finishClaim, reply_privateRecord, step_privateRecord, seen]
  dsimp only
  rw [if_pos (token.trans owner)]
  exact finish_ends (sound_run good between) kept (last_timely _ late) (token.trans owner) success
    valid delay

/-- A worker that is asked to cancel before it finishes still ends its job. -/
theorem finish_keeps_result_claimedDelivery :
    Backend.redis.Kept (Backend.redis.finishClaim
      (Backend.redis.after 0 (claimedDelivery ++
        [.call (.requestCancel (.submission 7 "a") 2 "admin" "op")]))
      (.submission 7 "a") "w" [.advance 1000] { outcome := .succeeded } 0) (.submission 7 "a") := by
  have held : (Backend.redis.record (Backend.redis.after 0 claimedDelivery)
      (.submission 7 "a")).any (fun m => m.ownerToken == some "w" && m.state.owned &&
        decide (1000 < m.payloadExpiresAt) && decide (1000 < m.deadlineAt) &&
        !m.leaseLost 1000) = true := by
    decide +kernel
  obtain ⟨m, found, facts⟩ := (Option.any_eq_true _ _).mp held
  simp only [Bool.and_eq_true, beq_iff_eq, decide_eq_true_eq, Bool.not_eq_true'] at facts
  obtain ⟨⟨⟨⟨token, owned⟩, paid⟩, early⟩, leased⟩ := facts
  have clock : Backend.redis.clock (Backend.redis.after 0 (claimedDelivery ++
      [.call (.requestCancel (.submission 7 "a") 2 "admin" "op")] ++ [.advance 1000])) = 1000 := by
    decide +kernel
  refine finish_keeps_result .redis 0 claimedDelivery
    [.call (.requestCancel (.submission 7 "a") 2 "admin" "op")] [.advance 1000] _ "w" found token
    ?_ ?_ ?_ rfl rfl 0
  · rintro label (_ | ⟨_, _ | ⟨_, none⟩⟩)
    · exact .cancel 2 "admin" "op"
    · exact .advance 1000
    · cases none
  · rw [clock]
    exact ⟨owned, paid, early, leased⟩
  · rintro current _ label (_ | ⟨_, none⟩) ⟨actor, operationId, same⟩
    · cases same
    · cases none

/--
A cancellation at the revision that was read is enough to lose a success that
the owner of a live lease reports: the finish is refused, and when the lease has
run out the sweep leaves an unknown delivery, in either store.
-/
theorem success_lost :
    let cancel : Label := .call (.requestCancel (.submission 7 "a") 2 "admin" "op")
    let lost (backend : Backend) : backend.State :=
      backend.finishClaim (backend.after 0 claimedDelivery) (.submission 7 "a") "w" [cancel]
        { outcome := .succeeded } 0
    ((Backend.memory.record (lost .memory) (.submission 7 "a")).map
          (fun m => (m.ownerToken, m.leaseLost 0)) = some (some "w", false) ∧
        (Backend.memory.record
          (Run.run Backend.memory.step (lost .memory) [.advance 60000, .call .sweep])
          (.submission 7 "a")).map (fun m => m.state) = some .unknownDelivery) ∧
      (Backend.redis.record (lost .redis) (.submission 7 "a")).map
          (fun m => (m.ownerToken, m.leaseLost 0)) = some (some "w", false) ∧
        (Backend.redis.record
          (Run.run Backend.redis.step (lost .redis) [.advance 60000, .call .sweep])
          (.submission 7 "a")).map (fun m => m.state) = some .unknownDelivery := by
  refine ⟨⟨?_, ?_⟩, ?_, ?_⟩ <;> decide +kernel

end Backend

end BobbyBotique.Queue
