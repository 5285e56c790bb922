import BobbyBotique.Queue.Finish
import BobbyBotique.Queue.Slots

/-!
# The checkpoint of a worker

A handler calls its guard before another side effect.  The guard reads the
record of the job and renews the lease.  A checkpoint that passes finds the job
running, and leaves it to its worker for a whole lease.
-/

namespace BobbyBotique.Queue

/-- How `JobExecutionGuard.checkpoint` ends. -/
inductive Checkpoint where
  | passed (snapshot : Option JobSnapshot)
  | ownershipLost
  | cancelRequested (reason : String)
  | refused (reply : Reply)

def Checkpoint.isPassed : Checkpoint → Bool
  | .passed _ => true
  | _ => false

/-! ## Between the two calls -/

/-- A token that holds a job after a command that draws another one held it before. -/
theorem Moves.heldBefore {now : Time} {cause : Cause} {m next : JobRecord} {ownerToken : String}
    (moves : Moves now cause m next) (undrawn : ∀ lane, cause ≠ .call (.claim lane ownerToken))
    (owned : next.state.owned = true) (token : next.ownerToken = some ownerToken) :
    m.state.owned = true ∧ m.ownerToken = some ownerToken := by
  induction moves with
  | refl => exact ⟨owned, token⟩
  | @tail mid next _ move ih =>
    cases move with
    | ending how =>
      have active := JobState.active_of_owned owned
      exact absurd (how.active_ends.2.symm.trans active) Bool.false_ne_true
    | requeueLost | promote => cases owned
    | requeueRetry =>
      rw [JobState.owned_eq_false_of_waiting (mid.requeueRetry_waiting ..)] at owned
      cases owned
    | start =>
      cases token
      exact absurd rfl (undrawn _)
    | requestCancel held => exact ih held token
    | _ => exact ih owned token

/-! ## After the heartbeat -/

/--
The token still holds the job, which was not started again and is in time at
`last`; where all is `calm`, nobody has asked to cancel it either.
-/
structure JobRecord.Keeps (calm : Prop) (m next : JobRecord) (ownerToken : String) (last : Time) :
    Prop where
  sameJob : SameJob m next
  attempts : next.attemptsStarted = m.attemptsStarted
  still : calm → next.state = m.state ∧ next.revision = m.revision
  token : next.ownerToken = some ownerToken
  timely : next.Timely last

/-- The calls that take a job from the worker that holds it in time. -/
inductive Releases (id : TaskId) (ownerToken : String) : Command → Prop where
  | finish (revision : Nat) (result : JobResult) (delay : Time) :
      Releases id ownerToken (.finish id ownerToken revision result delay)
  | eraseUser (userId : Int) (members : List TaskId) :
      Releases id ownerToken (.eraseUser userId members)

theorem JobRecord.Keeps.moves {calm : Prop} {now last : Time} {command : Command}
    {m mid next : JobRecord} {ownerToken : String} (kept : Keeps calm m mid ownerToken last)
    (held : ¬ Releases m.taskId ownerToken command ∧
      (calm → ¬ Backend.Cancels m.taskId (.call command))) (renewed : last < now + ownerLease)
    (moves : Moves now (.call command) mid next) : Keeps calm m next ownerToken last := by
  refine @Moves.keeps _ _ _ _ (Keeps calm m · ownerToken last) (fun old new move kept => ?_) moves
    kept
  have owned := kept.timely.owned
  have waits : old.state.waiting = true → False := fun waiting =>
    absurd ((JobState.owned_eq_false_of_waiting waiting).symm.trans owned) Bool.false_ne_true
  have queued : old.state ≠ .queued := fun queued => waits (by rw [queued]; rfl)
  have finishes {revision : Nat} {other : String} {result : JobResult} {delay : Time}
      (owner : old.OwnedBy other revision)
      (called : command = .finish old.taskId other revision result delay) : False := by
    cases kept.token.symm.trans owner.token
    rw [kept.sameJob.taskId] at called
    exact held.1 (called ▸ .finish revision result delay)
  have same := kept.sameJob.trans move.sameJob
  cases move with
  | ending how =>
    cases how with
    | exhausted waiting | payloadGone waiting => exact absurd waiting queued
    | withdrawn waiting => exact (waits waiting).elim
    | uncertainResult owner | cancelledResult owner | retryExhausted owner | retryLate owner
    | succeeded owner | failed owner => exact (finishes owner rfl).elim
  | start _ waiting => exact absurd waiting queued
  | requeueRetry owner => exact (finishes owner rfl).elim
  | settled released => exact absurd (released.symm.trans owned) Bool.false_ne_true
  | spend done =>
    exact absurd (done.symm.trans (JobState.active_of_owned owned)) Bool.false_ne_true
  | beat =>
    exact ⟨same, kept.attempts, kept.still, kept.token, owned, kept.timely.paid, kept.timely.early,
      decide_eq_false (not_le.mpr renewed)⟩
  | progress | result =>
    exact ⟨same, kept.attempts, kept.still, kept.token, owned, kept.timely.paid, kept.timely.early,
      kept.timely.leased⟩
  | requestCancel =>
    refine ⟨same, kept.attempts, fun quiet => ?_, kept.token, kept.timely.requestCancel⟩
    rw [← kept.sameJob.taskId] at held
    exact absurd (.cancel _ _ _) (held.2 quiet)

namespace Backend

open JobRecord (Keeps)

variable {backend : Backend} {state : backend.State} {id : TaskId} {ownerToken : String}

/-- The token that holds a job after a run held it before, unless the run draws it. -/
theorem held_run (sound : backend.Sound state) {labels : List Label}
    (undrawn : ∀ lane, Label.call (.claim lane ownerToken) ∉ labels) {next : JobRecord}
    (later : backend.record (Run.run backend.step state labels) id = some next)
    (owned : next.state.owned = true) (token : next.ownerToken = some ownerToken) :
    ∃ m, backend.record state id = some m ∧ m.state.owned = true ∧
      m.ownerToken = some ownerToken ∧ m.revision ≤ next.revision ∧
      (next.revision = m.revision → next.state = m.state) := by
  induction labels generalizing state with
  | nil => exact ⟨next, later, owned, token, le_rfl, fun _ => rfl⟩
  | cons label rest ih =>
    obtain ⟨mid, found, owned, token, above, same⟩ :=
      ih (sound.step label) (fun lane drawn => undrawn lane (.tail _ drawn)) later
    have step := ledger_step sound label
    cases label with
    | advance elapsed =>
      rw [record, step] at found
      exact ⟨mid, found, owned, token, above, same⟩
    | call command =>
      obtain ⟨swept, sweep, own⟩ := step
      have fate := own.fate id
      rw [show (backend.ledger _).records.get? id = some mid from found] at fate
      generalize between : swept.records.get? id = before at fate
      cases fate with
      | @kept m _ moves =>
        obtain ⟨held, drawn⟩ := moves.heldBefore
          (fun lane called => by cases called; exact undrawn lane (.head _)) owned token
        obtain ⟨below, changed⟩ := moves.revision
        refine ⟨m, sweep.swept_held between held, held, drawn, below.trans above, fun still => ?_⟩
        rw [same (by omega)]
        by_contra different
        have := changed different
        omega
      | born admission _ _ _ _ moves =>
        have waits := moves.untaken admission.not_claim owned
        rw [JobState.owned_eq_false_of_waiting admission.waiting] at waits
        cases waits

theorem keeps_run (sound : backend.Sound state) {calm : Prop} {m mid : JobRecord} {last : Time}
    (found : backend.record state id = some mid) (keeps : Keeps calm m mid ownerToken last)
    {labels : List Label} (fresh : Run.Along backend.step backend.Fresh state labels)
    (held : ∀ command, Label.call command ∈ labels →
      ¬ Releases m.taskId ownerToken command ∧ (calm → ¬ Cancels m.taskId (.call command)))
    (renewed : last < backend.clock state + ownerLease)
    (early : backend.clock (Run.run backend.step state labels) ≤ last) :
    ∃ next, backend.record (Run.run backend.step state labels) id = some next ∧
      Keeps calm m next ownerToken last := by
  induction labels generalizing state mid with
  | nil => exact ⟨mid, found, keeps⟩
  | cons label rest ih =>
    have now := (clock_le_run state (label :: rest)).trans early
    have after : ∃ next, backend.record (backend.step state label) id = some next ∧
        Keeps calm m next ownerToken last := by
      cases label with
      | advance elapsed =>
        have same : backend.ledger (backend.step state (.advance elapsed)) =
          backend.ledger state := ledger_step sound (.advance elapsed)
        exact ⟨mid, (congrArg (·.records.get? id) same).trans found, keeps⟩
      | call command =>
        obtain ⟨_, _, fate⟩ := timely_fate sound found (keeps.timely.earlier now) command
        generalize backend.record _ id = after at fate ⊢
        cases fate with
        | kept moves =>
          exact ⟨_, rfl, keeps.moves (held _ (.head _)) renewed moves⟩
        | expired sweeps => cases sweeps
        | erased userId members erases =>
          cases erases
          exact absurd (.eraseUser userId members) (held _ (.head _)).1
        | born _ clear => cases clear fresh.1
    obtain ⟨next, later, kept⟩ := after
    have grown := clock_le_step state label
    exact ih (sound.step label) later kept fresh.2
      (fun command called => held command (.tail _ called))
      (renewed.trans_le (Int.add_le_add_right grown _)) early

/-- A heartbeat that is answered with the job renews the lease of its holder. -/
theorem heartbeat_holds (sound : backend.Sound state) {revision : Nat}
    {snapshot : Option JobSnapshot}
    (replied : backend.reply state (.heartbeat id ownerToken revision) = .job snapshot) :
    ∃ m, backend.record state id = some m ∧ m.OwnedBy ownerToken revision ∧
      snapshot = some (m.beat (backend.clock state)).snapshot ∧
      backend.record (backend.step state (.call (.heartbeat id ownerToken revision))) id =
        some (m.beat (backend.clock state)) := by
  cases backend with
  | memory =>
    have swept := @MemoryQueueStore.edits_sweep True (MemoryMachine.clock state) _ sound
    have clean := swept.wellFormed sound
    change (MemoryQueueStore.heartbeat _ _ id ownerToken revision).1 = _ at replied
    change ∃ m, _ ∧ _ ∧ _ ∧ Dict.get? (MemoryQueueStore.ledger
      (MemoryQueueStore.heartbeat _ (MemoryMachine.clock state) _ _ _).2).records _ = _
    unfold MemoryQueueStore.heartbeat at replied ⊢
    split at replied
    · cases replied
    · next m owner =>
        cases replied
        obtain ⟨found, owned⟩ := MemoryQueueStore.owned?_eq_some.mp owner
        cases MemoryQueueStore.named clean found
        have stored := MemoryQueueStore.ledger_of_get? found
        exact ⟨_, (swept.progress sound).swept_held stored owned.owned, owned, rfl,
          @MemoryQueueStore.ledger_of_get? _ _ { m with toJobRecord := m.beat _ }
            (Dict.get?_set_self _ _ _)⟩
  | redis =>
    have swept : Script.Edits (fun _ _ => True) (ScriptMachine.clock state) .sweep _ _ :=
      Script.edits_sweep sound.1
    have clean := swept.wellFormed sound.1
    rw [reply_redis] at replied
    rw [record_call_redis]
    simp only [Script.exec, Script.answered, Script.act] at replied ⊢
    unfold Script.heartbeat at replied ⊢
    split at replied
    · cases replied
    · next m owner =>
        cases replied
        obtain ⟨found, owned⟩ := Script.owned?_eq_some.mp owner
        cases Script.named clean found
        have stored := Script.ledger_of_get? found
        exact ⟨_, swept.progress.swept_held stored owned.owned, owned, rfl,
          @Script.ledger_of_get? _ _ { m with toJobRecord := m.beat _ }
            (Dict.get?_set_self _ _ _)⟩

theorem heartbeat_accepted (sound : backend.Sound state) {m : JobRecord}
    (found : backend.record state id = some m) (timely : m.Timely (backend.clock state))
    (token : m.ownerToken = some ownerToken) :
    ∃ snapshot, backend.reply state (.heartbeat id ownerToken m.revision) = .job snapshot := by
  cases backend with
  | memory =>
    obtain ⟨job, stored, rfl⟩ := MemoryQueueStore.get?_of_ledger found
    have kept := @MemoryQueueStore.sweep_timely _ (MemoryMachine.clock state) _ sound _ stored timely
    change ∃ snapshot, (MemoryQueueStore.heartbeat ((MemoryMachine.store state).sweep _) _ _ _ _).1 =
      _
    unfold MemoryQueueStore.heartbeat
    rw [MemoryQueueStore.owned?_eq_some.mpr ⟨kept, timely.owned, token, rfl⟩]
    exact ⟨_, rfl⟩
  | redis =>
    obtain ⟨job, stored, rfl⟩ := Script.get?_of_ledger found
    have kept := @Script.sweep_timely _ (ScriptMachine.clock state) _ sound.1 sound.2 _ stored timely
    rw [reply_redis]
    simp only [Script.exec, Script.answered, Script.act]
    unfold Script.heartbeat
    rw [Script.owned?_eq_some.mpr ⟨kept, timely.owned, token, rfl⟩]
    exact ⟨_, rfl⟩

/--
`JobExecutionGuard.checkpoint`: the record is read, the snapshot of the user's
private data is `current` or not, others take their steps, and the lease is
renewed at the revision that was read.
-/
def checkpoint (backend : Backend) (state : backend.State) (claim : JobClaim) (current : Bool)
    (between : List Label) : Checkpoint × backend.State :=
  let read := backend.step state (.call (.privateRecord claim.snapshot.taskId))
  match backend.reply state (.privateRecord claim.snapshot.taskId) with
  | .record (some m) =>
    if m.ownerToken ≠ some claim.ownerToken ∨ m.state.owned = false then (.ownershipLost, read)
    else if m.state = .cancelRequested then (.cancelRequested "cancel_requested", read)
    else if 0 < claim.userId ∧ current = false then (.cancelRequested "privacy_revoked", read)
    else
      let later := Run.run backend.step read between
      let beat := .heartbeat m.taskId claim.ownerToken m.revision
      let next := backend.step later (.call beat)
      match backend.reply later beat with
      | .job snapshot => (.passed snapshot, next)
      | reply => (.refused reply, next)
  | _ => (.ownershipLost, read)

theorem checkpoint_passes (sound : backend.Sound state) {claim : JobClaim} {current : Bool}
    {between : List Label} {snapshot : Option JobSnapshot} {held : backend.State}
    (passed : backend.checkpoint state claim current between = (.passed snapshot, held)) :
    (0 < claim.userId → current = true) ∧
    ∃ m, backend.record (backend.swept state) claim.snapshot.taskId = some m ∧
      m.state ≠ .cancelRequested ∧
      let later := Run.run backend.step (backend.swept state) between
      let beat := .heartbeat claim.snapshot.taskId claim.ownerToken m.revision
      backend.reply later beat = .job snapshot ∧ held = backend.step later (.call beat) := by
  unfold checkpoint at passed
  rw [step_privateRecord, reply_privateRecord] at passed
  dsimp only at passed
  split at passed
  · next m read =>
      have found := Reply.record.inj read
      have named := (sound.step (.call .sweep)).wellFormed.named _ _ found
      rw [named] at passed
      split at passed
      · cases passed
      · split at passed
        · cases passed
        · next uncancelled =>
          split at passed
          · cases passed
          · next permitted =>
            refine ⟨fun user => Bool.eq_true_of_not_eq_false fun stale => permitted ⟨user, stale⟩,
              m, found, uncancelled, ?_⟩
            split at passed
            · next replied =>
              cases passed
              exact ⟨replied, rfl⟩
            · cases passed
  · cases passed

/-- A checkpoint that passes renews the lease of a running job of the token. -/
theorem checkpoint_held (sound : backend.Sound state) {claim : JobClaim} {current : Bool}
    {between : List Label} {snapshot : Option JobSnapshot} {held : backend.State}
    (passed : backend.checkpoint state claim current between = (.passed snapshot, held))
    (undrawn : ∀ lane, Label.call (.claim lane claim.ownerToken) ∉ between) :
    backend.Sound held ∧ (0 < claim.userId → current = true) ∧
    ∃ m, backend.record held claim.snapshot.taskId = some m ∧ m.taskId = claim.snapshot.taskId ∧
      snapshot = some m.snapshot ∧ m.state = .running ∧ m.ownerToken = some claim.ownerToken ∧
      ∀ calm last, last < backend.clock held + ownerLease → last < m.payloadExpiresAt →
        last < m.deadlineAt → Keeps calm m m claim.ownerToken last := by
  have swept := sound.step (.call .sweep)
  obtain ⟨permitted, m, found, uncancelled, replied, rfl⟩ := checkpoint_passes sound passed
  have later := sound_run swept between
  obtain ⟨beaten, stored, owner, shown, renewed⟩ := heartbeat_holds later replied
  obtain ⟨_, before, owned, _, _, same⟩ := held_run swept undrawn stored owner.owned owner.token
  cases found.symm.trans before
  have running := (same owner.current).trans (JobState.running_of_owned owned uncancelled)
  refine ⟨later.step _, permitted, _, renewed, (later.step _).wellFormed.named _ _ renewed, shown,
    running, owner.token, ?_⟩
  intro calm last leased paid early
  exact ⟨.refl _, rfl, fun _ => ⟨rfl, rfl⟩, owner.token, owner.owned, paid, early,
    decide_eq_false (not_le.mpr (clock_call _ _ ▸ leased))⟩

/--
A checkpoint that passes finds the job running, uncancelled and permitted.  From
there until its lease or the time of the job runs out no order of steps but the
worker's finish and an erasure takes the job from the worker, and where nobody
asks to cancel it the next checkpoint passes too.
-/
theorem checkpoint_exclusive (backend : Backend) (start : Time) (labels between : List Label)
    (claim : JobClaim) (current : Bool) {snapshot : Option JobSnapshot}
    {held : backend.State}
    (passed : backend.checkpoint (backend.after start labels) claim current between =
      (.passed snapshot, held))
    (undrawn : ∀ lane, Label.call (.claim lane claim.ownerToken) ∉ between) :
    (0 < claim.userId → current = true) ∧
    ∃ m, backend.record held claim.snapshot.taskId = some m ∧ snapshot = some m.snapshot ∧
      m.state = .running ∧ m.ownerToken = some claim.ownerToken ∧
      ∀ further, Run.Along backend.step backend.Fresh held further →
        (∀ command, .call command ∈ further →
          ¬ Releases claim.snapshot.taskId claim.ownerToken command) →
        let last := backend.clock (Run.run backend.step held further)
        last < backend.clock held + ownerLease → last < m.payloadExpiresAt →
        last < m.deadlineAt →
        (∃ next, backend.record (Run.run backend.step held further) claim.snapshot.taskId =
            some next ∧ next.sequence = m.sequence ∧
          next.attemptsStarted = m.attemptsStarted ∧
          next.ownerToken = some claim.ownerToken ∧ next.state.owned = true) ∧
        ∀ sleep later current,
          further = sleep ++ .call (.privateRecord claim.snapshot.taskId) :: later →
          (∀ command, .call command ∈ further →
            ¬ Cancels claim.snapshot.taskId (.call command)) →
          (0 < claim.userId → current = true) →
          ∃ snapshot next,
            backend.checkpoint (Run.run backend.step held sleep) claim current later =
              (.passed snapshot, next) := by
  obtain ⟨sound, permitted, m, found, named, shown, running, token, keeps⟩ :=
    checkpoint_held (sound_after backend start labels) passed undrawn
  refine ⟨permitted, m, found, shown, running, token, ?_⟩
  intro further fresh kept last leased paid early
  rw [← named] at kept
  constructor
  · obtain ⟨next, later, keeps⟩ := keeps_run sound found (keeps False last leased paid early)
      fresh (fun command called => ⟨kept command called, False.elim⟩) leased le_rfl
    exact ⟨next, later, keeps.sameJob.sequence, keeps.attempts, keeps.token, keeps.timely.owned⟩
  · rintro sleep later current rfl quiet permitted
    have calm command (called : Label.call command ∈ _) :=
      And.intro (kept command called) fun _ : True => named ▸ quiet command called
    obtain ⟨asleep, awake⟩ := Run.Along.append.mp fresh
    have whole := Run.run_append backend.step held sleep
      (.call (.privateRecord claim.snapshot.taskId) :: later)
    rw [Run.run_cons, step_privateRecord] at whole
    have slept := sound_run sound sleep
    have good : backend.Sound (backend.swept (Run.run backend.step held sleep)) :=
      slept.step (.call .sweep)
    have still := clock_call (Run.run backend.step held sleep) .sweep
    have ahead := still.symm.le.trans (whole ▸ clock_le_run (backend.swept _) later)
    obtain ⟨mid, stored, keeps⟩ := keeps_run sound found (keeps True last leased paid early) asleep
      (fun command called => calm command (List.mem_append_left _ called)) leased ahead
    have seen := swept_timely slept stored (keeps.timely.earlier ahead)
    rw [Run.Along, step_privateRecord] at awake
    obtain ⟨next, read, keeps'⟩ := keeps_run good seen keeps awake.2
      (fun command called => calm command (List.mem_append_right _ (.tail _ called)))
      (leased.trans_le (Int.add_le_add_right ((clock_le_run held sleep).trans still.symm.le) _))
      (whole ▸ le_rfl)
    obtain ⟨snapshot, replied⟩ := heartbeat_accepted (sound_run good later) read
      (keeps'.timely.earlier (whole ▸ le_rfl)) keeps'.token
    rw [(keeps'.still trivial).2, ← (keeps.still trivial).2] at replied
    have running := (keeps.still trivial).1.trans running
    unfold checkpoint
    rw [step_privateRecord, reply_privateRecord, seen]
    dsimp only
    rw [keeps.sameJob.taskId, named, if_neg (by simp [keeps.token, running, JobState.owned]),
      if_neg (by rw [running]; decide), if_neg (by simpa using permitted)]
    rw [replied]
    exact ⟨snapshot, _, rfl⟩

/-- The worker of a claimed job passes its first checkpoint. -/
theorem checkpoint_exclusive_claimedDelivery :
    ∃ claim snapshot held, Backend.redis.checkpoint (Backend.redis.after 0 claimedDelivery) claim
        true [] = (.passed snapshot, held) ∧
      ∃ m, Backend.redis.record held claim.snapshot.taskId = some m ∧ m.state = .running := by
  have passes : (Backend.redis.record (Backend.redis.after 0 claimedDelivery)
      (.submission 7 "a")).any (fun m => (Backend.redis.checkpoint
        (Backend.redis.after 0 claimedDelivery) (m.claim "w") true []).1.isPassed) = true := by
    decide +kernel
  obtain ⟨r, _, passed⟩ := (Option.any_eq_true _ _).mp passes
  cases ended : Backend.redis.checkpoint _ (r.claim "w") true [] with
  | mk outcome held =>
    rw [ended] at passed
    cases outcome with
    | passed snapshot =>
      obtain ⟨_, m, found, _, running, _⟩ := checkpoint_exclusive .redis 0 claimedDelivery []
        (r.claim "w") true ended fun _ => List.not_mem_nil
      exact ⟨_, _, _, ended, m, found, running⟩
    | _ => cases passed

end Backend

end BobbyBotique.Queue
