import BobbyBotique.Foundation.Run
import BobbyBotique.Queue.Lifecycle

/-!
# The ledger of jobs

What either store remembers about its jobs: a record for each task id and the
number of admissions so far.  A phase of a command, the sweep or the command's
own part, moves every record by transitions of its cause, forgets it, or puts
a newly admitted record in its place.  A job is a task id together with the
admission that created the record, since a later admission may take the id of
a job that is over.
-/

namespace BobbyBotique.Queue

namespace Moves

variable {now : Time} {cause : Cause} {m next : JobRecord}

theorem refl (m : JobRecord) : Moves now cause m m := Relation.ReflTransGen.refl

theorem single (move : Move now cause m next) : Moves now cause m next :=
  Relation.ReflTransGen.single move

theorem trans {mid : JobRecord} (first : Moves now cause m mid)
    (second : Moves now cause mid next) : Moves now cause m next :=
  Relation.ReflTransGen.trans first second

/-- A property that every transition keeps is kept by a sequence of them. -/
theorem keeps {good : JobRecord → Prop}
    (step : ∀ old new, Move now cause old new → good old → good new)
    (moves : Moves now cause m next) (initial : good m) : good next := by
  induction moves with
  | refl => exact initial
  | tail _ last ih => exact step _ _ last ih

theorem sameJob (moves : Moves now cause m next) : SameJob m next := by
  induction moves with
  | refl => exact SameJob.refl m
  | tail _ last ih => exact ih.trans last.sameJob

theorem wellFormed (moves : Moves now cause m next) (good : m.WellFormed) :
    next.WellFormed :=
  moves.keeps (fun _ _ move good => move.wellFormed good) good

theorem revision (moves : Moves now cause m next) :
    m.revision ≤ next.revision ∧ (next.state ≠ m.state → m.revision < next.revision) := by
  induction moves with
  | refl => exact ⟨le_rfl, fun changed => absurd rfl changed⟩
  | @tail mid next _ last ih =>
    refine ⟨ih.1.trans last.revision.1, fun changed => ?_⟩
    by_cases same : next.state = mid.state
    · exact (ih.2 (same ▸ changed)).trans_le last.revision.1
    · exact ih.1.trans_lt (last.revision.2 same)

theorem absorbs (moves : Moves now cause m next) (done : m.state.active = false) :
    next.state = m.state := by
  induction moves with
  | refl => rfl
  | tail _ last ih => exact (last.absorbs (ih ▸ done)).trans ih

theorem attempts_le (moves : Moves now cause m next) :
    m.attemptsStarted ≤ next.attemptsStarted := by
  induction moves with
  | refl => exact le_rfl
  | tail _ last ih => rcases last.attempts with same | ⟨more, _⟩ <;> omega

/-- Only a claim starts a job. -/
theorem unstarted (quiet : ∀ lane ownerToken, cause ≠ .call (.claim lane ownerToken))
    (moves : Moves now cause m next) : next.attemptsStarted = m.attemptsStarted := by
  induction moves with
  | refl => rfl
  | tail _ last ih =>
    rcases last.attempts with same | ⟨_, _, _, lane, ownerToken, claims⟩
    · exact same.trans ih
    · exact absurd claims (quiet lane ownerToken)

/-- Neither a claim nor a cancel: such a cause leaves a job held only if it was held. -/
theorem held (quiet : ∀ lane ownerToken, cause ≠ .call (.claim lane ownerToken))
    (uncancelled : ∀ taskId revision actor operationId,
      cause ≠ .call (.requestCancel taskId revision actor operationId))
    (moves : Moves now cause m next) (owned : next.state.owned = true) :
    next.state = m.state ∧ next.ownerToken = m.ownerToken ∧ next.revision = m.revision := by
  induction moves with
  | refl => exact ⟨rfl, rfl, rfl⟩
  | tail _ last ih =>
    rcases last.held owned with
      ⟨state, token, revision⟩ | ⟨lane, ownerToken, claims⟩ |
      ⟨revision, actor, operationId, cancels⟩
    · obtain ⟨state', token', revision'⟩ := ih (state ▸ owned)
      exact ⟨state.trans state', token.trans token', revision.trans revision'⟩
    · exact absurd claims (quiet lane ownerToken)
    · exact absurd cancels (uncancelled _ revision actor operationId)

/-- A finish that finds an owned record finds the record the command started from. -/
theorem held_of_finish {taskId : TaskId} {ownerToken : String} {revision : Nat}
    {result : JobResult} {delay : Time}
    (finishes : cause = .call (.finish taskId ownerToken revision result delay))
    (moves : Moves now cause m next) (owned : next.state.owned = true) :
    next.state = m.state ∧ next.ownerToken = m.ownerToken ∧ next.revision = m.revision :=
  moves.held (fun _ _ claims => by rw [finishes] at claims; cases claims)
    (fun _ _ _ _ cancels => by rw [finishes] at cancels; cases cancels) owned

theorem ownersFinish (moves : Moves now cause m next) (owned : next.state.owned = true)
    (finish : OwnersFinish cause next) : OwnersFinish cause m := by
  obtain ⟨ownerToken, result, delay, called, token⟩ := finish
  obtain ⟨_, sameToken, sameRevision⟩ := moves.held_of_finish called owned
  rw [moves.sameJob.taskId, sameRevision] at called
  exact ⟨ownerToken, result, delay, called, sameToken ▸ token⟩

theorem ownersRetry (moves : Moves now cause m next) (retry : OwnersRetry cause next) :
    OwnersRetry cause m := by
  obtain ⟨ownerToken, result, delay, called, outcome, running, token⟩ := retry
  obtain ⟨sameState, sameToken, sameRevision⟩ :=
    moves.held_of_finish called (by rw [running]; rfl)
  rw [moves.sameJob.taskId, sameRevision] at called
  exact ⟨ownerToken, result, delay, called, outcome, sameState ▸ running, sameToken ▸ token⟩

/-- An effectful job goes back to its lane only after its owner's retryable failure. -/
theorem returns (moves : Moves now cause m next) (effectful : m.effectful = true)
    (away : m.state.waiting = false) (back : next.state.waiting = true) :
    OwnersRetry cause m := by
  induction moves with
  | refl => rw [away] at back; cases back
  | @tail mid next rest last ih =>
    cases waits : mid.state.waiting with
    | true => exact ih waits
    | false =>
      have sameEffect := (sameJob rest).effectful
      exact ownersRetry rest (last.returns (sameEffect.trans effectful) waits back)

/-- An effectful job becomes eligible for a retry only after its owner's retryable failure. -/
theorem becomesEligible (moves : Moves now cause m next) (good : m.WellFormed)
    (effectful : m.effectful = true) (before : m.retryEligible = false)
    (after : next.retryEligible = true) : OwnersRetry cause m := by
  induction moves with
  | refl => rw [before] at after; cases after
  | @tail mid next rest last ih =>
    cases eligible : mid.retryEligible with
    | true => exact ih eligible
    | false =>
      have sameEffect := (sameJob rest).effectful
      exact ownersRetry rest
        (last.becomesEligible (wellFormed rest good) (sameEffect.trans effectful) eligible
          after)

/-- Without its owner an effectful job that is held ends as an unknown delivery only. -/
theorem givenUp (moves : Moves now cause m next) (effectful : m.effectful = true)
    (owned : m.state.owned = true) :
    next.state = m.state ∨ next.state = .unknownDelivery ∨ next.state = .cancelRequested ∨
      OwnersFinish cause m := by
  induction moves with
  | refl => exact .inl rfl
  | @tail mid next rest last ih =>
    have effect : mid.effectful = true := (sameJob rest).effectful.trans effectful
    have fromOwned (held : mid.state.owned = true) :
        next.state = mid.state ∨ next.state = .unknownDelivery ∨
          next.state = .cancelRequested ∨ OwnersFinish cause m := by
      rcases last.givenUp effect held with same | lost | requested | finish
      · exact .inl same
      · exact .inr (.inl lost)
      · exact .inr (.inr (.inl requested))
      · exact .inr (.inr (.inr (ownersFinish rest held finish)))
    rcases ih with same | lost | requested | finish
    · rw [← same]
      exact fromOwned (same ▸ owned)
    · exact .inr (.inl ((last.absorbs (by rw [lost]; rfl)).trans lost))
    · rcases fromOwned (by rw [requested]; rfl) with same | ends
      · exact .inr (.inr (.inl (same.trans requested)))
      · exact .inr ends
    · exact .inr (.inr (.inr finish))

/-- A sweep leaves an effectful job to its owner or ends it as an unknown delivery. -/
theorem sweepOwned (moves : Moves now .sweep m next) (effectful : m.effectful = true)
    (owned : m.state.owned = true) : next = m ∨ next.state = .unknownDelivery := by
  induction moves with
  | refl => exact .inl rfl
  | @tail mid next _ last ih =>
    rcases ih with same | lost
    · exact .inr ((same ▸ last).sweepOwned effectful owned)
    · exact .inr ((last.absorbs (by rw [lost]; rfl)).trans lost)

end Moves

/-- A held effectful job that the sweep has to end. -/
def JobRecord.lapsed (m : JobRecord) (now : Time) : Prop :=
  m.payloadExpiresAt ≤ now ∨ m.deadlineAt ≤ now ∨ m.leaseLost now = true

/-! ## The fate of a record -/

/-- The first record of a job, by the command that admits it. -/
inductive Admission (now : Time) : Cause → JobRecord → Prop where
  | admitJob (job : JobEnvelope) (policy bound : QueuePolicy) (lane : Lane) (sequence : Nat)
      (identity : Identity) (fingerprint : Fingerprint) :
      Admission now (.call (.admitJob job policy))
        (JobRecord.admitted job lane bound now sequence identity fingerprint)
  | retry (taskId : TaskId) (revision : Nat) (actor operationId : String)
      (epoch : Option Int) (child : JobEnvelope) (bound : QueuePolicy) (lane : Lane)
      (sequence : Nat) (identity : Identity) (fingerprint : Fingerprint)
      (ungranted : child.retryGrants = 0) (parent : child.parentTaskId = some taskId) :
      Admission now (.call (.retryJob taskId revision actor operationId epoch))
        (JobRecord.admitted child lane bound now sequence identity fingerprint)

theorem JobRecord.admitted_waiting (job : JobEnvelope) (lane : Lane) (policy : QueuePolicy)
    (now : Time) (sequence : Nat) (identity : Identity) (fingerprint : Fingerprint) :
    (JobRecord.admitted job lane policy now sequence identity fingerprint).state.waiting =
      true := by
  change (if job.delaySeconds > 0 then JobState.delayed else .queued).waiting = true
  split <;> rfl

theorem JobRecord.admitted_wellFormed (job : JobEnvelope) (lane : Lane) (policy : QueuePolicy)
    (now : Time) (sequence : Nat) (identity : Identity) (fingerprint : Fingerprint) :
    (JobRecord.admitted job lane policy now sequence identity fingerprint).WellFormed := by
  have waits := admitted_waiting job lane policy now sequence identity fingerprint
  have released := JobState.owned_eq_false_of_waiting waits
  exact
    { token := released.symm
      attempts := Nat.zero_le _
      left := fun _ => policy.positive.2.2.2.2
      expiry := by rw [JobState.active_eq, waits, Bool.or_true]; rfl
      retry := fun kept => by cases kept
      available := rfl
      beats := fun owned => by rw [released] at owned; cases owned
      unsettled := fun _ => rfl }

namespace Admission

variable {now : Time} {cause : Cause} {first : JobRecord}

theorem waiting (admission : Admission now cause first) : first.state.waiting = true := by
  cases admission <;> exact JobRecord.admitted_waiting _ _ _ _ _ _ _

theorem wellFormed (admission : Admission now cause first) : first.WellFormed := by
  cases admission <;> exact JobRecord.admitted_wellFormed _ _ _ _ _ _ _

/-- A sweep admits nothing. -/
theorem not_sweep (admission : Admission now cause first) : cause ≠ .sweep := by
  cases admission <;> exact fun impossible => by cases impossible

theorem not_erase (admission : Admission now cause first) (userId : Int)
    (members : List TaskId) : cause ≠ .call (.eraseUser userId members) := by
  cases admission <;> exact fun impossible => by cases impossible

theorem not_claim (admission : Admission now cause first) (lane : Lane)
    (ownerToken : String) : cause ≠ .call (.claim lane ownerToken) := by
  cases admission <;> exact fun impossible => by cases impossible

end Admission

/-- The metadata of a record has outlived its retention. -/
def JobRecord.outlived (m : JobRecord) (now : Time) : Bool :=
  m.metadataExpiresAt.elim false fun expiry => decide (expiry ≤ now)

/--
What becomes of the record under one task id, with the admissions counted so
far.  `fresh` is the promise that no admission takes the id of a record.
-/
inductive Fate (fresh : Prop) (now : Time) (cause : Cause) (id : TaskId) (lower upper : Nat) :
    Option JobRecord → Option JobRecord → Prop where
  | absent : Fate fresh now cause id lower upper none none
  | kept {m next : JobRecord} (moves : Moves now cause m next) :
      Fate fresh now cause id lower upper (some m) (some next)
  | expired {m next : JobRecord} (sweeps : cause = .sweep) (moves : Moves now cause m next)
      (outlived : next.outlived now = true) : Fate fresh now cause id lower upper (some m) none
  | erased {m : JobRecord} (userId : Int) (members : List TaskId)
      (erases : cause = .call (.eraseUser userId members)) :
      Fate fresh now cause id lower upper (some m) none
  | born {before : Option JobRecord} {first next : JobRecord}
      (admission : Admission now cause first) (clear : fresh → before = none)
      (named : first.taskId = id)
      (newer : lower < first.sequence) (counted : first.sequence ≤ upper)
      (moves : Moves now cause first next) :
      Fate fresh now cause id lower upper before (some next)

namespace Fate

variable {fresh : Prop} {now : Time} {cause : Cause} {id : TaskId} {lower middle upper : Nat}
variable {before between after : Option JobRecord}

theorem refl (before : Option JobRecord) : Fate fresh now cause id lower upper before before := by
  cases before with
  | none => exact absent
  | some m => exact kept (Moves.refl m)

theorem trans (below : lower ≤ middle) (above : middle ≤ upper)
    (first : Fate fresh now cause id lower middle before between)
    (second : Fate fresh now cause id middle upper between after) :
    Fate fresh now cause id lower upper before after := by
  cases second with
  | born admission clear named newer counted moves =>
    refine born admission (fun holds => ?_) named (below.trans_lt newer) counted moves
    have gone := clear holds
    subst gone
    cases first with
    | absent => rfl
    | expired sweeps => exact absurd sweeps admission.not_sweep
    | erased userId members erases => exact absurd erases (admission.not_erase userId members)
  | absent =>
    cases first with
    | absent => exact absent
    | expired sweeps moves outlived => exact expired sweeps moves outlived
    | erased userId members erases => exact erased userId members erases
  | kept moves =>
    cases first with
    | kept earlier => exact kept (earlier.trans moves)
    | born admission clear named newer counted earlier =>
      exact born admission clear named newer (counted.trans above) (earlier.trans moves)
  | expired sweeps moves outlived =>
    cases first with
    | kept earlier => exact expired sweeps (earlier.trans moves) outlived
    | born admission => exact absurd sweeps admission.not_sweep
  | erased userId members erases =>
    cases first with
    | kept => exact erased userId members erases
    | born admission => exact absurd erases (admission.not_erase userId members)

/-- A weaker promise is kept as well. -/
theorem mono {weaker : Prop} (implies : weaker → fresh)
    (fate : Fate fresh now cause id lower upper before after) :
    Fate weaker now cause id lower upper before after := by
  cases fate with
  | absent => exact absent
  | kept moves => exact kept moves
  | expired sweeps moves outlived => exact expired sweeps moves outlived
  | erased userId members erases => exact erased userId members erases
  | born admission clear named newer counted moves =>
    exact born admission (fun holds => clear (implies holds)) named newer counted moves

end Fate

structure Ledger where
  records : Dict TaskId JobRecord
  sequence : Nat

namespace Ledger

/-- One phase of a command: every record meets one of its fates. -/
structure Progress (fresh : Prop) (now : Time) (cause : Cause) (before after : Ledger) : Prop where
  counted : before.sequence ≤ after.sequence
  fate : ∀ id, Fate fresh now cause id before.sequence after.sequence (before.records.get? id)
    (after.records.get? id)

namespace Progress

variable {fresh : Prop} {now : Time} {cause : Cause} {before middle after : Ledger}

theorem refl (ledger : Ledger) : Progress fresh now cause ledger ledger :=
  ⟨le_rfl, fun _ => Fate.refl _⟩

theorem trans (first : Progress fresh now cause before middle)
    (second : Progress fresh now cause middle after) : Progress fresh now cause before after :=
  ⟨first.counted.trans second.counted, fun id =>
    Fate.trans first.counted second.counted (first.fate id) (second.fate id)⟩

theorem mono {weaker : Prop} (implies : weaker → fresh)
    (progress : Progress fresh now cause before after) :
    Progress weaker now cause before after :=
  ⟨progress.counted, fun id => (progress.fate id).mono implies⟩

/-- A phase that goes through a list makes progress when every item does. -/
theorem foldl {State Item : Type} (view : State → Ledger) (good : State → Prop)
    (step : State → Item → State)
    (each : ∀ state item, good state →
      good (step state item) ∧ Progress fresh now cause (view state) (view (step state item)))
    (items : List Item) (state : State) (initial : good state) :
    good (items.foldl step state) ∧
      Progress fresh now cause (view state) (view (items.foldl step state)) := by
  induction items generalizing state with
  | nil => exact ⟨initial, refl _⟩
  | cons item rest ih =>
    obtain ⟨kept, progress⟩ := each state item initial
    obtain ⟨settled, later⟩ := ih (step state item) kept
    exact ⟨settled, progress.trans later⟩

end Progress

/-- What holds of every ledger a store can be in. -/
structure WellFormed (ledger : Ledger) : Prop where
  record : ∀ id m, ledger.records.get? id = some m → m.WellFormed
  named : ∀ id m, ledger.records.get? id = some m → m.taskId = id
  counted : ∀ id m, ledger.records.get? id = some m → m.sequence ≤ ledger.sequence

theorem empty_wellFormed : WellFormed ⟨Dict.empty, 0⟩ := by
  constructor <;> intro id m found <;> cases found

namespace Progress

variable {fresh : Prop} {now : Time} {cause : Cause} {before after : Ledger}

theorem wellFormed (progress : Progress fresh now cause before after) (good : before.WellFormed) :
    after.WellFormed := by
  have each : ∀ id next, after.records.get? id = some next →
      next.WellFormed ∧ next.taskId = id ∧ next.sequence ≤ after.sequence := by
    intro id next found
    have fate := progress.fate id
    rw [found] at fate
    generalize earlier : before.records.get? id = old at fate
    cases fate with
    | @kept m _ moves =>
      refine ⟨moves.wellFormed (good.record id m earlier),
        moves.sameJob.taskId.trans (good.named id m earlier), ?_⟩
      rw [moves.sameJob.sequence]
      exact (good.counted id m earlier).trans progress.counted
    | born admission _ named _ counted moves =>
      exact ⟨moves.wellFormed admission.wellFormed, moves.sameJob.taskId.trans named,
        moves.sameJob.sequence ▸ counted⟩
  exact ⟨fun id m found => (each id m found).1, fun id m found => (each id m found).2.1,
    fun id m found => (each id m found).2.2⟩

/-- The record of a job after a phase comes from its record before by transitions. -/
theorem moves_of_same (progress : Progress fresh now cause before after) (good : before.WellFormed)
    {id : TaskId} {m next : JobRecord} (found : before.records.get? id = some m)
    (later : after.records.get? id = some next) (same : next.sequence = m.sequence) :
    Moves now cause m next := by
  have fate := progress.fate id
  rw [found, later] at fate
  cases fate with
  | kept moves => exact moves
  | born _ _ _ newer _ moves =>
    have bound := good.counted id m found
    rw [← same, moves.sameJob.sequence] at bound
    exact absurd newer (Nat.not_lt.mpr bound)

/-- A job that a phase leaves in the ledger was in it before, unless the phase admitted it. -/
theorem origin (progress : Progress fresh now cause before after) {id : TaskId} {next : JobRecord}
    (later : after.records.get? id = some next) (old : next.sequence ≤ before.sequence) :
    ∃ m, before.records.get? id = some m ∧ Moves now cause m next := by
  have fate := progress.fate id
  rw [later] at fate
  generalize earlier : before.records.get? id = found at fate
  cases fate with
  | @kept m _ moves => exact ⟨m, rfl, moves⟩
  | born _ _ _ newer _ moves =>
    rw [moves.sameJob.sequence] at old
    exact absurd newer (Nat.not_lt.mpr old)

/-- A sweep admits nothing. -/
theorem sweep_origin (progress : Progress fresh now .sweep before after) {id : TaskId}
    {next : JobRecord} (later : after.records.get? id = some next) :
    ∃ m, before.records.get? id = some m ∧ Moves now .sweep m next := by
  have fate := progress.fate id
  rw [later] at fate
  generalize earlier : before.records.get? id = found at fate
  cases fate with
  | @kept m _ moves => exact ⟨m, rfl, moves⟩
  | born admission => exact absurd rfl admission.not_sweep

end Progress

/-- A command: the sweep, then the command's own part. -/
def Command (fresh : Prop) (now : Time) (command : Queue.Command) (before after : Ledger) : Prop :=
  ∃ swept, Progress fresh now .sweep before swept ∧ Progress fresh now (.call command) swept after

/-- What a label of a store run does to the ledger. -/
def Step (fresh : Prop) (now : Time) : Label → Ledger → Ledger → Prop
  | .advance _, before, after => after = before
  | .call command, before, after => Command fresh now command before after

namespace Step

variable {fresh : Prop} {now : Time} {label : Label} {before after : Ledger}

theorem wellFormed (step : Step fresh now label before after) (good : before.WellFormed) :
    after.WellFormed := by
  cases label with
  | advance elapsed =>
    cases step
    exact good
  | call command =>
    obtain ⟨swept, sweep, own⟩ := step
    exact own.wellFormed (sweep.wellFormed good)

theorem counted (step : Step fresh now label before after) : before.sequence ≤ after.sequence := by
  cases label with
  | advance elapsed =>
    cases step
    exact le_rfl
  | call command =>
    obtain ⟨swept, sweep, own⟩ := step
    exact sweep.counted.trans own.counted

/--
A job that is still there after a step was there before it, and its record went
through the transitions of the sweep and then of the command.
-/
theorem origin (step : Step fresh now label before after) {id : TaskId} {next : JobRecord}
    (later : after.records.get? id = some next) (old : next.sequence ≤ before.sequence) :
    ∃ m, before.records.get? id = some m ∧
      (m = next ∨ ∃ command swept, label = .call command ∧ Moves now .sweep m swept ∧
        Moves now (.call command) swept next) := by
  cases label with
  | advance elapsed =>
    cases step
    exact ⟨next, later, .inl rfl⟩
  | call command =>
    obtain ⟨middle, sweep, own⟩ := step
    obtain ⟨swept, found, second⟩ := own.origin later (old.trans sweep.counted)
    have bound : swept.sequence ≤ before.sequence := second.sameJob.sequence ▸ old
    obtain ⟨m, first, moves⟩ := sweep.origin found bound
    exact ⟨m, first, .inr ⟨command, swept, rfl, moves, second⟩⟩

/--
What every transition keeps of a record stays true of the record of that job,
as long as the job is in the ledger.
-/
theorem persists (holds : JobRecord → Prop)
    (closed : ∀ cause m next, Move now cause m next → holds m → holds next)
    (step : Step fresh now label before after) {id : TaskId} {sequence : Nat}
    (bound : sequence ≤ before.sequence)
    (initial : ∀ m, before.records.get? id = some m → m.sequence = sequence → holds m)
    {next : JobRecord} (later : after.records.get? id = some next)
    (same : next.sequence = sequence) : holds next := by
  obtain ⟨m, found, same' | ⟨command, swept, _, first, second⟩⟩ :=
    step.origin later (same ▸ bound)
  · exact same' ▸ initial m found (same' ▸ same)
  · have unchanged := first.sameJob.trans second.sameJob
    exact second.keeps (fun _ _ => closed _ _ _)
      (first.keeps (fun _ _ => closed _ _ _)
        (initial m found (unchanged.sequence ▸ same)))

end Step

/-! ## Lost deliveries -/

/-- The job is not in the ledger any more, or it is an unknown delivery. -/
def Lost (id : TaskId) (sequence : Nat) (ledger : Ledger) : Prop :=
  ∀ r, ledger.records.get? id = some r → r.sequence = sequence → r.state = .unknownDelivery

/-- The job is lost, or its record is still the given one. -/
def Pending (id : TaskId) (m : JobRecord) (ledger : Ledger) : Prop :=
  ∀ r, ledger.records.get? id = some r → r.sequence = m.sequence →
    r = m ∨ r.state = .unknownDelivery

section Lost

variable {fresh : Prop} {now : Time} {cause : Cause} {before after : Ledger} {id : TaskId}

theorem Progress.lost {sequence : Nat} (progress : Progress fresh now cause before after)
    (bound : sequence ≤ before.sequence) (lost : Lost id sequence before) :
    Lost id sequence after := by
  intro r later same
  obtain ⟨m, found, moves⟩ := progress.origin later (same ▸ bound)
  have state := lost m found (moves.sameJob.sequence ▸ same)
  exact (moves.absorbs (by rw [state]; rfl)).trans state

theorem Progress.pending {m : JobRecord} (progress : Progress fresh now .sweep before after)
    (bound : m.sequence ≤ before.sequence) (effectful : m.effectful = true)
    (owned : m.state.owned = true) (pending : Pending id m before) : Pending id m after := by
  intro r later same
  obtain ⟨old, found, moves⟩ := progress.origin later (same ▸ bound)
  rcases pending old found (moves.sameJob.sequence ▸ same) with rfl | state
  · exact moves.sweepOwned effectful owned
  · exact .inr ((moves.absorbs (by rw [state]; rfl)).trans state)

/-- A pass that meets the job on its way loses it. -/
theorem foldl_loses (fresh : Prop) (now : Time) {State Item : Type} (view : State → Ledger)
    (good : State → Prop) (step : State → Item → State)
    (each : ∀ state item, good state →
      good (step state item) ∧ Progress fresh now .sweep (view state) (view (step state item)))
    {m : JobRecord} (effectful : m.effectful = true) (owned : m.state.owned = true)
    (hit : Item) (loses : ∀ state r, good state → (view state).records.get? id = some m →
      (view (step state hit)).records.get? id = some r → r.state = .unknownDelivery)
    (items : List Item) (member : hit ∈ items) (state : State) (initial : good state)
    (bound : m.sequence ≤ (view state).sequence) (pending : Pending id m (view state)) :
    Lost id m.sequence (view (items.foldl step state)) := by
  induction items generalizing state with
  | nil => cases member
  | cons item rest ih =>
    obtain ⟨kept, progress⟩ := each state item initial
    have bound' := bound.trans progress.counted
    rcases List.mem_cons.mp member with rfl | later
    · have lost : Lost id m.sequence (view (step state hit)) := by
        intro r found same
        obtain ⟨old, before, moves⟩ := progress.origin found (same ▸ bound)
        rcases pending old before (moves.sameJob.sequence ▸ same) with rfl | state'
        · exact loses state r initial before found
        · exact (moves.absorbs (by rw [state']; rfl)).trans state'
      have through := Progress.foldl view good step each rest (step state hit) kept
      exact through.2.lost bound' lost
    · exact ih later _ kept bound' (progress.pending bound effectful owned pending)

end Lost

end Ledger

end BobbyBotique.Queue
