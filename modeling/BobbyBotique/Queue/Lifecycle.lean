import Mathlib.Logic.Relation
import BobbyBotique.Queue.Command

/-!
# The life of a job

The transitions a store may make on the record of one job, each with the cause
that allows it: the sweep, or a command.  A command may make several in a row.
What holds of every single transition holds of a command, and of a run of
either store, once the store's commands are shown to be such sequences.
-/

namespace BobbyBotique.Queue

/-- What makes a record change. -/
inductive Cause where
  | sweep
  | call (command : Command)

/-- The record is held by this token at this revision. -/
structure JobRecord.OwnedBy (m : JobRecord) (ownerToken : String) (revision : Nat) : Prop where
  owned : m.state.owned = true
  token : m.ownerToken = some ownerToken
  current : m.revision = revision

theorem JobRecord.OwnedBy.summarise {m : JobRecord} {ownerToken : String} {revision : Nat}
    (owned : m.OwnedBy ownerToken revision) (update : PublicSummary) :
    (m.summarise update).OwnedBy ownerToken revision :=
  ⟨owned.owned, owned.token, owned.current⟩

/-- The ways a job comes to an end: the final state, and whether a retry may be kept. -/
inductive Ending : Cause → JobRecord → JobState → Bool → Prop where
  | overdue {m : JobRecord} (active : m.state.active = true) :
      Ending .sweep m (if m.uncertain then .unknownDelivery else .expired) false
  | lostEffect {m : JobRecord} (owned : m.state.owned = true) (effectful : m.effectful = true) :
      Ending .sweep m .unknownDelivery false
  | lostCancelled {m : JobRecord} (requested : m.state = .cancelRequested)
      (safe : m.effectful = false) : Ending .sweep m .cancelled false
  | lostExhausted {m : JobRecord} {keep : Bool} (running : m.state = .running)
      (safe : m.effectful = false) (spent : m.maxAttempts ≤ m.attemptsStarted) :
      Ending .sweep m .failed keep
  | lostLate {m : JobRecord} {keep : Bool} (running : m.state = .running)
      (safe : m.effectful = false) : Ending .sweep m .expired keep
  | exhausted {m : JobRecord} {keep : Bool} {lane : Lane} {ownerToken : String}
      (queued : m.state = .queued) (spent : m.maxAttempts ≤ m.attemptsStarted) :
      Ending (.call (.claim lane ownerToken)) m .failed keep
  | payloadGone {m : JobRecord} {lane : Lane} {ownerToken : String}
      (queued : m.state = .queued) :
      Ending (.call (.claim lane ownerToken)) m .expired false
  | uncertainResult {m : JobRecord} {ownerToken : String} {revision : Nat}
      {result : JobResult} {delay : Time} (owned : m.OwnedBy ownerToken revision)
      (outcome : result.outcome = .unknownDelivery) :
      Ending (.call (.finish m.taskId ownerToken revision result delay)) m .unknownDelivery false
  | cancelledResult {m : JobRecord} {ownerToken : String} {revision : Nat}
      {result : JobResult} {delay : Time} (owned : m.OwnedBy ownerToken revision)
      (requested : m.state = .cancelRequested) :
      Ending (.call (.finish m.taskId ownerToken revision result delay)) m .cancelled false
  | retryExhausted {m : JobRecord} {keep : Bool} {ownerToken : String} {revision : Nat}
      {result : JobResult} {delay : Time} (owned : m.OwnedBy ownerToken revision)
      (running : m.state = .running) (outcome : result.outcome = .retryableFailure) :
      Ending (.call (.finish m.taskId ownerToken revision result delay)) m .failed keep
  | retryLate {m : JobRecord} {keep : Bool} {ownerToken : String} {revision : Nat}
      {result : JobResult} {delay : Time} (owned : m.OwnedBy ownerToken revision)
      (running : m.state = .running) (outcome : result.outcome = .retryableFailure) :
      Ending (.call (.finish m.taskId ownerToken revision result delay)) m .expired keep
  | succeeded {m : JobRecord} {ownerToken : String} {revision : Nat}
      {result : JobResult} {delay : Time} (owned : m.OwnedBy ownerToken revision)
      (running : m.state = .running) (outcome : result.outcome = .succeeded) :
      Ending (.call (.finish m.taskId ownerToken revision result delay)) m .succeeded false
  | failed {m : JobRecord} {ownerToken : String} {revision : Nat}
      {result : JobResult} {delay : Time} (owned : m.OwnedBy ownerToken revision)
      (running : m.state = .running) (outcome : result.outcome = .permanentFailure) :
      Ending (.call (.finish m.taskId ownerToken revision result delay)) m .failed false
  | withdrawn {m : JobRecord} {revision : Nat} {actor operationId : String}
      (waits : m.state.waiting = true) :
      Ending (.call (.requestCancel m.taskId revision actor operationId)) m .cancelled false

/-- One transition of a record. -/
inductive Move (now : Time) : Cause → JobRecord → JobRecord → Prop where
  | ending {cause : Cause} {m : JobRecord} {state : JobState} {keep : Bool}
      (how : Ending cause m state keep) (reason : Option String)
      (granted : keep = true → 0 < m.retryGrants) :
      Move now cause m (m.terminal now state reason keep)
  | payloadDropped {m : JobRecord} (done : m.state.active = false) :
      Move now .sweep m m.dropRetry
  | requeueLost {m : JobRecord} (running : m.state = .running) (safe : m.effectful = false)
      (left : m.attemptsStarted < m.maxAttempts) : Move now .sweep m m.requeueLost
  | promote {m : JobRecord} (delayed : m.state = .delayed) : Move now .sweep m m.promote
  | start {m : JobRecord} {lane : Lane} {ownerToken : String} (budget : Time)
      (queued : m.state = .queued) (left : m.attemptsStarted < m.maxAttempts) :
      Move now (.call (.claim lane ownerToken)) m
        ((m.extendDaily now budget).start now ownerToken)
  | beat {m : JobRecord} {ownerToken : String} {revision : Nat}
      (owned : m.OwnedBy ownerToken revision) :
      Move now (.call (.heartbeat m.taskId ownerToken revision)) m (m.beat now)
  | progress {m : JobRecord} {ownerToken : String} {revision : Nat} {summary : Summary}
      (owned : m.OwnedBy ownerToken revision) (update : PublicSummary) :
      Move now (.call (.updateProgress m.taskId ownerToken revision summary)) m
        (m.summarise update)
  | result {m : JobRecord} {ownerToken : String} {revision : Nat} {result : JobResult}
      {delay : Time} (owned : m.OwnedBy ownerToken revision) (update : PublicSummary) :
      Move now (.call (.finish m.taskId ownerToken revision result delay)) m
        (m.summarise update)
  | requeueRetry {m : JobRecord} {ownerToken : String} {revision : Nat} {result : JobResult}
      {delay : Time} (owned : m.OwnedBy ownerToken revision) (running : m.state = .running)
      (outcome : result.outcome = .retryableFailure)
      (left : m.attemptsStarted < m.maxAttempts) :
      Move now (.call (.finish m.taskId ownerToken revision result delay)) m
        (m.requeueRetry now delay result.reasonCode)
  | settled {m : JobRecord} {ownerToken : String} {revision : Nat} {result : JobResult}
      {delay : Time} (released : m.state.owned = false) (unsettled : m.finishToken = none) :
      Move now (.call (.finish m.taskId ownerToken revision result delay)) m
        (m.settledBy ownerToken)
  | requestCancel {m : JobRecord} {actor operationId : String} (owned : m.state.owned = true) :
      Move now (.call (.requestCancel m.taskId m.revision actor operationId)) m m.requestCancel
  | spend {m : JobRecord} {revision : Nat} {actor operationId : String} {epoch : Option Int}
      (done : m.state.active = false) :
      Move now (.call (.retryJob m.taskId revision actor operationId epoch)) m
        m.spendGrant.dropRetry

/-- A sequence of transitions with one cause. -/
def Moves (now : Time) (cause : Cause) : JobRecord → JobRecord → Prop :=
  Relation.ReflTransGen (Move now cause)

/-! ## What one transition keeps -/

/-- The fields no transition changes. -/
structure SameJob (m next : JobRecord) : Prop where
  taskId : next.taskId = m.taskId
  lane : next.lane = m.lane
  userId : next.userId = m.userId
  effectful : next.effectful = m.effectful
  imageWork : next.imageWork = m.imageWork
  maxAttempts : next.maxAttempts = m.maxAttempts
  sequence : next.sequence = m.sequence
  payloadBytes : next.payloadBytes = m.payloadBytes
  identity : next.identity = m.identity
  submittedAt : next.submittedAt = m.submittedAt

namespace SameJob

theorem refl (m : JobRecord) : SameJob m m := ⟨rfl, rfl, rfl, rfl, rfl, rfl, rfl, rfl, rfl, rfl⟩

theorem trans {first second third : JobRecord} (left : SameJob first second)
    (right : SameJob second third) : SameJob first third where
  taskId := right.taskId.trans left.taskId
  lane := right.lane.trans left.lane
  userId := right.userId.trans left.userId
  effectful := right.effectful.trans left.effectful
  imageWork := right.imageWork.trans left.imageWork
  maxAttempts := right.maxAttempts.trans left.maxAttempts
  sequence := right.sequence.trans left.sequence
  payloadBytes := right.payloadBytes.trans left.payloadBytes
  identity := right.identity.trans left.identity
  submittedAt := right.submittedAt.trans left.submittedAt

end SameJob

/-- What every stored record satisfies. -/
structure JobRecord.WellFormed (m : JobRecord) : Prop where
  /-- A job has an owner token exactly while it is held. -/
  token : m.ownerToken.isSome = m.state.owned
  attempts : m.attemptsStarted ≤ m.maxAttempts
  /-- A waiting job has a start left. -/
  left : m.state.waiting = true → m.attemptsStarted < m.maxAttempts
  /-- The metadata of a job expires exactly once the job has ended. -/
  expiry : m.metadataExpiresAt.isSome = !m.state.active
  /-- A retry is offered only for a safe end and with the grant unspent. -/
  retry : m.retryEligible = true → (m.state = .failed ∨ m.state = .expired) ∧ 0 < m.retryGrants
  available : m.retryPayloadAvailable = m.retryEligible
  /-- A held job has a heartbeat, and nobody has settled it yet. -/
  beats : m.state.owned = true → m.heartbeatAt.isSome = true
  unsettled : m.state.owned = true → m.finishToken = none

namespace JobRecord.WellFormed

variable {m : JobRecord}

theorem unexpired (good : m.WellFormed) (active : m.state.active = true) :
    m.metadataExpiresAt = none := by
  have expiry := good.expiry
  rw [active] at expiry
  exact Option.not_isSome_iff_eq_none.mp (Bool.eq_false_iff.mp expiry)

theorem ineligible (good : m.WellFormed) (active : m.state.active = true) :
    m.retryEligible = false := by
  cases eligible : m.retryEligible with
  | false => rfl
  | true =>
    rcases (good.retry eligible).1 with ended | ended <;> rw [ended] at active <;> cases active

theorem released (good : m.WellFormed) {ownerToken : String}
    (settled : m.finishToken = some ownerToken) : m.state.owned = false := by
  cases owned : m.state.owned with
  | false => rfl
  | true => cases (good.unsettled owned).symm.trans settled

/-- There is nothing to drop for a retry while a job is active. -/
theorem dropRetry_eq (good : m.WellFormed) (active : m.state.active = true) :
    m.dropRetry = m := by
  have ineligible := good.ineligible active
  have unavailable := good.available.trans ineligible
  cases m
  cases ineligible
  cases unavailable
  rfl

/-- An active record that goes back to waiting is well formed. -/
theorem requeued (good : m.WellFormed) (active : m.state.active = true) (next : JobRecord)
    (waits : next.state.waiting = true) (token : next.ownerToken = none)
    (left : next.state.waiting = true → next.attemptsStarted < next.maxAttempts)
    (attempts : next.attemptsStarted = m.attemptsStarted)
    (limit : next.maxAttempts = m.maxAttempts)
    (expiry : next.metadataExpiresAt = m.metadataExpiresAt)
    (eligible : next.retryEligible = m.retryEligible)
    (available : next.retryPayloadAvailable = m.retryPayloadAvailable) :
    next.WellFormed := by
  have released := JobState.owned_eq_false_of_waiting waits
  exact
    { token := by rw [token, released]; rfl
      attempts := by rw [attempts, limit]; exact good.attempts
      left := left
      expiry := by rw [expiry, good.unexpired active, JobState.active_eq, waits, Bool.or_true]; rfl
      retry := fun kept => by
        rw [eligible, good.ineligible active] at kept
        cases kept
      available := by rw [available, eligible]; exact good.available
      beats := fun owned => by rw [released] at owned; cases owned
      unsettled := fun owned => by rw [released] at owned; cases owned }

end JobRecord.WellFormed

theorem JobRecord.extendDaily_cases (m : JobRecord) (now budget : Time) :
    m.extendDaily now budget = m ∨ m.extendDaily now budget =
        { m with
          deadlineAt := now + budget + executionSettlementGrace
          payloadExpiresAt := now + budget + executionSettlementGrace } := by
  unfold JobRecord.extendDaily
  split
  · exact .inr rfl
  · exact .inl rfl

theorem JobRecord.requeueRetry_waiting (m : JobRecord) (now delay : Time)
    (reason : Option String) : (m.requeueRetry now delay reason).state.waiting = true := by
  change (if delay > 0 then JobState.delayed else .queued).waiting = true
  split <;> rfl

namespace Ending

variable {cause : Cause} {m : JobRecord} {state : JobState} {keep : Bool}

/-- Only an active job ends, and its end is not active. -/
theorem active_ends (how : Ending cause m state keep) :
    m.state.active = true ∧ state.active = false := by
  cases how with
  | overdue active =>
    refine ⟨active, ?_⟩
    split <;> rfl
  | lostEffect owned => exact ⟨JobState.active_of_owned owned, rfl⟩
  | lostCancelled requested => exact ⟨by rw [requested]; rfl, rfl⟩
  | lostExhausted running | lostLate running => exact ⟨by rw [running]; rfl, rfl⟩
  | exhausted queued | payloadGone queued => exact ⟨by rw [queued]; rfl, rfl⟩
  | uncertainResult owned | cancelledResult owned | retryExhausted owned | retryLate owned
  | succeeded owned | failed owned => exact ⟨JobState.active_of_owned owned.owned, rfl⟩
  | withdrawn waits => exact ⟨by rw [JobState.active_eq, waits, Bool.or_true], rfl⟩

/-- A payload is kept only at the two ends that a retry may follow. -/
theorem keep_state (how : Ending cause m state keep) (kept : keep = true) :
    state = .failed ∨ state = .expired := by
  cases how with
  | lostExhausted => exact .inl rfl
  | lostLate => exact .inr rfl
  | exhausted | retryExhausted => exact .inl rfl
  | retryLate => exact .inr rfl
  | overdue | lostEffect | lostCancelled | payloadGone | uncertainResult | cancelledResult
  | succeeded | failed | withdrawn => cases kept

end Ending

namespace Move

variable {now : Time} {cause : Cause} {m next : JobRecord}

theorem sameJob (move : Move now cause m next) : SameJob m next := by
  cases move with
  | start budget =>
    rcases m.extendDaily_cases now budget with same | same <;>
      rw [same] <;> exact ⟨rfl, rfl, rfl, rfl, rfl, rfl, rfl, rfl, rfl, rfl⟩
  | _ => exact ⟨rfl, rfl, rfl, rfl, rfl, rfl, rfl, rfl, rfl, rfl⟩

/-- Every transition keeps records well formed. -/
theorem wellFormed (move : Move now cause m next) (good : m.WellFormed) :
    next.WellFormed := by
  cases move with
  | @ending _ _ state keep how _ granted =>
    obtain ⟨_, ended⟩ := how.active_ends
    have idle : (state.owned || state.waiting) = false := by rw [← JobState.active_eq, ended]
    obtain ⟨released, idle⟩ := Bool.or_eq_false_iff.mp idle
    exact
      { token := released.symm
        attempts := good.attempts
        left := fun waits => by
          rw [show (m.terminal now state _ keep).state = state from rfl, idle] at waits
          cases waits
        expiry := by
          change true = !state.active
          rw [ended]
          rfl
        retry := fun kept => ⟨how.keep_state kept, granted kept⟩
        available := rfl
        beats := fun owned => by
          rw [show (m.terminal now state _ keep).state = state from rfl, released] at owned
          cases owned
        unsettled := fun owned => by
          rw [show (m.terminal now state _ keep).state = state from rfl, released] at owned
          cases owned }
  | payloadDropped done =>
    exact { good with retry := (fun kept => by cases kept), available := rfl }
  | requeueLost running _ left =>
    have active : m.state.active = true := by rw [running]; rfl
    exact good.requeued active m.requeueLost rfl rfl (fun _ => left) rfl rfl rfl rfl rfl
  | promote delayed =>
    have active : m.state.active = true := by rw [delayed]; rfl
    have waits : m.state.waiting = true := by rw [delayed]; rfl
    have token : m.ownerToken = none := by
      have free := good.token
      rw [delayed] at free
      exact Option.not_isSome_iff_eq_none.mp (Bool.eq_false_iff.mp free)
    exact good.requeued active m.promote rfl token (fun _ => good.left waits) rfl rfl rfl rfl
      rfl
  | @start _ _ ownerToken budget queued left =>
    have active : m.state.active = true := by rw [queued]; rfl
    have ready : ∀ base : JobRecord, base.attemptsStarted = m.attemptsStarted →
        base.maxAttempts = m.maxAttempts → base.metadataExpiresAt = m.metadataExpiresAt →
        base.retryEligible = m.retryEligible →
        base.retryPayloadAvailable = m.retryPayloadAvailable →
        (base.start now ownerToken).WellFormed := by
      intro base attempts limit expiry eligible available
      exact
        { token := rfl
          attempts := by
            change base.attemptsStarted + 1 ≤ base.maxAttempts
            omega
          left := fun waits => by cases waits
          expiry := by
            change base.metadataExpiresAt.isSome = false
            rw [expiry, good.unexpired active]
            rfl
          retry := fun kept => by
            rw [show (base.start now ownerToken).retryEligible = m.retryEligible from eligible,
              good.ineligible active] at kept
            cases kept
          available := available.trans (good.available.trans eligible.symm)
          beats := fun _ => rfl
          unsettled := fun _ => rfl }
    rcases m.extendDaily_cases now budget with same | same <;> rw [same] <;>
      exact ready _ rfl rfl rfl rfl rfl
  | beat => exact { good with beats := fun _ => rfl }
  | progress | result => exact { good with }
  | @requeueRetry _ _ _ result delay owned running _ left =>
    have active : m.state.active = true := by rw [running]; rfl
    have waits := m.requeueRetry_waiting now delay result.reasonCode
    exact good.requeued active (m.requeueRetry now delay result.reasonCode) waits rfl
      (fun _ => left) rfl rfl rfl rfl rfl
  | settled released =>
    exact
      { good with
        unsettled := fun owned => absurd (released.symm.trans owned) Bool.false_ne_true }
  | requestCancel owned =>
    have active := JobState.active_of_owned owned
    exact
      { good with
        token := good.token.trans owned
        left := fun waits => by cases waits
        expiry := by
          change m.metadataExpiresAt.isSome = false
          rw [good.unexpired active]
          rfl
        retry := fun kept => absurd ((good.ineligible active).symm.trans kept) Bool.false_ne_true
        beats := fun _ => good.beats owned
        unsettled := fun _ => good.unsettled owned }
  | spend done =>
    exact { good with retry := (fun kept => by cases kept), available := rfl }

/-- The revision never falls, and it rises whenever the state changes. -/
theorem revision (move : Move now cause m next) :
    m.revision ≤ next.revision ∧ (next.state ≠ m.state → m.revision < next.revision) := by
  cases move with
  | ending | requeueLost | promote | requeueRetry | requestCancel =>
    exact ⟨Nat.le_succ _, fun _ => Nat.lt_succ_self _⟩
  | start budget =>
    have same : (m.extendDaily now budget).revision = m.revision := by
      rcases m.extendDaily_cases now budget with same | same <;> rw [same]
    refine ⟨?_, fun _ => ?_⟩
    · exact same ▸ Nat.le_succ _
    · exact same ▸ Nat.lt_succ_self _
  | payloadDropped | beat | progress | result | settled | spend =>
    exact ⟨le_rfl, fun changed => absurd rfl changed⟩

/-- A job that has ended stays in the state it ended in. -/
theorem absorbs (move : Move now cause m next) (done : m.state.active = false) :
    next.state = m.state := by
  have excluded : ∀ state : JobState, state.active = true → m.state ≠ state := by
    intro state active same
    rw [same, active] at done
    cases done
  cases move with
  | ending how => exact absurd rfl (excluded _ how.active_ends.1)
  | requeueLost running => exact absurd running (excluded _ rfl)
  | promote delayed => exact absurd delayed (excluded _ rfl)
  | start _ queued => exact absurd queued (excluded _ rfl)
  | requeueRetry _ running => exact absurd running (excluded _ rfl)
  | requestCancel owned => exact absurd rfl (excluded _ (JobState.active_of_owned owned))
  | payloadDropped | beat | progress | result | settled | spend => rfl

/-- Only a claim starts an attempt, and it starts one. -/
theorem attempts (move : Move now cause m next) :
    next.attemptsStarted = m.attemptsStarted ∨
      (next.attemptsStarted = m.attemptsStarted + 1 ∧ m.state = .queued ∧
        next.state = .running ∧ ∃ lane ownerToken, cause = .call (.claim lane ownerToken)) := by
  cases move with
  | @start _ lane ownerToken budget queued _ =>
    refine .inr ⟨?_, queued, rfl, lane, ownerToken, rfl⟩
    rcases m.extendDaily_cases now budget with same | same <;> rw [same] <;> rfl
  | _ => exact .inl rfl

/-- Only a claim takes a job that nobody holds. -/
theorem taken (move : Move now cause m next) (owned : next.state.owned = true) :
    m.state.owned = true ∨ m.attemptsStarted < next.attemptsStarted := by
  cases move with
  | ending how =>
    have active := JobState.active_of_owned owned
    exact absurd (how.active_ends.2.symm.trans active) Bool.false_ne_true
  | requeueLost | promote => cases owned
  | @requeueRetry _ _ _ result delay _ _ _ _ =>
    rw [JobState.owned_eq_false_of_waiting (m.requeueRetry_waiting now delay result.reasonCode)]
      at owned
    cases owned
  | start budget =>
    right
    rcases m.extendDaily_cases now budget with same | same <;> rw [same] <;>
      exact Nat.lt_succ_self _
  | requestCancel held => exact .inl held
  | _ => exact .inl owned

/-- Who settled a job is forgotten by a claim only. -/
theorem remembers (move : Move now cause m next) {ownerToken : String}
    (settled : m.finishToken = some ownerToken) :
    next.finishToken = some ownerToken ∨ m.attemptsStarted < next.attemptsStarted := by
  cases move with
  | start budget =>
    right
    rcases m.extendDaily_cases now budget with same | same <;> rw [same] <;>
      exact Nat.lt_succ_self _
  | settled _ unsettled =>
    rw [unsettled] at settled
    cases settled
  | _ => exact .inl settled

/-! ## How a held job is given up -/

/-- A record that is held after a transition was held before it, or it is claimed or cancelled. -/
theorem held (move : Move now cause m next) (owned : next.state.owned = true) :
    (next.state = m.state ∧ next.ownerToken = m.ownerToken ∧ next.revision = m.revision) ∨
      (∃ lane ownerToken, cause = .call (.claim lane ownerToken)) ∨
      (∃ revision actor operationId,
        cause = .call (.requestCancel m.taskId revision actor operationId)) := by
  cases move with
  | @ending _ _ state keep how _ _ =>
    have active : state.active = true := JobState.active_of_owned owned
    rw [how.active_ends.2] at active
    cases active
  | requeueLost | promote => cases owned
  | @requeueRetry _ _ _ result delay _ _ _ _ =>
    have waits := m.requeueRetry_waiting now delay result.reasonCode
    rw [JobState.owned_eq_false_of_waiting waits] at owned
    cases owned
  | @start _ lane ownerToken _ _ _ => exact .inr (.inl ⟨lane, ownerToken, rfl⟩)
  | @requestCancel _ actor operationId _ =>
    exact .inr (.inr ⟨m.revision, actor, operationId, rfl⟩)
  | payloadDropped | beat | progress | result | settled | spend => exact .inl ⟨rfl, rfl, rfl⟩

end Move

/-- The cause is a retryable failure that the owner of a running job reports. -/
def OwnersRetry (cause : Cause) (m : JobRecord) : Prop :=
  ∃ ownerToken result delay, cause = .call (.finish m.taskId ownerToken m.revision result delay) ∧
      result.outcome = .retryableFailure ∧ m.state = .running ∧
      m.ownerToken = some ownerToken

/-- The cause is a finish by the owner of the job. -/
def OwnersFinish (cause : Cause) (m : JobRecord) : Prop :=
  ∃ ownerToken result delay, cause = .call (.finish m.taskId ownerToken m.revision result delay) ∧
      m.ownerToken = some ownerToken

namespace Move

variable {now : Time} {cause : Cause} {m next : JobRecord}

/-- An effectful job goes back to its lane only after its owner's retryable failure. -/
theorem returns (move : Move now cause m next) (effectful : m.effectful = true)
    (away : m.state.waiting = false) (back : next.state.waiting = true) :
    OwnersRetry cause m := by
  have moved : next.state ≠ m.state := by
    intro same
    rw [same, away] at back
    cases back
  cases move with
  | @ending _ _ state keep how _ _ =>
    have ended := how.active_ends.2
    rw [JobState.active_eq, show state.waiting = true from back, Bool.or_true] at ended
    cases ended
  | requeueLost _ safe => rw [safe] at effectful; cases effectful
  | promote delayed => rw [delayed] at away; cases away
  | start | requestCancel => cases back
  | @requeueRetry _ ownerToken _ result delay owned running outcome _ =>
    exact ⟨ownerToken, result, delay, by rw [owned.current], outcome, running, owned.token⟩
  | _ => exact absurd rfl moved

/-- An effectful job becomes eligible for a retry only after its owner's retryable failure. -/
theorem becomesEligible (move : Move now cause m next) (good : m.WellFormed)
    (effectful : m.effectful = true) (before : m.retryEligible = false)
    (after : next.retryEligible = true) : OwnersRetry cause m := by
  have same : next.retryEligible = m.retryEligible → OwnersRetry cause m := by
    intro same
    rw [same, before] at after
    cases after
  cases move with
  | @ending _ _ state keep how _ _ =>
    have kept : keep = true := after
    cases how with
    | lostExhausted _ safe | lostLate _ safe => rw [safe] at effectful; cases effectful
    | exhausted queued spent =>
      exact absurd (good.left (by rw [queued]; rfl)) (Nat.not_lt.mpr spent)
    | @retryExhausted _ _ ownerToken _ result delay owned running outcome
    | @retryLate _ _ ownerToken _ result delay owned running outcome =>
      exact ⟨ownerToken, result, delay, by rw [owned.current], outcome, running, owned.token⟩
    | overdue | lostEffect | lostCancelled | payloadGone | uncertainResult | cancelledResult
    | succeeded | failed | withdrawn => cases kept
  | start budget =>
    refine same ?_
    rcases m.extendDaily_cases now budget with unchanged | unchanged <;> rw [unchanged] <;> rfl
  | payloadDropped | spend => cases after
  | _ => exact same rfl

/-- Without its owner an effectful job that is held ends as an unknown delivery only. -/
theorem givenUp (move : Move now cause m next) (effectful : m.effectful = true)
    (owned : m.state.owned = true) :
    next.state = m.state ∨ next.state = .unknownDelivery ∨ next.state = .cancelRequested ∨
      OwnersFinish cause m := by
  have queued : m.state ≠ .queued := by
    intro queued
    rw [queued] at owned
    cases owned
  cases move with
  | ending how =>
    cases how with
    | overdue =>
      refine .inr (.inl ?_)
      exact if_pos (by rw [JobRecord.uncertain, owned, effectful]; rfl)
    | lostEffect => exact .inr (.inl rfl)
    | lostCancelled _ safe | lostExhausted _ safe | lostLate _ safe =>
      rw [safe] at effectful; cases effectful
    | exhausted waits | payloadGone waits => exact absurd waits queued
    | uncertainResult => exact .inr (.inl rfl)
    | @cancelledResult _ ownerToken _ result delay owner _
    | @retryExhausted _ _ ownerToken _ result delay owner _ _
    | @retryLate _ _ ownerToken _ result delay owner _ _
    | @succeeded _ ownerToken _ result delay owner _ _
    | @failed _ ownerToken _ result delay owner _ _ =>
      exact .inr (.inr (.inr ⟨ownerToken, result, delay, by rw [owner.current], owner.token⟩))
    | withdrawn waits =>
      rw [JobState.owned_eq_false_of_waiting waits] at owned
      cases owned
  | requeueLost _ safe => rw [safe] at effectful; cases effectful
  | promote delayed => rw [delayed] at owned; cases owned
  | start _ waits => exact absurd waits queued
  | @requeueRetry _ ownerToken _ result delay owner _ _ _ =>
    exact .inr (.inr (.inr ⟨ownerToken, result, delay, by rw [owner.current], owner.token⟩))
  | requestCancel => exact .inr (.inr (.inl rfl))
  | _ => exact .inl rfl

/-- A sweep leaves an effectful job to its owner or ends it as an unknown delivery. -/
theorem sweepOwned (move : Move now .sweep m next) (effectful : m.effectful = true)
    (owned : m.state.owned = true) : next.state = .unknownDelivery := by
  cases move with
  | ending how =>
    cases how with
    | overdue => exact if_pos (by rw [JobRecord.uncertain, owned, effectful]; rfl)
    | lostEffect => rfl
    | lostCancelled _ safe | lostExhausted _ safe | lostLate _ safe =>
      rw [safe] at effectful; cases effectful
  | payloadDropped done =>
    exact absurd (done.symm.trans (JobState.active_of_owned owned)) Bool.false_ne_true
  | requeueLost _ safe => rw [safe] at effectful; cases effectful
  | promote delayed => rw [delayed] at owned; cases owned

end Move

end BobbyBotique.Queue
