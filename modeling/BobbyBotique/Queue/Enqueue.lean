import BobbyBotique.Foundation.Text
import BobbyBotique.Queue.Fencing

/-!
# Submissions

`enqueue_job` builds an envelope from a call and its surroundings and admits
it.  A repeated call is answered with the first job exactly when the delay it
derives from the clock is the delay of the first call.
-/

namespace BobbyBotique.Queue

/-- What a handler is registered with. -/
structure HandlerRegistration where
  lane : String
  effectful : Bool
  imageWork : Bool
  executionTimeoutSeconds : Option ExecutionBudget

/-- The arguments of `enqueue_job`; the data is none when it has no JSON text. -/
structure EnqueueCall where
  userId : Int
  kind : String
  data : Option String
  idempotencyKey : String
  lane : String
  policy : Option QueuePolicy := none
  priority : Int := 2
  notBefore : Option Time := none
  delaySeconds : Time := 0
  expectedEpoch : Option Int := none
  conflictKeys : ConflictKeys := ConflictKeys.none
  summary : PublicSummary := PublicSummary.empty

/-- What `enqueue_job` reads besides its arguments. -/
structure Surroundings where
  storeReady : Bool
  clock : Time
  /-- The text of `export_job_context`. -/
  context : String
  currentEpoch : Option Int
  /-- The privacy lease is given. -/
  permitted : Bool

namespace EnqueueCall

/-- The delay of the envelope. -/
def delay (call : EnqueueCall) (clock : Time) : Time :=
  max call.delaySeconds (call.notBefore.elim 0 fun time => max 0 (time - clock))

/-- Both clocks derive one delay: they agree, or the wait for `not_before` fits in the delay. -/
def OneDelay (call : EnqueueCall) (first second : Time) : Prop :=
  ∀ time, call.notBefore = some time →
    first = second ∨ time ≤ first + call.delaySeconds ∧ time ≤ second + call.delaySeconds

theorem longest_eq_iff {least due first second : Int} (nonneg : 0 ≤ least) :
    max least (max 0 (due - second)) = max least (max 0 (due - first)) ↔
      first = second ∨ due ≤ first + least ∧ due ≤ second + least := by
  omega

theorem delay_eq_iff (call : EnqueueCall) (least : 0 ≤ call.delaySeconds) (first second : Time) :
    call.delay second = call.delay first ↔ call.OneDelay first second := by
  unfold delay OneDelay
  cases call.notBefore with
  | none => simp
  | some time =>
    simp only [Option.elim_some, Option.some.injEq, forall_eq']
    exact longest_eq_iff least

/-- `uuid5` of the user and the key. -/
def taskId (call : EnqueueCall) : TaskId := .submission call.userId call.idempotencyKey

/-- The refusal of the arguments, if any. -/
def invalid (call : EnqueueCall) (registration : Option HandlerRegistration) :
    Option QueueAdmission :=
  if registration.all fun handler => handler.lane ≠ call.lane then
    some ⟨.rejected, none, some "unknown_kind_or_lane"⟩
  else if strip call.idempotencyKey.toList = [] ∨ 256 < call.idempotencyKey.length then
    some ⟨.rejected, none, some "invalid_operation_id"⟩
  else if call.priority ∉ ([1, 2, 3, 4] : List Int) then
    some ⟨.rejected, none, some "invalid_priority"⟩
  else if call.delaySeconds < 0 then some ⟨.rejected, none, some "invalid_schedule"⟩
  else if call.data = none then some ⟨.rejected, some call.taskId, some "invalid_job_payload"⟩
  else none

/-- The refusal of the user's privacy, if any. -/
def unprivate (call : EnqueueCall) (around : Surroundings) : Option QueueAdmission :=
  if 0 < call.userId then
    if call.expectedEpoch = none then
      some ⟨.rejected, some call.taskId, some "privacy_epoch_missing"⟩
    else if around.currentEpoch ≠ call.expectedEpoch then
      some ⟨.rejected, some call.taskId, some "privacy_unavailable"⟩
    else if !around.permitted then some ⟨.rejected, some call.taskId, some "privacy_revoked"⟩
    else none
  else none

/-- The envelope of the call. -/
def envelope (call : EnqueueCall) (registration : HandlerRegistration) (data : String)
    (around : Surroundings) : JobEnvelope where
  taskId := call.taskId
  kind := call.kind
  lane := call.lane
  userId := call.userId
  payload := .wrapped data around.context
  idempotencyKey := .given call.idempotencyKey
  privacyEpoch := if 0 < call.userId then call.expectedEpoch else none
  priority := call.priority
  delaySeconds := call.delay around.clock
  effectful := registration.effectful
  imageWork := registration.imageWork
  conflictKeys := call.conflictKeys
  publicSummary := call.summary
  executionTimeoutSeconds := registration.executionTimeoutSeconds

/-- The limits of the call, or those of its lane. -/
def limits (call : EnqueueCall) : QueuePolicy :=
  call.policy.getD ((Lane.ofName? call.lane).elim defaultQueuePolicy lanePolicies)

/-- The command of the call, or its refusal before a store is asked. -/
def command (call : EnqueueCall) (registrations : String → Option HandlerRegistration)
    (around : Surroundings) : Except QueueAdmission Command :=
  if !around.storeReady then .error ⟨.rejected, none, some "queue_starting"⟩
  else
    match call.invalid (registrations call.kind) with
    | some refusal => .error refusal
    | none =>
      match registrations call.kind, call.data with
      | some registration, some data =>
        match call.unprivate around with
        | some refusal => .error refusal
        | none =>
          .ok (.admitJob (call.envelope registration data around) call.limits)
      | _, _ => .error ⟨.rejected, none, some "unknown_kind_or_lane"⟩

end EnqueueCall

namespace Backend

/-- The admission `enqueue_job` returns and the state after it; an admitted job is read again. -/
def enqueueJob (backend : Backend) (registrations : String → Option HandlerRegistration)
    (state : backend.State) (call : EnqueueCall) (around : Surroundings) :
    Reply × backend.State :=
  match call.command registrations around with
  | .error refusal => (.admission refusal, state)
  | .ok command =>
    let reply := backend.reply state command
    let admitted := backend.step state (.call command)
    match reply with
    | .admission ⟨.accepted, some id, _⟩ => (reply, backend.step admitted (.call (.readJob id)))
    | .admission ⟨.existing, some id, _⟩ => (reply, backend.step admitted (.call (.readJob id)))
    | _ => (reply, admitted)

/-- The job an identity stands for once a command has swept. -/
def known : (backend : Backend) → backend.State → Identity → Option Alias
  | .memory, state, identity =>
    ((MemoryMachine.store state).sweep (MemoryMachine.clock state)).remembered
      (MemoryMachine.clock state) identity
  | .redis, state, identity =>
    (Script.sweep (ScriptMachine.db state) (ScriptMachine.clock state)).idem.get? identity

/-- The answer to a submission whose identity is known. -/
def repeatedReply (previous : Alias) (job : JobEnvelope) : QueueAdmission :=
  if previous.fingerprint = job.fingerprint then ⟨.existing, some previous.taskId, none⟩
  else ⟨.rejected, some previous.taskId, some "idempotency_conflict"⟩

end Backend

namespace MemoryQueueStore

theorem admitJob_known {s : MemoryQueueStore} {now : Time} {job : JobEnvelope} {lane : Lane}
    {previous : Alias} (named : Lane.ofName? job.lane = some lane)
    (found : s.remembered now job.identity = some previous) (policy : QueuePolicy) :
    s.admitJob now job policy = (Backend.repeatedReply previous job, s) := by
  unfold remembered at found
  unfold admitJob Backend.repeatedReply
  rw [named]
  simp only [found]
  split <;> rfl

end MemoryQueueStore

namespace Script

theorem admitJob_known {db : Db} {now : Time} {job : JobEnvelope} {previous : Alias}
    (found : db.idem.get? job.identity = some previous) (lane : Lane) (policy : QueuePolicy) :
    admitJob db now job lane policy = (Backend.repeatedReply previous job, db) := by
  have known : db.idem.get? (submission job lane).identity = some previous := found
  unfold admitJob admission Backend.repeatedReply
  rw [known]
  by_cases same : previous.fingerprint = job.fingerprint
  · rw [if_pos same]
    exact if_pos same
  · rw [if_neg same]
    exact if_neg same

theorem exec_admitJob {db : Db} {now : Time} {job : JobEnvelope} {lane : Lane}
    (named : Lane.ofName? job.lane = some lane) (policy : QueuePolicy) :
    exec now db (.admitJob job policy) =
      (.admission (admitJob (sweep db now) now job lane policy).1,
        (admitJob (sweep db now) now job lane policy).2) := by
  simp only [exec, answered, act, named, Option.isNone_some, Bool.false_eq_true, if_false]

end Script

namespace Backend

variable {backend : Backend} {state : backend.State} {job : JobEnvelope} {policy : QueuePolicy}
variable {lane : Lane} {previous : Alias}

/-- A submission whose identity is known adds nothing to its sweep. -/
theorem admit_known (named : Lane.ofName? job.lane = some lane)
    (found : backend.known state job.identity = some previous) :
    backend.reply state (.admitJob job policy) = .admission (repeatedReply previous job) ∧
      backend.step state (.call (.admitJob job policy)) = backend.swept state := by
  cases backend with
  | memory =>
    have same := MemoryQueueStore.admitJob_known named found policy
    exact ⟨congrArg (fun outcome : QueueAdmission × MemoryQueueStore =>
        Reply.admission outcome.1) same,
      congrArg (fun outcome : QueueAdmission × MemoryQueueStore =>
        MemoryMachine.mk (MemoryMachine.clock state) outcome.2) same⟩
  | redis =>
    have same := @Script.admitJob_known
      (Script.sweep (ScriptMachine.db state) (ScriptMachine.clock state))
      (ScriptMachine.clock state) job previous found lane policy
    have exec := @Script.exec_admitJob (ScriptMachine.db state) (ScriptMachine.clock state) job
      lane named policy
    rw [same] at exec
    have left : (Script.exec (ScriptMachine.clock state) (ScriptMachine.db state)
        (.admitJob job policy)).2 =
          Script.sweep (ScriptMachine.db state) (ScriptMachine.clock state) := by
      rw [exec]
    constructor
    · rw [reply_redis, exec]
    · have stepped : Backend.redis.step state (.call (.admitJob job policy)) =
          ScriptMachine.mk (ScriptMachine.clock state)
            (Script.sweep (ScriptMachine.db state) (ScriptMachine.clock state)) :=
        congrArg (ScriptMachine.mk (ScriptMachine.clock state)) left
      exact stepped.trans (ScriptMachine.step_sweep state).symm

theorem enqueueJob_reply (registrations : String → Option HandlerRegistration)
    (call : EnqueueCall) (around : Surroundings) :
    (backend.enqueueJob registrations state call around).1 =
      match call.command registrations around with
      | .error refusal => .admission refusal
      | .ok command => backend.reply state command := by
  unfold enqueueJob
  split
  · rfl
  · dsimp only
    split <;> rfl

/-- A call that reaches the store, with the envelope it sends. -/
theorem command_ok {registrations : String → Option HandlerRegistration} {call : EnqueueCall}
    {around : Surroundings} {command : Command}
    (built : call.command registrations around = .ok command) :
    around.storeReady = true ∧ call.invalid (registrations call.kind) = none ∧
      call.unprivate around = none ∧
      ∃ registration data, registrations call.kind = some registration ∧ call.data = some data ∧
        command = .admitJob (call.envelope registration data around) call.limits := by
  unfold EnqueueCall.command at built
  split at built
  · cases built
  · next ready =>
      split at built
      · cases built
      · next valid =>
          split at built
          · next registration data registered given =>
              split at built
              · cases built
              · next allowed =>
                  cases built
                  exact ⟨by simpa using ready, valid, allowed, registration, data, registered,
                    given, rfl⟩
          · cases built

theorem command_of_ok {registrations : String → Option HandlerRegistration} {call : EnqueueCall}
    {around : Surroundings} {registration : HandlerRegistration} {data : String}
    (valid : call.invalid (registrations call.kind) = none)
    (registered : registrations call.kind = some registration) (given : call.data = some data)
    (ready : around.storeReady = true) (allowed : call.unprivate around = none) :
    call.command registrations around =
      .ok (.admitJob (call.envelope registration data around) call.limits) := by
  rw [registered] at valid
  unfold EnqueueCall.command
  simp only [ready, Bool.not_true, Bool.false_eq_true, if_false, valid, registered, given, allowed]

/-- A refusal before the store is no admission. -/
theorem command_error {registrations : String → Option HandlerRegistration} {call : EnqueueCall}
    {around : Surroundings} {refusal : QueueAdmission}
    (refused : call.command registrations around = .error refusal) :
    refusal.state = .rejected := by
  unfold EnqueueCall.command at refused
  split at refused
  · cases refused
    rfl
  · split at refused
    · next invalid =>
        cases refused
        unfold EnqueueCall.invalid at invalid
        repeat' split at invalid
        all_goals cases invalid
        all_goals rfl
    · split at refused
      · split at refused
        · next unprivate =>
            cases refused
            unfold EnqueueCall.unprivate at unprivate
            repeat' split at unprivate
            all_goals cases unprivate
            all_goals rfl
        · cases refused
      · cases refused
        rfl

theorem delaySeconds_nonneg {call : EnqueueCall} {registration : Option HandlerRegistration}
    (valid : call.invalid registration = none) : 0 ≤ call.delaySeconds := by
  by_contra negative
  unfold EnqueueCall.invalid at valid
  rw [if_pos (not_le.mp negative)] at valid
  repeat' split at valid
  all_goals cases valid

/-- Two envelopes of one call have one fingerprint exactly when they have one delay. -/
theorem fingerprint_eq_iff (call : EnqueueCall) (registration : HandlerRegistration) (data : String)
    (first second : Surroundings) :
    (call.envelope registration data first).fingerprint =
        (call.envelope registration data second).fingerprint ↔
      call.delay second.clock = call.delay first.clock := by
  constructor
  · intro same
    have bodies := Fingerprint.job.inj same
    exact (congrArg FingerprintBody.delaySeconds bodies).symm
  · intro same
    unfold JobEnvelope.fingerprint EnqueueCall.envelope
    rw [same]
    rfl

/-- An accepted submission names a lane. -/
theorem named_of_accepted {id : TaskId} {reason : Option String}
    (accepted : backend.reply state (.admitJob job policy) =
      .admission ⟨.accepted, some id, reason⟩) :
    ∃ lane, Lane.ofName? job.lane = some lane := by
  cases named : Lane.ofName? job.lane with
  | some lane => exact ⟨lane, rfl⟩
  | none =>
    cases backend with
    | memory =>
      have refused : ∀ s : MemoryQueueStore, ∀ now : Time,
          (s.admitJob now job policy).1 = MemoryQueueStore.rejected "unknown_lane" := by
        intro s now
        unfold MemoryQueueStore.admitJob
        rw [named]
      have same : Backend.memory.reply state (.admitJob job policy) =
          .admission (MemoryQueueStore.rejected "unknown_lane") :=
        congrArg Reply.admission (refused _ _)
      rw [same] at accepted
      cases accepted
    | redis =>
      have sent : Script.answered (ScriptMachine.clock state) (ScriptMachine.db state)
          (.admitJob job policy) = some (.admission (Script.rejected "unknown_lane")) := by
        simp [Script.answered, named]
      rw [reply_redis, Script.exec, sent] at accepted
      cases accepted

/-- The privacy checks of a call whose epoch is given where it has to be. -/
theorem unprivate_eq_none {call : EnqueueCall} {first : Surroundings}
    (before : call.unprivate first = none) (around : Surroundings) :
    call.unprivate around = none ↔
      (0 < call.userId → around.currentEpoch = call.expectedEpoch ∧ around.permitted = true) := by
  unfold EnqueueCall.unprivate at before ⊢
  by_cases owned : 0 < call.userId
  · rw [if_pos owned] at before ⊢
    by_cases missing : call.expectedEpoch = none
    · rw [if_pos missing] at before
      cases before
    · rw [if_neg missing]
      by_cases current : around.currentEpoch = call.expectedEpoch
      · cases permitted : around.permitted <;> simp [owned, current]
      · simp [owned, current]
  · simp [owned]

/-- The identity of the call still stands for the job that the first call admitted. -/
def Retains (backend : Backend) (state : backend.State)
    (registrations : String → Option HandlerRegistration) (call : EnqueueCall)
    (first : Surroundings) : Prop :=
  ∃ job policy previous, call.command registrations first = .ok (.admitJob job policy) ∧
    backend.known state job.identity = some previous ∧ previous.taskId = job.taskId ∧
    previous.fingerprint = job.fingerprint

/-- The call returns the first job and does nothing but sweep. -/
def Resubmits (backend : Backend) (state : backend.State)
    (registrations : String → Option HandlerRegistration) (call : EnqueueCall)
    (around : Surroundings) : Prop :=
  (backend.enqueueJob registrations state call around).1 =
      .admission ⟨.existing, some call.taskId, none⟩ ∧
    (backend.enqueueJob registrations state call around).2 =
      backend.step (backend.swept state) (.call (.readJob call.taskId))

/--
An accepted call that is made again while its identity is retained returns the
first job exactly when the store and the privacy of the user still let it pass
and both clocks derive one delay.
-/
theorem resubmitted_iff (backend : Backend)
    (registrations : String → Option HandlerRegistration) (state : backend.State)
    (call : EnqueueCall) (first second : Surroundings) (further : List Label)
    {id : TaskId} {reason : Option String}
    (accepted : (backend.enqueueJob registrations state call first).1 =
      .admission ⟨.accepted, some id, reason⟩)
    (retained : backend.Retains
      (Run.run backend.step (backend.enqueueJob registrations state call first).2 further)
      registrations call first) :
    backend.Resubmits
        (Run.run backend.step (backend.enqueueJob registrations state call first).2 further)
        registrations call second ↔
      second.storeReady = true ∧
        (0 < call.userId → second.currentEpoch = call.expectedEpoch ∧ second.permitted = true) ∧
        call.OneDelay first.clock second.clock := by
  generalize Run.run backend.step (backend.enqueueJob registrations state call first).2 further =
    later at retained ⊢
  obtain ⟨job, policy, previous, built, found, owner, same⟩ := retained
  obtain ⟨_, valid, allowed, registration, data, registered, given, sent⟩ := command_ok built
  obtain ⟨rfl, rfl⟩ := Command.admitJob.inj sent
  rw [enqueueJob_reply, built] at accepted
  obtain ⟨lane, named⟩ := named_of_accepted accepted
  have answer := @admit_known backend later (call.envelope registration data second) call.limits
    lane previous named found
  have reply_eq := @enqueueJob_reply backend later registrations call second
  rw [← unprivate_eq_none allowed second, ← call.delay_eq_iff (delaySeconds_nonneg valid)]
  constructor
  · rintro ⟨replied, _⟩
    rw [reply_eq] at replied
    cases again : call.command registrations second with
    | error refusal =>
      rw [again] at replied
      have refused := command_error again
      rw [Reply.admission.inj replied] at refused
      cases refused
    | ok command =>
      obtain ⟨ready, _, passes, registration', data', registered', given', sent'⟩ :=
        command_ok again
      rw [registered] at registered'
      rw [given] at given'
      cases registered'
      cases given'
      subst sent'
      rw [again] at replied
      have admission := Reply.admission.inj (answer.1.symm.trans replied)
      refine ⟨ready, passes, ?_⟩
      rw [← fingerprint_eq_iff call registration data first second, ← same]
      by_contra differs
      rw [repeatedReply, if_neg differs] at admission
      cases admission
  · rintro ⟨ready, passes, delay⟩
    have again := command_of_ok valid registered given ready passes
    have fingerprint := (fingerprint_eq_iff call registration data first second).mpr delay
    have existing : repeatedReply previous (call.envelope registration data second) =
        ⟨.existing, some call.taskId, none⟩ := by
      rw [repeatedReply, if_pos (same.trans fingerprint), owner]
      rfl
    rw [existing] at answer
    constructor
    · rw [reply_eq, again]
      exact answer.1
    · unfold enqueueJob
      rw [again]
      dsimp only
      rw [answer.1, answer.2]

/-- A mail of a user without privacy settings, not to be sent before a time. -/
def mailCall (notBefore : Option Time) : EnqueueCall where
  userId := 0
  kind := "mail"
  data := some "hello"
  idempotencyKey := "k"
  lane := "deferred"
  notBefore := notBefore

def mailHandlers (kind : String) : Option HandlerRegistration :=
  if kind = "mail" then some ⟨"deferred", false, false, none⟩ else none

def mailAround (clock : Time) (context : String) : Surroundings :=
  ⟨true, clock, context, none, true⟩

/-- The first envelope of the mail. -/
def mailJob (notBefore : Option Time) : JobEnvelope :=
  (mailCall notBefore).envelope ⟨"deferred", false, false, none⟩ "hello" (mailAround 0 "a")

/-- The store after the mail was submitted at once. -/
def mailed (backend : Backend) (notBefore : Option Time) : backend.State :=
  (backend.enqueueJob mailHandlers (backend.initial 0) (mailCall notBefore)
    (mailAround 0 "a")).2

/-- A mail that is due at once is returned again, in a different context and an hour later. -/
theorem resubmitted_mail :
    Backend.memory.Resubmits (Run.run Backend.memory.step (mailed .memory none) [.advance 3600000])
      mailHandlers (mailCall none) (mailAround 3600000 "b") := by
  have admitted : (Backend.memory.enqueueJob mailHandlers (Backend.memory.initial 0)
      (mailCall none) (mailAround 0 "a")).1 =
        .admission ⟨.accepted, some (.submission 0 "k"), none⟩ := by
    rw [enqueueJob_reply]
    exact congrArg Reply.admission (by decide +kernel)
  refine (resubmitted_iff .memory mailHandlers (Backend.memory.initial 0) (mailCall none)
    (mailAround 0 "a") (mailAround 3600000 "b") [.advance 3600000] admitted ?_).mpr ⟨rfl, ?_, ?_⟩
  · refine ⟨mailJob none, defaultQueuePolicy,
      ⟨.submission 0 "k", (mailJob none).fingerprint, 90000000⟩, ?_, ?_, rfl, rfl⟩
    · rfl
    · decide +kernel
  · intro owned
    cases owned
  · intro time given
    cases given

/-- Every accepted call is answered with its job when it is made again. -/
def Idempotent (backend : Backend) : Prop :=
  ∀ (registrations : String → Option HandlerRegistration) (state : backend.State)
    (call : EnqueueCall) (first second : Surroundings) (further : List Label),
    (∃ id reason, (backend.enqueueJob registrations state call first).1 =
      .admission ⟨.accepted, some id, reason⟩) →
    backend.Retains
      (Run.run backend.step (backend.enqueueJob registrations state call first).2 further)
      registrations call first →
    second = { first with clock := second.clock } →
    first.clock ≤ second.clock →
    backend.Resubmits
      (Run.run backend.step (backend.enqueueJob registrations state call first).2 further)
      registrations call second

/-- The mail to be sent in ten seconds, as it is built a second later. -/
def laterMail : JobEnvelope :=
  (mailCall (some 10000)).envelope ⟨"deferred", false, false, none⟩ "hello" (mailAround 1000 "a")

theorem not_idempotent
    (admitted : backend.reply (backend.initial 0)
      (.admitJob (mailJob (some 10000)) defaultQueuePolicy) =
        .admission ⟨.accepted, some (.submission 0 "k"), none⟩)
    (found : backend.known (Run.run backend.step (mailed backend (some 10000)) [.advance 1000])
      laterMail.identity = some ⟨.submission 0 "k", (mailJob (some 10000)).fingerprint, 86400000⟩) :
    ¬ Idempotent backend := by
  intro idempotent
  have accepted := (@enqueueJob_reply backend (backend.initial 0) mailHandlers
    (mailCall (some 10000)) (mailAround 0 "a")).trans admitted
  have resubmits := idempotent mailHandlers (backend.initial 0) (mailCall (some 10000))
    (mailAround 0 "a") (mailAround 1000 "a") [.advance 1000] ⟨_, _, accepted⟩
    ⟨mailJob (some 10000), defaultQueuePolicy, _, rfl, found, rfl, rfl⟩ rfl (by decide)
  have refused := @admit_known backend _ laterMail defaultQueuePolicy .deferred _
    (by decide +kernel) found
  have replied := resubmits.1
  rw [enqueueJob_reply] at replied
  have conflict := Reply.admission.inj (refused.1.symm.trans replied)
  revert conflict
  decide +kernel

/-- A mail to be sent in ten seconds is refused when it is submitted again a second later. -/
theorem resubmission_conflicts : ¬ Idempotent .memory ∧ ¬ Idempotent .redis := by
  constructor
  · apply not_idempotent
    · exact congrArg Reply.admission (by decide +kernel)
    · decide +kernel
  · apply not_idempotent
    · have exec := @Script.exec_admitJob {} 0 (mailJob (some 10000)) .deferred
        (by decide +kernel) defaultQueuePolicy
      rw [reply_redis]
      refine (congrArg Prod.fst exec).trans (congrArg Reply.admission ?_)
      decide +kernel
    · decide +kernel

end Backend

end BobbyBotique.Queue
