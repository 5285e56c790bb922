import BobbyBotique.Foundation.Run

/-!
# Background tasks

`TaskManager` between the awaits of the event loop.  A task goes on in steps of its own:
its wrapper, and after the wrapper has ended the callback that takes it out of the books.
Every order of these steps with submissions, cancellations and drains is a run.
-/

namespace BobbyBotique.Background

/-! ## Jobs -/

inductive Outcome where
  | succeeded
  | failed
  | cancelled
deriving DecidableEq

/-- A coroutine that was handed in. -/
inductive Coro where
  | unstarted
  | suspended
  | ended
  | closed
deriving DecidableEq

/-- `coro.close()`. -/
def Coro.close : Coro → Coro
  | .ended => .ended
  | _ => .closed

def Coro.settled : Coro → Bool
  | .ended | .closed => true
  | _ => false

/-- Where the wrapper of a job stands. -/
inductive Phase where
  | created
  | attempt
  | delay
  | errorCallback
  | done (cancelled : Bool)
deriving DecidableEq

def Phase.isDone : Phase → Bool
  | .done _ => true
  | _ => false

/-- The variables of `_schedule` for one accepted job, and the events that it emitted. -/
structure Job where
  coro : Option Nat
  retry : Int
  phase : Phase
  cancelling : Bool
  wrapperStarted : Bool
  attemptsStarted : Nat
  attempts : Nat
  terminalEmitted : Bool
  finished : List Outcome
  /-- The callback of the done task has run. -/
  discarded : Bool
deriving DecidableEq

namespace Job

def accepted (coro : Option Nat) (retry : Int) : Job :=
  ⟨coro, retry, .created, false, false, 0, 0, false, [], false⟩

/-- `_emit_cancelled`. -/
def emitCancelled (job : Job) : Job :=
  if job.terminalEmitted then job else { job with finished := job.finished ++ [.cancelled] }

/-- The head of the loop of `_wrapper`. -/
def nextAttempt (job : Job) : Job :=
  if (job.attempts : Int) ≤ job.retry then
    { job with phase := .attempt, attemptsStarted := job.attemptsStarted + 1 }
  else { job with phase := .done false }

/-- The first step of a task: the wrapper starts, unless the task was cancelled before. -/
def start (job : Job) : Job :=
  if job.cancelling then { job with phase := .done true }
  else nextAttempt { job with wrapperStarted := true }

/-- How an awaited target ends; a failure says whether the error callback is awaited. -/
inductive Ending where
  | returns
  | raises (awaits : Bool)
  | cancelled
deriving DecidableEq

/-- The target of an attempt has ended. -/
def targetEnded (job : Job) : Ending → Job
  | .returns => { job with
      finished := job.finished ++ [.succeeded], terminalEmitted := true, phase := .done false }
  | .raises awaits =>
    let attempts := job.attempts + 1
    if (attempts : Int) ≤ job.retry then { job with attempts := attempts, phase := .delay }
    else { job with
      attempts := attempts
      finished := job.finished ++ [.failed]
      terminalEmitted := true
      phase := if awaits then .errorCallback else .done false }
  | .cancelled => { job.emitCancelled with phase := .done true }

/-- A `CancelledError` outside the target. -/
def interrupted (job : Job) : Job := { job.emitCancelled with phase := .done true }

/-- What `_discard_finished` emits. -/
def discard (job : Job) : Job :=
  if job.phase = .done true ∧ job.wrapperStarted = false then
    { job.emitCancelled with discarded := true }
  else { job with discarded := true }

/-- The wrapper has started, and the callback that counts it off has not run. -/
def counted (job : Job) : Bool := job.wrapperStarted && !job.discarded

end Job

/-! ## The manager -/

def maxTasks : Nat := 2500

/-- Where a call of `drain` waits, or what it returned. -/
inductive DrainPhase where
  | graceful (active : List Nat)
  | cancelling (active : List Nat)
  | returned (clean : Bool)
deriving DecidableEq

/-- A call of `drain`, and whether it has come to its cancellation phase. -/
structure Drain where
  phase : DrainPhase
  cancels : Bool
deriving DecidableEq

/-- The manager, with every accepted job and every coroutine that was handed in. -/
structure TaskManager where
  jobs : List Job
  coros : List Coro
  tasks : List Nat
  accepting : Bool
  acceptedCount : Nat
  rejectedCount : Nat
  runningCount : Int
  drains : List Drain

namespace TaskManager

def initial : TaskManager := ⟨[], [], [], true, 0, 0, 0, []⟩

/-- `len(self._tasks) >= self.MAX_TASKS` or no admission. -/
def rejects (manager : TaskManager) : Bool :=
  !manager.accepting || decide (maxTasks ≤ manager.tasks.length)

/-- A submission that is rejected: a bare coroutine is closed. -/
def reject (manager : TaskManager) (bare : Bool) : TaskManager :=
  { manager with
    rejectedCount := manager.rejectedCount + 1
    coros := if bare then manager.coros ++ [.closed] else manager.coros }

/-- `_schedule`, for a bare coroutine or a factory. -/
def schedule (manager : TaskManager) (bare : Bool) (retry : Int) : TaskManager :=
  if manager.rejects then manager.reject bare
  else
    { manager with
      acceptedCount := manager.acceptedCount + 1
      jobs := manager.jobs ++
        [Job.accepted (if bare then some manager.coros.length else none) retry]
      coros := if bare then manager.coros ++ [.unstarted] else manager.coros
      tasks := manager.tasks ++ [manager.jobs.length] }

def submit (manager : TaskManager) : TaskManager := manager.schedule true 0

def trySubmit (manager : TaskManager) : TaskManager :=
  if manager.rejects then manager.reject true else manager.submit

def submitRetryable (manager : TaskManager) (retry : Int) : TaskManager :=
  manager.schedule false retry

/-- A task has taken a step, which leaves its coroutine, if it has one, as given. -/
def put (manager : TaskManager) (place : Nat) (job : Job) (coro : Coro → Coro) : TaskManager :=
  { manager with
    jobs := manager.jobs.set place job
    coros := match job.coro with
      | some own => manager.coros.modify own coro
      | none => manager.coros }

/-- The coroutine of a job whose wrapper has taken a step that ended no target. -/
def awaiting (job : Job) (coro : Coro) : Coro :=
  if job.phase = .attempt then .suspended else coro

/-- The task of a job is done. -/
def isDone (manager : TaskManager) (place : Nat) : Bool :=
  match manager.jobs[place]? with
  | some job => job.phase.isDone
  | none => false

def unfinished (manager : TaskManager) (tasks : List Nat) : List Nat :=
  tasks.filter fun place => !manager.isDone place

/-! ### Steps of the tasks -/

/-- The first step of the task. -/
def start (manager : TaskManager) (place : Nat) (job : Job) : TaskManager :=
  let started := job.start
  { manager.put place started (awaiting started) with
    runningCount := manager.runningCount + if job.cancelling then 0 else 1 }

def cancel (place : Nat) (manager : TaskManager) : TaskManager :=
  match manager.jobs[place]? with
  | some job =>
    if job.phase.isDone then manager
    else manager.put place { job with cancelling := true } id
  | none => manager

/-- `_discard_finished`. -/
def discard (manager : TaskManager) (place : Nat) (job : Job) : TaskManager :=
  { manager.put place job.discard Coro.close with
    tasks := manager.tasks.erase place
    runningCount := manager.runningCount - if job.wrapperStarted then 1 else 0 }

/-! ### Drains -/

def setDrain (manager : TaskManager) (call : Nat) (drain : Drain) : TaskManager :=
  { manager with drains := manager.drains.set call drain }

/-- The head of the first loop of `drain`. -/
def gracefulRound (manager : TaskManager) (call : Nat) : TaskManager :=
  let active := manager.unfinished manager.tasks
  let phase := if active = [] then .returned true else .graceful active
  { manager with tasks := active }.setDrain call ⟨phase, false⟩

/-- The tasks that are not being cancelled are cancelled. -/
def cancelAll (manager : TaskManager) (active : List Nat) : TaskManager :=
  active.foldl (fun manager place => manager.cancel place) manager

/-- The head of the second loop of `drain`. -/
def cancelRound (manager : TaskManager) (call : Nat) : TaskManager :=
  let active := manager.unfinished manager.tasks
  let phase := if active = [] then .returned true else .cancelling active
  ({ manager with tasks := active }.cancelAll active).setDrain call ⟨phase, true⟩

/-- The tasks of a wait that are done leave the set. -/
def drop (manager : TaskManager) (active : List Nat) : TaskManager :=
  { manager with
    tasks := manager.tasks.filter fun place => !(active.contains place && manager.isDone place) }

/-- The wait of a drain is over; `late` says whether its deadline has come. -/
def wakeDrain (manager : TaskManager) (call : Nat) (late : Bool) : TaskManager :=
  match manager.drains[call]? with
  | some ⟨.graceful active, _⟩ =>
    let pending := manager.unfinished active
    let manager := manager.drop active
    if pending ≠ [] ∨ late then { manager with accepting := false }.cancelRound call
    else manager.gracefulRound call
  | some ⟨.cancelling active, cancels⟩ =>
    let stubborn := manager.unfinished active
    let manager := manager.drop active
    if stubborn ≠ [] ∨ (manager.tasks ≠ [] ∧ late) then
      manager.setDrain call ⟨.returned false, cancels⟩
    else manager.cancelRound call
  | _ => manager

/-! ### Runs -/

inductive Label where
  | submit
  | trySubmit
  | submitRetryable (retry : Int)
  | start (place : Nat)
  | targetEnded (place : Nat) (ending : Job.Ending)
  /-- The delay before a retry is over. -/
  | retry (place : Nat)
  /-- A `CancelledError` in a delay or in an error callback. -/
  | interrupt (place : Nat)
  | errorCallbackEnded (place : Nat)
  | cancel (place : Nat)
  | discard (place : Nat)
  | drain
  | wakeDrain (call : Nat) (late : Bool)

/-- A step of the task of a job that stands in the phase. -/
def stepJob (manager : TaskManager) (place : Nat) (allowed : Job → Bool)
    (next : Job → TaskManager) : TaskManager :=
  match manager.jobs[place]? with
  | some job => if allowed job then next job else manager
  | none => manager

/-- A label that does not fit the state does nothing. -/
def step (manager : TaskManager) : Label → TaskManager
  | .submit => manager.submit
  | .trySubmit => manager.trySubmit
  | .submitRetryable retry => manager.submitRetryable retry
  | .start place =>
    manager.stepJob place (fun job => job.phase = .created) (manager.start place)
  | .targetEnded place ending =>
    manager.stepJob place (fun job => job.phase = .attempt) fun job =>
      manager.put place (job.targetEnded ending) fun _ => .ended
  | .retry place =>
    manager.stepJob place (fun job => job.phase = .delay) fun job =>
      manager.put place job.nextAttempt (awaiting job.nextAttempt)
  | .interrupt place =>
    manager.stepJob place (fun job => job.phase = .delay || job.phase = .errorCallback)
      fun job => manager.put place job.interrupted id
  | .errorCallbackEnded place =>
    manager.stepJob place (fun job => job.phase = .errorCallback) fun job =>
      manager.put place { job with phase := .done false } id
  | .cancel place => manager.cancel place
  | .discard place =>
    manager.stepJob place (fun job => job.phase.isDone && !job.discarded)
      (manager.discard place)
  | .drain =>
    let called : TaskManager :=
      { manager with drains := manager.drains ++ [⟨.graceful [], false⟩] }
    called.gracefulRound manager.drains.length
  | .wakeDrain call late => manager.wakeDrain call late

end TaskManager

end BobbyBotique.Background
