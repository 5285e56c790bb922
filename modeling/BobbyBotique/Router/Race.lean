import BobbyBotique.Foundation.Run

/-!
# The race of the provider keys

`ProviderRouter._stream_serial`: its own steps, and the steps of the key tasks that
it started.  What key resolution, reservation, the clock and the providers do is in
the labels.
-/

namespace BobbyBotique.Router

/-! ## Events -/

inductive ErrorCode where
  | timeout | overloaded | network | rateLimit | quotaExceeded | invalidKey | keysExhausted
  | decryptionFailed | noKeys | invalidRequest | invalidResponse | emptyResponse | processing
  | document | generic | userRateLimit
  deriving DecidableEq

inductive FailurePhase where
  | beforeText | afterText
  deriving DecidableEq

inductive RetryDisposition where
  | tryNextKey | tryNextModel | retryLater | doNotRetry
  deriving DecidableEq

inductive KeyDisposition where
  | unchanged | transientFailure | rateLimited | exhausted | invalid
  deriving DecidableEq

structure StreamFailed where
  code : ErrorCode
  phase : FailurePhase
  retry : RetryDisposition
  key : KeyDisposition
  deriving DecidableEq

inductive Event (T : Type) where
  | text (delta : T)
  | completed
  | failed (failure : StreamFailed)
  | deferred (task : Nat)
  deriving DecidableEq

variable {T : Type}

def Event.delta? : Event T → Option T
  | .text delta => some delta
  | _ => none

/-- What a provider may end with once it has spoken. -/
def Event.late : Event T → Bool
  | .completed => true
  | .failed failure => failure.phase = .afterText
  | _ => false

/-- An entry of a queue behind its lane: an event, a raised error, a wake-up, the end. -/
inductive Item (T : Type) where
  | event (one : Event T)
  | error
  | wake
  | done

def Item.delta? : Item T → Option T
  | .event one => one.delta?
  | _ => none

/-! ## The state -/

inductive TaskStage where
  | created | preparing | calling | ended
  deriving DecidableEq

/-- A task of the race: a key, or a reserve that is still to find one. -/
structure KeyTask (T : Type) where
  stage : TaskStage
  cancelled : Bool
  emitted : List T
  terminal : Option (Event T)

/-- `_ReservePhase`. -/
inductive ReservePhase where
  | disabled | waiting | preparing | exhausted
  deriving DecidableEq

/-- Where the generator is. -/
inductive Stage where
  | routing
  | racing
  | won (index : Nat)
  | returned
  | raised
  | interrupted
  deriving DecidableEq

/-- What the request and the arguments settle for one generator. -/
structure Route where
  checksRate : Bool
  attemptLimit : Nat
  parallelLimit : Nat
  keyHedge : Bool
  rolling : Bool

structure Serial (T : Type) where
  admitted : Bool
  remaining : Nat
  tasks : List (KeyTask T)
  keys : List Nat
  terminals : List (Nat × Event T)
  finished : List Nat
  initialSlots : Nat
  dispatchLimit : Nat
  reserve : ReservePhase
  queue : List (Nat × Item T)
  last : Option StreamFailed
  stage : Stage
  output : List (Event T)
  /-- The calls of `provider.stream`. -/
  dispatched : Nat

def Serial.initial (route : Route) : Serial T where
  admitted := !route.checksRate
  remaining := 0
  tasks := []
  keys := []
  terminals := []
  finished := []
  initialSlots := 0
  dispatchLimit := 0
  reserve := .disabled
  queue := []
  last := none
  stage := .routing
  output := []
  dispatched := 0

/-- Why no key was raced. -/
inductive NoRoute where
  | deadline | decryption | keys

/-- What the deferred queue answers when all routes are exhausted. -/
inductive Deferral where
  | refused
  | queued (task : Nat)
  | unconfirmed

inductive SerialLabel (T : Type) where
  | admission (allowed : Bool)
  | nextModel
  | noRoute (why : NoRoute)
  | race (keys : Nat) (primary : Bool)
  | exhaust (transient : Bool) (deferral : Deferral)
  | crash
  | take
  | softTimer
  | deadline
  | stall
  | interrupt
  /-- A created task takes its first step. -/
  | run (index : Nat)
  | prepared (index : Nat) (found : Bool)
  | emit (index : Nat) (event : Event T)
  | close (index : Nat)
  | fail (index : Nat)
  /-- A cancellation is delivered; a task that never ran says nothing. -/
  | abandon (index : Nat) (ran : Bool)

def firstTextTimeout : StreamFailed := ⟨.timeout, .beforeText, .tryNextKey, .unchanged⟩

def rateRefused : StreamFailed := ⟨.rateLimit, .beforeText, .retryLater, .unchanged⟩

def endedWithoutText : StreamFailed :=
  ⟨.emptyResponse, .beforeText, .tryNextKey, .transientFailure⟩

namespace Serial

/-- `live_key_count`. -/
def live (serial : Serial T) : Nat :=
  (serial.keys.filter fun index =>
    !(serial.terminals.any fun entry => entry.1 == index) && !serial.finished.contains index).length

def put (serial : Serial T) (index : Nat) (item : Item T) : Serial T :=
  { serial with queue := serial.queue ++ [(index, item)] }

def change (serial : Serial T) (index : Nat) (task : KeyTask T) : Serial T :=
  { serial with tasks := serial.tasks.set index task }

/-- `start_reserve`. -/
def startReserve (route : Route) (serial : Serial T) : Serial T :=
  let phase :=
    if route.rolling && decide (serial.reserve = .disabled) &&
        decide (serial.keys.length < serial.dispatchLimit) &&
        decide (serial.live < route.parallelLimit) then .waiting
    else serial.reserve
  if phase = .waiting then
    { serial with
      reserve := .preparing
      tasks := serial.tasks ++ [⟨.preparing, false, [], none⟩] }
  else { serial with reserve := phase }

/-- The reserve phase once a reserve is done, or stands. -/
def rearmed (route : Route) (serial : Serial T) (otherwise : ReservePhase) : ReservePhase :=
  if route.rolling && decide (0 < serial.remaining) && decide (serial.live < route.parallelLimit)
  then .waiting else otherwise

def cancelTasks (kept : Option Nat) (tasks : List (KeyTask T)) : List (KeyTask T) :=
  tasks.mapIdx fun index task =>
    if some index = kept then task else { task with cancelled := true }

/-- The `finally` of the race: every task is cancelled. -/
def leave (serial : Serial T) (stage : Stage) : Serial T :=
  { serial with tasks := cancelTasks none serial.tasks, stage := stage }

def say (serial : Serial T) (event : Event T) : Serial T :=
  { serial with output := serial.output ++ [event] }

/-- The race begins with a task for each key. -/
def start (route : Route) (serial : Serial T) (keys : Nat) (primary : Bool) : Serial T :=
  let remaining := serial.remaining - keys
  { serial with
    remaining := remaining
    tasks := List.replicate keys ⟨.created, false, [], none⟩
    keys := List.range keys
    terminals := []
    finished := []
    initialSlots := keys
    dispatchLimit := keys + remaining
    reserve :=
      if 0 < remaining ∧ ((primary && route.keyHedge) = true ∨
          (route.rolling = true ∧ keys < route.parallelLimit)) then .waiting
      else .disabled
    queue := []
    stage := .racing }

/-- What is kept of a key that gave no text. -/
def verdict (serial : Serial T) (index : Nat) : StreamFailed :=
  match serial.terminals.find? fun entry => entry.1 == index with
  | some (_, .failed failure) => failure
  | _ => endedWithoutText

def deferral? : List (Nat × Event T) → Option Nat
  | [] => none
  | (_, .deferred task) :: _ => some task
  | _ :: rest => deferral? rest

/-- The race ends without a winner. -/
def settle (serial : Serial T) (timedOut : Option StreamFailed) : Serial T :=
  match deferral? serial.terminals with
  | some task => (serial.say (.deferred task)).leave .returned
  | none =>
    let verdicts := serial.keys.map serial.verdict
    let last := timedOut.or (verdicts.getLast?.or serial.last)
    { serial with last := last }.leave .routing

/-- An entry of the queue while nothing was said. -/
def consume (route : Route) (serial : Serial T) (index : Nat) : Item T → Serial T
  | .done => { serial with finished := serial.finished ++ [index] }
  | .error => serial.leave .raised
  | .wake =>
    if route.rolling && decide (serial.live < serial.initialSlots) then
      serial.startReserve route
    else serial
  | .event (.text delta) =>
    { serial.say (.text delta) with
      tasks := cancelTasks (some index) serial.tasks
      stage := .won index }
  | .event event =>
    let noted := { serial with terminals := serial.terminals ++ [(index, event)] }
    let next := if route.rolling then noted.startReserve route else noted
    match event with
    | .failed failure =>
      match failure.retry with
      | .tryNextKey => next
      | .tryNextModel => { serial with last := some failure }.leave .routing
      | _ => (serial.say (.failed failure)).leave .returned
    | _ => next

/-- An entry of the winner's queue behind the first text. -/
def forward (serial : Serial T) : Item T → Serial T
  | .event (.text delta) => serial.say (.text delta)
  | .event event => if event.late then (serial.say event).leave .returned else serial.leave .raised
  | _ => serial.leave .raised

def take (route : Route) (serial : Serial T) : Serial T :=
  match serial.stage with
  | .racing =>
    if serial.finished.length < serial.tasks.length then
      match serial.queue with
      | [] => serial
      | (index, item) :: rest => { serial with queue := rest }.consume route index item
    else serial.settle none
  | .won winner =>
    match serial.queue with
    | [] => serial
    | (index, item) :: rest =>
      if index = winner then { serial with queue := rest }.forward item
      else { serial with queue := rest }
  | _ => serial

/-- What is said once all routes are exhausted. -/
def exhausted (serial : Serial T) (transient : Bool) : StreamFailed :=
  match serial.last with
  | none => ⟨.keysExhausted, .beforeText, .retryLater, .exhausted⟩
  | some last =>
    if last.retry = .tryNextModel then last
    else ⟨last.code, .beforeText, if transient then .retryLater else .doNotRetry, last.key⟩

/-- The generator stands before its next attempt: the tasks of the last one are drained. -/
def idle (serial : Serial T) : Bool :=
  decide (serial.stage = .routing) && serial.tasks.all fun task => task.stage = .ended

/-- A call ends with what it puts last. -/
def finish (serial : Serial T) (index : Nat) (task : KeyTask T) (item : Item T) : Serial T :=
  ((serial.change index { task with stage := .ended }).put index item).put index .done

def taskStep (route : Route) (serial : Serial T) (index : Nat) (task : KeyTask T) :
    SerialLabel T → Serial T
  | .run _ =>
    if task.stage = .created then
      if task.cancelled then serial.change index { task with stage := .ended }
      else
        { serial.change index { task with stage := .calling } with
          dispatched := serial.dispatched + 1 }
    else serial
  | .prepared _ found =>
    if task.stage = .preparing then
      if found && !task.cancelled then
        let joined := { serial with
          keys := serial.keys ++ [index]
          remaining := serial.remaining - 1
          dispatched := serial.dispatched + 1 }
        ({ joined with reserve := joined.rearmed route .disabled }.change index
          { task with stage := .calling }).put index .wake
      else
        ({ serial with reserve := serial.rearmed route .exhausted }.change index
          { task with stage := .ended }).put index .done
    else serial
  | .emit _ event =>
    if task.stage = .calling then
      match task.terminal, event with
      | some _, _ => serial.finish index task .error
      | none, .text delta =>
        (serial.change index { task with emitted := task.emitted ++ [delta] }).put index
          (.event (.text delta))
      | none, _ => serial.change index { task with terminal := some event }
    else serial
  | .close _ =>
    if task.stage = .calling then
      match task.terminal with
      | some event => serial.finish index task (.event event)
      | none => serial.finish index task .error
    else serial
  | .fail _ => if task.stage = .calling then serial.finish index task .error else serial
  | .abandon _ ran =>
    if task.cancelled ∧ task.stage ≠ .ended then
      let past := serial.change index { task with stage := .ended }
      if ran then past.put index .done else past
    else serial
  | _ => serial

def step (route : Route) (serial : Serial T) : SerialLabel T → Serial T
  | .admission allowed =>
    if serial.stage = .routing ∧ serial.admitted = false then
      if allowed then { serial with admitted := true }
      else (serial.say (.failed rateRefused)).leave .returned
    else serial
  | .nextModel =>
    if serial.idle && serial.admitted then { serial with remaining := route.attemptLimit }
    else serial
  | .noRoute why =>
    if serial.idle && serial.admitted then
      match why with
      | .deadline => { serial with last := some firstTextTimeout }
      | .decryption =>
        { serial with last := some ⟨.decryptionFailed, .beforeText, .doNotRetry, .unchanged⟩ }
      | .keys =>
        { serial with last := some (serial.last.getD
            ⟨.keysExhausted, .beforeText, .retryLater, .exhausted⟩) }
    else serial
  | .race keys primary =>
    if (serial.idle && serial.admitted) = true ∧ 0 < keys ∧ keys ≤ min 2 serial.remaining then
      serial.start route keys primary
    else serial
  | .exhaust transient deferral =>
    if serial.idle && serial.admitted then
      match deferral with
      | .queued task => (serial.say (.deferred task)).leave .returned
      | .unconfirmed => serial.leave .raised
      | .refused => (serial.say (.failed (serial.exhausted transient))).leave .returned
    else serial
  | .crash => if serial.stage = .routing then serial.leave .raised else serial
  | .take => serial.take route
  | .softTimer =>
    if serial.stage = .racing ∧ serial.finished.length < serial.tasks.length ∧
        serial.reserve = .waiting then serial.startReserve route
    else serial
  | .deadline =>
    if serial.stage = .racing ∧ serial.finished.length < serial.tasks.length then
      let late := serial.keys.filter fun index =>
        !(serial.terminals.any fun entry => entry.1 == index)
      { serial with
        terminals := serial.terminals ++ late.map fun index =>
          (index, Event.failed firstTextTimeout) }.settle (some firstTextTimeout)
    else serial
  | .stall =>
    match serial.stage with
    | .won _ =>
      (serial.say (.failed ⟨.timeout, .afterText, .doNotRetry, .unchanged⟩)).leave .returned
    | _ => serial
  | .interrupt =>
    if serial.stage = .returned ∨ serial.stage = .raised then serial
    else serial.leave .interrupted
  | .run index =>
    match serial.tasks[index]? with
    | some task => serial.taskStep route index task (.run index)
    | none => serial
  | .prepared index found =>
    match serial.tasks[index]? with
    | some task => serial.taskStep route index task (.prepared index found)
    | none => serial
  | .emit index event =>
    match serial.tasks[index]? with
    | some task => serial.taskStep route index task (.emit index event)
    | none => serial
  | .close index =>
    match serial.tasks[index]? with
    | some task => serial.taskStep route index task (.close index)
    | none => serial
  | .fail index =>
    match serial.tasks[index]? with
    | some task => serial.taskStep route index task (.fail index)
    | none => serial
  | .abandon index ran =>
    match serial.tasks[index]? with
    | some task => serial.taskStep route index task (.abandon index ran)
    | none => serial

end Serial

end BobbyBotique.Router
