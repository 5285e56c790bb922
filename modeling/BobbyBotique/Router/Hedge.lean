import BobbyBotique.Router.Answer

/-!
# The race of the models

`ProviderRouter._stream_hedged`: a lane for each model runs `_stream_serial` and puts
what it yields into one queue.  The first lane with a text wins, and the tasks of
the others are asked to stop.
-/

namespace BobbyBotique.Router

variable {T : Type}

/-- What the request settles for its generators. -/
structure Request where
  models : Nat
  keyAttemptRounds : Nat
  recovers : Bool
  allowKeyRace : Bool
  hedged : Bool
  hasUser : Bool

/-- The arguments of `_stream_serial` in the lane of a model. -/
def Request.lane (request : Request) (index : Nat) : Route where
  checksRate := false
  attemptLimit :=
    if index = 0 ∧ request.recovers = false then 2 else 2 * request.keyAttemptRounds
  parallelLimit := if index = 0 then 2 else 1
  keyHedge := false
  rolling := request.recovers && request.allowKeyRace

structure Lane (T : Type) where
  serial : Serial T
  cancelled : Bool
  ended : Bool

inductive HedgeStage where
  | pending
  | won (lane : Nat)
  | returned
  | raised
  | interrupted
  deriving DecidableEq

structure Hedge (T : Type) where
  admitted : Bool
  lanes : List (Lane T)
  active : List Nat
  failures : List StreamFailed
  queue : List (Nat × Item T)
  stage : HedgeStage
  output : List (Event T)

def Hedge.initial (checksRate : Bool) : Hedge T where
  admitted := !checksRate
  lanes := []
  active := []
  failures := []
  queue := []
  stage := .pending
  output := []

inductive HedgeLabel (T : Type) where
  | admission (allowed : Bool)
  /-- A step of a lane, or of a key task in it. -/
  | lane (index : Nat) (label : SerialLabel T)
  /-- The cancellation reaches the lane. -/
  | unwind (index : Nat)
  /-- The lane is over and its tasks are drained. -/
  | close (index : Nat)
  /-- The loop goes round: it starts a model or takes an entry. -/
  | turn
  | timer (expired : Bool)
  | interrupt

/-- The steps of `_stream_serial` itself, beside those of its key tasks. -/
def SerialLabel.own : SerialLabel T → Bool
  | .run _ | .prepared _ _ | .emit _ _ | .close _ | .fail _ | .abandon _ _ => false
  | _ => true

namespace Hedge

def start (request : Request) (hedge : Hedge T) : Hedge T :=
  { hedge with
    lanes := hedge.lanes ++ [⟨Serial.initial (request.lane hedge.lanes.length), false, false⟩]
    active := hedge.active ++ [hedge.lanes.length] }

/-- `can_start_next`. -/
def canStart (request : Request) (hedge : Hedge T) : Bool :=
  decide (hedge.lanes.length < request.models) && hedge.active.all fun lane => lane == 0

def cancelLanes (hit : Nat → Bool) (lanes : List (Lane T)) : List (Lane T) :=
  lanes.mapIdx fun index lane => if hit index then { lane with cancelled := true } else lane

/-- The `finally`: every lane is cancelled. -/
def leave (hedge : Hedge T) (stage : HedgeStage) : Hedge T :=
  { hedge with lanes := cancelLanes (fun _ => true) hedge.lanes, stage := stage }

def say (hedge : Hedge T) (event : Event T) : Hedge T :=
  { hedge with output := hedge.output ++ [event] }

/-- What is yielded when no model is left. -/
def exhausted (hedge : Hedge T) : StreamFailed :=
  hedge.failures.getLast?.getD ⟨.keysExhausted, .beforeText, .retryLater, .exhausted⟩

/-- An entry of the queue while nothing was said. -/
def consume (request : Request) (hedge : Hedge T) (index : Nat) : Item T → Hedge T
  | .error => hedge.leave .raised
  | .done =>
    let next := { hedge with active := hedge.active.erase index }
    if next.canStart request then next.start request else next
  | .wake => hedge
  | .event (.text delta) =>
    { hedge.say (.text delta) with
      lanes := cancelLanes (fun lane => hedge.active.contains lane && lane != index) hedge.lanes
      stage := .won index }
  | .event (.failed failure) =>
    if failure.retry = .doNotRetry ∧ failure.key = .unchanged then
      (hedge.say (.failed failure)).leave .returned
    else { hedge with failures := hedge.failures ++ [failure] }
  | .event (.deferred task) => (hedge.say (.deferred task)).leave .returned
  | .event .completed => { hedge with failures := hedge.failures ++ [endedWithoutText] }

/-- An entry of the winner behind the first text. -/
def forward (hedge : Hedge T) : Item T → Hedge T
  | .event (.text delta) => hedge.say (.text delta)
  | .event event => (hedge.say event).leave .returned
  | _ => hedge.leave .raised

/-- The loop waits for the queue: no model is left, or none may start before the timer. -/
def waits (request : Request) (hedge : Hedge T) : Bool :=
  !(hedge.active.isEmpty && decide (request.models ≤ hedge.lanes.length)) &&
    !(hedge.canStart request && hedge.lanes.length != 1)

def turn (request : Request) (hedge : Hedge T) : Hedge T :=
  match hedge.stage with
  | .pending =>
    if hedge.active.isEmpty && decide (request.models ≤ hedge.lanes.length) then
      (hedge.say (.failed hedge.exhausted)).leave .returned
    else if hedge.canStart request && hedge.lanes.length != 1 then hedge.start request
    else
      match hedge.queue with
      | [] => hedge
      | (index, item) :: rest => { hedge with queue := rest }.consume request index item
  | .won winner =>
    match hedge.queue with
    | [] => hedge
    | (index, item) :: rest =>
      if index = winner then { hedge with queue := rest }.forward item
      else { hedge with queue := rest }
  | _ => hedge

/-- A lane is changed, and what it yielded is put into the queue. -/
def relay (hedge : Hedge T) (index : Nat) (before : Lane T) (after : Serial T) : Hedge T :=
  { hedge with
    lanes := hedge.lanes.set index { before with serial := after }
    queue := hedge.queue ++
      (after.output.drop before.serial.output.length).map fun event => (index, .event event) }

def step (request : Request) (hedge : Hedge T) : HedgeLabel T → Hedge T
  | .admission allowed =>
    if hedge.stage = .pending ∧ hedge.lanes = [] then
      if hedge.admitted || allowed then { hedge.start request with admitted := true }
      else (hedge.say (.failed rateRefused)).leave .returned
    else hedge
  | .lane index label =>
    match hedge.lanes[index]? with
    | some lane =>
      if lane.ended || (lane.cancelled && label.own) then hedge
      else hedge.relay index lane (lane.serial.step (request.lane index) label)
    | none => hedge
  | .unwind index =>
    match hedge.lanes[index]? with
    | some lane =>
      if lane.cancelled && !lane.ended then
        hedge.relay index lane (lane.serial.step (request.lane index) .interrupt)
      else hedge
    | none => hedge
  | .close index =>
    match hedge.lanes[index]? with
    | some lane =>
      if (lane.serial.stage = .returned ∨ lane.serial.stage = .raised ∨
          lane.serial.stage = .interrupted) ∧ lane.ended = false ∧
          (lane.serial.tasks.all fun task => task.stage = .ended) = true then
        { hedge with
          lanes := hedge.lanes.set index { lane with ended := true }
          queue := hedge.queue ++
            (if lane.serial.stage = .raised ∧ lane.cancelled = false then
              [(index, .error), (index, .done)] else [(index, .done)]) }
      else hedge
    | none => hedge
  | .turn => if hedge.lanes = [] then hedge else hedge.turn request
  | .timer expired =>
    if hedge.stage = .pending ∧ hedge.lanes ≠ [] ∧ hedge.waits request = true then
      if expired then
        (hedge.say (.failed ⟨.timeout, .beforeText, .retryLater, .unchanged⟩)).leave .returned
      else if hedge.canStart request then hedge.start request
      else hedge
    else hedge
  | .interrupt =>
    if hedge.stage = .returned ∨ hedge.stage = .raised then hedge
    else hedge.leave .interrupted

end Hedge

end BobbyBotique.Router
