import BobbyBotique.Router.Hedge
import BobbyBotique.Router.Reserve

/-!
# The keys of a generator

`_stream_serial` with the models and the keys it tries: the selection of the keys of an
attempt, the reserve lane that resolves and reserves a key while others race, and the keys
that are excluded because they failed.
-/

namespace BobbyBotique.Router

variable {T M K : Type} [DecidableEq M] [DecidableEq K]

/-- What key resolution answers, moment by moment: never an excluded key, nor the
mark of the Vertex client. -/
structure Directory (M K : Type) where
  resolve : Nat → M → List K → Option (K × M)
  replacement : Nat → M → List K → Option K
  reserve : Nat → K → M → Bool
  vertex : K
  vertexServes : Nat → M → Bool
  resolved : ∀ {moment model excluded key used},
    resolve moment model excluded = some (key, used) → key ∉ excluded ∧ key ≠ vertex
  replaced : ∀ {moment model excluded key},
    replacement moment model excluded = some key → key ∉ excluded ∧ key ≠ vertex

/-! ## The keys of an attempt -/

namespace Directory

variable (directory : Directory M K)

/-- The loop over `key_count`: a companion key belongs to the model of the first. -/
def resolveKeys (preferred : M) (failed : List K) :
    Nat → Nat → List K → Option M → List K × Option M
  | 0, _, keys, used => (keys, used)
  | count + 1, moment, keys, used =>
    if used.all (· == preferred) then
      match directory.resolve moment (used.getD preferred) (failed ++ keys) with
      | none => (keys, used)
      | some (key, model) =>
        resolveKeys preferred failed count (moment + 1) (keys ++ [key]) (some model)
    else (keys, used)

/-- Vertex takes the place of the second key, or is a reserve of its own. -/
def addVertex (moment : Nat) (preferred first : M) (failed : List K) (count : Nat)
    (keys : List K) (used : Option M) : List K × Option M :=
  let count := if used.any (· != first) then 1 else count
  let model := used.getD preferred
  if directory.vertexServes moment model ∧ directory.vertex ∉ failed then
    if count = 2 then (keys.take 1 ++ [directory.vertex], some model)
    else if keys = [] ∨ failed ≠ [] then ([directory.vertex], some model)
    else (keys, used)
  else (keys, used)

/-- Each key is reserved, or failed and replaced. -/
def reserveKeys (model : M) (candidates : List K) :
    List K → Nat → List K → List K → List K × List K
  | [], _, failed, reserved => (reserved, failed)
  | key :: rest, moment, failed, reserved =>
    if key = directory.vertex ∨ directory.reserve moment key model = true then
      reserveKeys model candidates rest (moment + 1) failed (reserved ++ [key])
    else
      let failed := failed ++ [key]
      match directory.replacement moment model (failed ++ candidates ++ reserved) with
      | some other => reserveKeys model candidates rest (moment + 1) failed (reserved ++ [other])
      | none => reserveKeys model candidates rest (moment + 1) failed reserved

/-- The keys of an attempt with their model, and the keys that failed by now. -/
def select (moment : Nat) (preferred first : M) (failed : List K) (count : Nat) :
    Option (List K × M) × List K :=
  let (keys, used) := directory.resolveKeys preferred failed count moment [] none
  let (keys, used) := directory.addVertex (moment + count) preferred first failed count keys used
  match used with
  | none => (none, failed)
  | some model =>
    let (reserved, failed) :=
      directory.reserveKeys model keys keys (moment + count) failed []
    (if reserved = [] then none else some (reserved, model), failed)

end Directory

/-! ## The generator -/

structure Keyed (T M K : Type) where
  serial : Serial T
  modelQueue : List M
  attempted : List M
  /-- The preferred model whose attempts go on. -/
  current : Option M
  raceModel : Option M
  failedKeys : List K
  /-- `race_keys`. -/
  candidates : List (Nat × K)
  /-- The key that a reserve lane resolved and has not reserved yet. -/
  pending : Option (Nat × K)
  /-- The keys of the preferred model for which an attempt was taken. -/
  granted : List K
  /-- The keys of the preferred model with which a provider was called. -/
  called : List K
  closed : Bool

def Keyed.initial (route : Route) (models : List M) : Keyed T M K where
  serial := Serial.initial route
  modelQueue := models
  attempted := []
  current := none
  raceModel := none
  failedKeys := []
  candidates := []
  pending := none
  granted := []
  called := []
  closed := false

inductive KeyedLabel (T M : Type) where
  /-- A step that selects no model and no key. -/
  | owner (label : SerialLabel T)
  /-- A model is put into the queue behind the others. -/
  | fallback (model : M)
  | nextModel
  | leaveModel
  | select (moment : Nat) (racing primary : Bool)
  /-- A created task takes its first step. -/
  | run (index : Nat)
  /-- A reserve lane is back from key resolution, or from the reservation of the key. -/
  | resolved (index moment : Nat)
  | reserved (index moment : Nat) (late : Bool)
  | closed

/-- The steps of `_stream_serial` without models and keys. -/
def SerialLabel.keyless : SerialLabel T → Bool
  | .nextModel | .race _ _ | .run _ | .prepared _ true => false
  | _ => true

/-- The race ends with a verdict on each of its keys. -/
def Serial.settles (serial : Serial T) : SerialLabel T → Bool
  | .deadline => true
  | .take => decide (serial.tasks.length ≤ serial.finished.length)
  | _ => false

/-- The generator has left its loop. -/
def Serial.left (serial : Serial T) : Bool :=
  decide (serial.stage = .returned ∨ serial.stage = .raised ∨ serial.stage = .interrupted)

namespace Keyed

def keys (keyed : Keyed T M K) : List K := keyed.candidates.map Prod.snd

section

variable (route : Route) (directory : Directory M K) (first : M)

def owner (keyed : Keyed T M K) (label : SerialLabel T) : Keyed T M K :=
  let serial := keyed.serial.step route label
  if keyed.serial.stage = .racing ∧ serial.stage = .routing then
    if keyed.serial.settles label then
      { keyed with serial, failedKeys := keyed.failedKeys ++ keyed.keys, candidates := [] }
    else { keyed with serial, current := none }
  else { keyed with serial }

def nextModel (keyed : Keyed T M K) : Keyed T M K :=
  match keyed.modelQueue with
  | [] => keyed
  | preferred :: rest =>
    if preferred ∈ keyed.attempted then { keyed with modelQueue := rest }
    else
      { keyed with
        serial := keyed.serial.step route .nextModel
        modelQueue := rest
        attempted := keyed.attempted ++ [preferred]
        current := some preferred
        failedKeys := []
        candidates := []
        granted := []
        called := [] }

def select (keyed : Keyed T M K) (preferred : M) (moment : Nat) (racing primary : Bool) :
    Keyed T M K :=
  let count := min (if racing then 2 else 1) keyed.serial.remaining
  match directory.select moment preferred first keyed.failedKeys count with
  | (some (keys, model), failed) =>
    { keyed with
      serial := keyed.serial.step route (.race keys.length primary)
      raceModel := some model
      failedKeys := failed
      candidates := (List.range keys.length).zip keys
      pending := none
      granted := keyed.granted ++ keys }
  | (none, failed) =>
    { keyed with
      serial := keyed.serial.step route (.noRoute .keys)
      failedKeys := failed
      pending := none
      current := none }

/-- The call of a task that has its key from the start. -/
def run (keyed : Keyed T M K) (index : Nat) (task : KeyTask T) : Keyed T M K :=
  let key := if task.stage = .created ∧ task.cancelled = false then
      keyed.candidates.find? (·.1 = index)
    else none
  { keyed with
    serial := keyed.serial.step route (.run index)
    called := keyed.called ++ (key.map Prod.snd).toList }

/-- A reserve lane ends without a key. -/
def giveUp (keyed : Keyed T M K) (index : Nat) : Keyed T M K :=
  { keyed with serial := keyed.serial.step route (.prepared index false), pending := none }

def resolved (keyed : Keyed T M K) (index moment : Nat) : Keyed T M K :=
  match keyed.raceModel with
  | none => keyed
  | some model =>
    match directory.resolve moment model (keyed.failedKeys ++ keyed.keys) with
    | none => keyed.giveUp route index
    | some (key, used) =>
      if used = model then { keyed with pending := some (index, key) }
      else keyed.giveUp route index

def reserved (keyed : Keyed T M K) (index : Nat) (task : KeyTask T) (key : K) (moment : Nat)
    (late : Bool) : Keyed T M K :=
  if keyed.raceModel.any (directory.reserve moment key) then
    -- Behind the deadline of the race no lane joins it.
    if late ∨ (keyed.serial.stage = .routing ∧ keyed.current.isSome) then keyed.giveUp route index
    else
      { keyed with
        serial := keyed.serial.join route index task
        candidates := keyed.candidates ++ [(index, key)]
        pending := none
        granted := keyed.granted ++ [key]
        called := keyed.called ++ [key] }
  else if route.rolling then
    { keyed with failedKeys := keyed.failedKeys ++ [key], pending := none }
  else keyed.giveUp route index

def step (keyed : Keyed T M K) (label : KeyedLabel T M) : Keyed T M K :=
  if keyed.closed then keyed
  else
    match label with
    | .owner label => if label.keyless then keyed.owner route label else keyed
    | .fallback model =>
      if model ∉ keyed.attempted ∧ model ∉ keyed.modelQueue then
        { keyed with modelQueue := keyed.modelQueue ++ [model] }
      else keyed
    | .nextModel =>
      if (keyed.serial.idle && keyed.serial.admitted) = true ∧ keyed.current = none then
        keyed.nextModel route
      else keyed
    | .leaveModel => if keyed.serial.idle then { keyed with current := none } else keyed
    | .select moment racing primary =>
      match keyed.current with
      | some preferred =>
        if (keyed.serial.idle && keyed.serial.admitted) = true ∧ 0 < keyed.serial.remaining then
          keyed.select route directory first preferred moment racing primary
        else keyed
      | none => keyed
    | .run index =>
      match keyed.serial.tasks[index]? with
      | some task => keyed.run route index task
      | none => keyed
    | .resolved index moment =>
      match keyed.serial.tasks[index]? with
      | some task =>
        if task.stage = .preparing then keyed.resolved route directory index moment else keyed
      | none => keyed
    | .reserved index moment late =>
      match keyed.serial.tasks[index]?, keyed.pending with
      | some task, some (lane, key) =>
        if task.stage = .preparing ∧ lane = index then
          keyed.reserved route directory index task key moment late
        else keyed
      | _, _ => keyed
    | .closed =>
      if (keyed.serial.left && keyed.serial.tasks.all fun task => task.stage = .ended) = true then
        { keyed with closed := true }
      else keyed

end

end Keyed

/-! ## The hedge and its drain -/

structure Hedging (T : Type) where
  hedge : Hedge T
  closed : Bool

/-- The loop was left. -/
def Hedge.left (hedge : Hedge T) : Bool :=
  decide (hedge.stage = .returned ∨ hedge.stage = .raised ∨ hedge.stage = .interrupted)

/-- A step of the hedge, or its drain is over: every lane task has ended. -/
def Hedging.step (request : Request) (hedging : Hedging T) :
    Option (HedgeLabel T) → Hedging T
  | some label =>
    if hedging.closed then hedging
    else { hedging with hedge := hedging.hedge.step request label }
  | none =>
    if (hedging.hedge.left && hedging.hedge.lanes.all fun lane => lane.ended) = true then
      { hedging with closed := true }
    else hedging

end BobbyBotique.Router
