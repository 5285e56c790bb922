import BobbyBotique.Foundation.Dict
import BobbyBotique.Foundation.Run
import BobbyBotique.UserState.Setters

/-!
# The debounced persistence of user states

The state objects of the process, the debounce timers of `_pending_persists`
and the background tasks that run `_persist`.  A task is queued until its first
step; from there it waits for the persistence lock of its state, or saves.
-/

namespace BobbyBotique.UserState

/-- A `UserState` with the last snapshot known to be saved, the task that holds
its persistence lock and the number of snapshots taken of it.  The user is zero
once the state is detached. -/
structure StateObject (J : Type) where
  userId : Nat
  fields : Fields J
  saved : Fields J
  locked : Option Nat
  taken : Nat

/-- How far a persistence task has come. -/
inductive Stage (J : Type) where
  | queued
  | waiting
  | saving (userId number : Nat) (snapshot : Fields J)

/-- A task of the manager that runs `_persist` for a state. -/
structure Task (J : Type) where
  state : Nat
  stage : Stage J

/-- A write that reached the database: whose, and which snapshot of it. -/
structure Write (J : Type) where
  state : Nat
  number : Nat
  snapshot : Fields J

structure Process (J : Type) where
  users : Dict Nat Nat
  states : Dict Nat (StateObject J)
  timers : Dict Nat Nat
  tasks : Dict Nat (Task J)
  rows : Dict Nat (Fields J)
  written : List (Write J)

inductive ProcessLabel (J : Type) where
  /-- A handler loads the state of a user into a new object. -/
  | load (user state : Nat)
  | set (user : Nat) (setter : Setter J)
  /-- The timer of a user goes off; the task manager may refuse the task. -/
  | fire (user task : Nat) (refused : Bool)
  | start (task : Nat)
  | acquire (task : Nat)
  | succeed (task : Nat)
  /-- The save raises; the row may have been written. -/
  | failSave (task : Nat) (wrote : Bool)
  /-- The task is cancelled where it stands; a save may have been written. -/
  | cancel (task : Nat) (wrote : Bool)
  | purge (user : Nat)
  /-- The cache drops a state that nothing refers to. -/
  | evict (user : Nat)

namespace Process

variable {J : Type}

def initial : Process J := ⟨.empty, .empty, .empty, .empty, .empty, []⟩

/-- `_schedule_persist`. -/
def schedule (process : Process J) (state : Nat) : Process J :=
  match process.states.get? state with
  | none => process
  | some object =>
    if object.userId = 0 then process
    else { process with timers := process.timers.set object.userId state }

/-- The write of a snapshot, where it came through. -/
def write (process : Process J) (wrote : Bool) (state userId number : Nat)
    (snapshot : Fields J) : Process J :=
  if wrote then
    { process with
      rows := process.rows.set userId snapshot
      written := process.written ++ [⟨state, number, snapshot⟩] }
  else process

/-- The task ends and gives the lock back. -/
def release (process : Process J) (task state : Nat) (object : StateObject J) : Process J :=
  { process with
    tasks := process.tasks.del task
    states := process.states.set state { object with locked := none } }

def drop (process : Process J) (task : Nat) : Process J :=
  { process with tasks := process.tasks.del task }

/-- A save that did not succeed: the row may be written, and the save is retried. -/
def abandon (process : Process J) (wrote : Bool) (task state userId number : Nat)
    (snapshot : Fields J) : Process J :=
  match process.states.get? state with
  | none => process
  | some object =>
    ((process.write wrote state userId number snapshot).release task state object).schedule state

/-- The user has no state any more and the state no user. -/
def detach (process : Process J) (user state : Nat) (object : StateObject J) : Process J :=
  { process with
    users := process.users.del user
    states := process.states.set state { object with userId := 0 } }

def step (process : Process J) : ProcessLabel J → Process J
  | .load user state =>
    match process.users.get? user, process.states.get? state with
    | none, none =>
      if user = 0 then process
      else
        let fields := (process.rows.get? user).getD .initial
        { process with
          users := process.users.set user state
          states := process.states.set state ⟨user, fields, fields, none, 0⟩ }
    | _, _ => process
  | .set user setter =>
    match process.users.get? user with
    | none => process
    | some state =>
      match process.states.get? state with
      | none => process
      | some object =>
        match setter.apply object.fields with
        | none => process
        | some fields =>
          schedule { process with
            states := process.states.set state { object with fields := fields } } state
  | .fire user task refused =>
    match process.timers.get? user with
    | none => process
    | some state =>
      if refused then process.schedule state
      else
        match process.tasks.get? task with
        | some _ => process
        | none => { process with
            timers := process.timers.del user
            tasks := process.tasks.set task ⟨state, .queued⟩ }
  | .start task =>
    match process.tasks.get? task with
    | some ⟨state, .queued⟩ =>
      { process with tasks := process.tasks.set task ⟨state, .waiting⟩ }
    | _ => process
  | .acquire task =>
    match process.tasks.get? task with
    | some ⟨state, .waiting⟩ =>
      match process.states.get? state with
      | none => process
      | some object =>
        if object.locked ≠ none then process
        else if object.userId = 0 then process.drop task
        else { process with
          tasks := process.tasks.set task
            ⟨state, .saving object.userId object.taken object.fields⟩
          states := process.states.set state
            { object with locked := some task, taken := object.taken + 1 } }
    | _ => process
  | .succeed task =>
    match process.tasks.get? task with
    | some ⟨state, .saving userId number snapshot⟩ =>
      match process.states.get? state with
      | none => process
      | some object =>
        (process.write true state userId number snapshot).release task state
          { object with saved := snapshot }
    | _ => process
  | .failSave task wrote =>
    match process.tasks.get? task with
    | some ⟨state, .saving userId number snapshot⟩ =>
      process.abandon wrote task state userId number snapshot
    | _ => process
  | .cancel task wrote =>
    match process.tasks.get? task with
    -- the wrapper never started: `coro.close()`
    | some ⟨_, .queued⟩ => process.drop task
    | some ⟨state, .waiting⟩ => (process.drop task).schedule state
    | some ⟨state, .saving userId number snapshot⟩ =>
      process.abandon wrote task state userId number snapshot
    | none => process
  | .purge user =>
    let quiet := { process with timers := process.timers.del user }
    match process.users.get? user with
    | none => quiet
    | some state =>
      match process.states.get? state with
      | none => quiet
      | some object => quiet.detach user state object
  | .evict user =>
    match process.users.get? user with
    | none => process
    | some state =>
      match process.states.get? state with
      | none => process
      | some object =>
        if process.timers.get? user = none ∧
            process.tasks.values.all fun task => decide (task.state ≠ state) then
          process.detach user state object
        else process

/-- A timer of the user or a task that has not taken its snapshot yet. -/
def Pending (process : Process J) (state : Nat) (object : StateObject J) : Prop :=
  process.timers.get? object.userId = some state ∨
    ∃ task, process.tasks.get? task = some ⟨state, .queued⟩ ∨
      process.tasks.get? task = some ⟨state, .waiting⟩

/-- A task is saving this snapshot of the state. -/
def Saves (process : Process J) (state : Nat) (snapshot : Fields J) : Prop :=
  ∃ task userId number, process.tasks.get? task = some ⟨state, .saving userId number snapshot⟩

end Process

end BobbyBotique.UserState
