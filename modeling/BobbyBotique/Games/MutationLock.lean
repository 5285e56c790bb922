import BobbyBotique.Foundation.Dict
import BobbyBotique.Foundation.Run

/-!
# The mutation lock of a game

Coroutines of one process pass through `game_mutation_lock` for one game.  Each
acquisition has a number of its own.  The Redis key is shared with other
processes; whether an acquisition that raised took effect on the server is open,
and its command may take effect later.  Where `acquire` raises, the coroutine
goes to the lock of the process.
-/

namespace BobbyBotique.Games

open Run

abbrev Acquisition := Nat

/-- The token under the lock key: of an acquisition here or of another process. -/
inductive Owner where
  | here (acquisition : Acquisition)
  | elsewhere
  deriving DecidableEq, Repr

inductive Guard where
  | redis
  | process
  deriving DecidableEq, Repr

def Guard.other : Guard → Guard
  | .redis => .process
  | .process => .redis

/-- How a coroutine or a task ends. -/
inductive Ending where
  | returned
  | raised
  | cancelled
  deriving DecidableEq, Repr

/-- `accepted_task`. -/
inductive Task where
  | running
  | done (ending : Ending)
  deriving DecidableEq, Repr

/-- The body of the section: its own code, with the ending of the last
`await_owned_game_action`, or the loop of such a call with `cancellation`. -/
inductive Body where
  | working (last : Option Ending)
  | joining (cancellation : Bool)
  deriving DecidableEq, Repr

inductive Phase where
  | outside
  | acquiring
  | waiting
  | inside (guard : Guard) (body : Body)
  | releasing
  | gone
  deriving DecidableEq, Repr

def Phase.within (guard : Guard) : Phase → Bool
  | .inside lock _ => decide (lock = guard)
  | _ => false

/-! ## `await_owned_game_action` -/

/-- What wakes the loop: the end of the task through `shield`, or a cancellation
of the caller. -/
inductive Wakeup where
  | settled
  | cancelled
  deriving DecidableEq, Repr

/-- The value or exception of the call once the task is done. -/
def ownedEnding (cancellation : Bool) (ending : Ending) : Ending :=
  if cancellation then .cancelled else ending

/-- One turn of `while not accepted_task.done()`. -/
def awaitOwnedGameAction (task : Task) (cancellation : Bool) (wakeup : Wakeup) : Body :=
  let cancellation := cancellation || decide (wakeup = .cancelled)
  match task with
  | .running => .joining cancellation
  | .done ending => .working (some (ownedEnding cancellation ending))

/-! ## The process and the lock key -/

/-- The lock key, the phases of all acquisitions, `_local_locks[game_id]` with
its queue, and the tasks of `await_owned_game_action`. -/
structure Section where
  redis : Bool
  key : Option Owner
  phases : Dict Acquisition Phase
  locked : Bool
  waiters : List Acquisition
  tasks : Dict Acquisition Task

inductive Label where
  | call (one : Acquisition)
  | attempt (one : Acquisition)
  | grant (one : Acquisition)
  | refuse (one : Acquisition)
  | fail (one : Acquisition)
  | wake
  | cancel (one : Acquisition)
  | start (one : Acquisition)
  | settle (one : Acquisition) (ending : Ending)
  | resume (one : Acquisition)
  | leave (one : Acquisition)
  | release (one : Acquisition)
  | finish (one : Acquisition)
  | take
  | drop
  | expire
  deriving DecidableEq, Repr

namespace Section

def initial (redis : Bool) : Section := ⟨redis, none, .empty, false, [], .empty⟩

def phase (state : Section) (one : Acquisition) : Phase := state.phases.getD one .outside

def move (state : Section) (one : Acquisition) (phase : Phase) : Section :=
  { state with phases := state.phases.set one phase }

def running (state : Section) (one : Acquisition) : Bool :=
  decide (state.tasks.get? one = some .running)

/-- `async with local_lock`: a lock that is free and awaited by nobody is taken
at once. -/
def enterLocal (state : Section) (one : Acquisition) : Section :=
  if !state.locked && state.waiters.isEmpty then
    { state.move one (.inside .process (.working none)) with locked := true }
  else { state.move one .waiting with waiters := state.waiters ++ [one] }

/-- The end of the body, by whatever exit. -/
def leave (state : Section) (one : Acquisition) : Guard → Section
  | .redis => state.move one .releasing
  | .process => { state.move one .gone with locked := false }

/-- A turn of the joining loop of this acquisition's body. -/
def turn (state : Section) (one : Acquisition) (guard : Guard) (cancellation : Bool)
    (wakeup : Wakeup) : Section :=
  match state.tasks.get? one with
  | none => state
  | some task => state.move one (.inside guard (awaitOwnedGameAction task cancellation wakeup))

def cancel (state : Section) (one : Acquisition) : Section :=
  match state.phase one with
  | .acquiring => state.move one .gone
  | .waiting => { state.move one .gone with waiters := state.waiters.erase one }
  | .inside guard (.working _) => state.leave one guard
  | .inside guard (.joining cancellation) => state.turn one guard cancellation .cancelled
  | .releasing => state.move one .gone
  | _ => state

def step (state : Section) : Label → Section
  | .call one =>
    if state.phase one = .outside then
      if state.redis then state.move one .acquiring else state.enterLocal one
    else state
  -- `SET key token NX PX` of `acquire`, as the server executes it
  | .attempt one =>
    if state.phase one ≠ .outside ∧ state.key = none then { state with key := some (.here one) }
    else state
  | .grant one =>
    if state.phase one = .acquiring ∧ state.key = some (.here one) then
      state.move one (.inside .redis (.working none))
    else state
  -- `acquire` answered false: `TimeoutError`
  | .refuse one => if state.phase one = .acquiring then state.move one .gone else state
  -- `acquire` raised
  | .fail one => if state.phase one = .acquiring then state.enterLocal one else state
  | .wake =>
    match state.waiters with
    | [] => state
    | one :: rest =>
      if state.locked then state
      else { state.move one (.inside .process (.working none)) with
        locked := true, waiters := rest }
  | .cancel one => state.cancel one
  | .start one =>
    match state.phase one with
    | .inside guard (.working _) =>
      { state.move one (.inside guard (.joining false)) with
        tasks := state.tasks.set one .running }
    | _ => state
  | .settle one ending =>
    if state.running one then { state with tasks := state.tasks.set one (.done ending) }
    else state
  | .resume one =>
    match state.phase one with
    | .inside guard (.joining cancellation) =>
      if state.running one then state else state.turn one guard cancellation .settled
    | _ => state
  | .leave one =>
    match state.phase one with
    | .inside guard (.working _) => state.leave one guard
    | _ => state
  -- the release script: the key goes only if it holds this token
  | .release one =>
    if (state.phase one = .releasing ∨ state.phase one = .gone) ∧
        state.key = some (.here one) then { state with key := none }
    else state
  | .finish one => if state.phase one = .releasing then state.move one .gone else state
  | .take => if state.key = none then { state with key := some .elsewhere } else state
  | .drop => if state.key = some .elsewhere then { state with key := none } else state
  | .expire => { state with key := none }

/-- The lock is held for less than its timeout: the key does not expire while
its owner awaits the answer or is inside. -/
def Permitted (state : Section) (label : Label) : Prop :=
  match label, state.key with
  | .expire, some (.here one) =>
    state.phase one ≠ .acquiring ∧ (state.phase one).within .redis = false
  | _, _ => True

instance (state : Section) (label : Label) : Decidable (state.Permitted label) := by
  unfold Permitted
  split
  · infer_instance
  · infer_instance

def Inside (state : Section) (guard : Guard) (one : Acquisition) : Prop :=
  (state.phase one).within guard = true

/-- At most one coroutine is inside the guarded section. -/
def Exclusive (state : Section) : Prop :=
  ∀ guard lock one two, state.Inside guard one → state.Inside lock two → one = two

/-- Some coroutine is inside by this lock. -/
def occupied (state : Section) (guard : Guard) : Bool :=
  state.phases.values.any fun phase => phase.within guard

/-- The step lets this acquisition into the section by this lock. -/
def Enters (state : Section) (label : Label) (guard : Guard) (one : Acquisition) : Prop :=
  match guard with
  | .redis => label = .grant one ∧ state.phase one = .acquiring ∧ state.key = some (.here one)
  | .process =>
    state.locked = false ∧ ((state.waiters = [] ∧
          (label = .call one ∧ state.phase one = .outside ∧ state.redis = false ∨
            label = .fail one ∧ state.phase one = .acquiring)) ∨
        label = .wake ∧ state.waiters.head? = some one)

/-- No coroutine gets in by one of the two locks while another is inside by
the other. -/
def Apart (state : Section) (label : Label) : Prop :=
  ∀ guard one, state.Enters label guard one → state.occupied guard.other = false

end Section

end BobbyBotique.Games
