import BobbyBotique.Foundation.AsyncLock
import BobbyBotique.Foundation.Dict
import BobbyBotique.Foundation.Run

/-!
# The admission gate

`WebhookAdmissionGate`: an admission runs in a child task of its own, and the caller
keeps the lock until the child is done, however often it is cancelled.  The shutdown
task takes the same lock before it stops the application.
-/

namespace BobbyBotique.Webhook

open Run
open AsyncLock (LockRole)

/-- How an operation or a callback ends. -/
inductive Ending where
  | returned | raised | cancelled
  deriving DecidableEq

/-- How a call ends: `AdmissionClosed`, the cancellation of its caller, or the ending of
the child. -/
inductive CallResult where
  | admissionClosed | cancelled | finished (ending : Ending)
  deriving DecidableEq

inductive ChildStage where
  | created | running | done (ending : Ending)
  deriving DecidableEq

def ChildStage.ending : ChildStage → Option Ending
  | .done ending => some ending
  | _ => none

/-- The shutdown task: not begun, waiting for the lock, in the stop callback, and done. -/
inductive DrainStage where
  | created | waiting | stopping | done (ending : Ending)
  deriving DecidableEq

def DrainStage.ending : DrainStage → Option Ending
  | .done ending => some ending
  | _ => none

/-- The task in `_await_owned`: whether `cancelling()` is positive, whether a
cancellation waits to be raised in it, and whether one is deferred. -/
structure Owner where
  cancelling : Bool
  requested : Bool
  cancellation : Bool

namespace Owner

/-- `except asyncio.CancelledError`. -/
def catches (owner : Owner) (childDone : Bool) : Owner :=
  { owner with
    requested := false
    cancellation := owner.cancellation || (!childDone || owner.cancelling) }

/-- What is raised or returned once the child is done. -/
def result (owner : Owner) (ending : Ending) : CallResult :=
  if owner.cancellation then .cancelled else .finished ending

/-- The task runs on in `_await_owned`, which ends once the child is done. -/
def awaitOwned (owner : Owner) (child : Option Ending) : Owner × Option CallResult :=
  if owner.requested then
    let caught := owner.catches child.isSome
    (caught, child.map caught.result)
  else
    match child with
    | none => (owner, none)
    | some .cancelled =>
      let caught := owner.catches true
      (caught, some (caught.result .cancelled))
    | some ending => (owner, some (owner.result ending))

end Owner

inductive CallStage where
  | waiting | owning (child : Nat) | draining | ended (result : CallResult)
  deriving DecidableEq

/-- A call of `admit` or of `shutdown`, and whether it was cancelled before its end. -/
structure Caller where
  owner : Owner
  shutdown : Bool
  stage : CallStage
  hit : Bool

structure AdmissionGate where
  lock : AsyncLock
  closed : Bool
  shutdownTask : Option (Nat × DrainStage)
  callers : Dict Nat Caller
  children : Dict Nat ChildStage
  nextTask : Nat
  /-- The children whose operation was begun, and how often the stop callback was. -/
  begun : List Nat
  stops : Nat

inductive GateLabel where
  | admission (cancelling : Bool)
  | close
  | shutdown (cancelling : Bool)
  /-- The task of a call is cancelled. -/
  | cancel (caller : Nat)
  /-- The task of a call runs on. -/
  | resume (caller : Nat)
  /-- A child takes its first step. -/
  | start (child : Nat)
  | finish (child : Nat) (ending : Ending)
  /-- The shutdown task takes its first step, or runs on in the lock. -/
  | drain
  | stopped (ending : Ending)

namespace AdmissionGate

def initial : AdmissionGate where
  lock := .initial
  closed := false
  shutdownTask := none
  callers := Dict.empty
  children := Dict.empty
  nextTask := 0
  begun := []
  stops := 0

/-- The caller with the lock creates its child and observes it. -/
def own (gate : AdmissionGate) (lock : AsyncLock) (id : Nat) (caller : Caller) (child : Nat) :
    AdmissionGate :=
  { gate with
    lock := lock
    children := gate.children.set child .created
    callers := gate.callers.set id { caller with stage := .owning child } }

/-- The call ends. -/
def conclude (gate : AdmissionGate) (lock : AsyncLock) (id : Nat) (caller : Caller)
    (result : CallResult) : AdmissionGate :=
  { gate with
    lock := lock
    callers := gate.callers.set id { caller with stage := .ended result } }

/-- `admit`. -/
def admission (gate : AdmissionGate) (cancelling : Bool) : AdmissionGate :=
  let id := gate.nextTask
  let caller : Caller := ⟨⟨cancelling, false, false⟩, false, .waiting, false⟩
  if gate.closed then
    { gate.conclude gate.lock id caller .admissionClosed with nextTask := id + 1 }
  else if gate.lock.free then
    { gate.own gate.lock.take id caller (id + 1) with nextTask := id + 2 }
  else
    { gate with
      lock := gate.lock.enqueue id
      callers := gate.callers.set id caller
      nextTask := id + 1 }

def close (gate : AdmissionGate) : AdmissionGate := { gate with closed := true }

def shutdown (gate : AdmissionGate) (cancelling : Bool) : AdmissionGate :=
  let id := gate.nextTask
  let caller : Caller := ⟨⟨cancelling, false, false⟩, true, .draining, false⟩
  let closed := gate.close
  match gate.shutdownTask with
  | none =>
    { closed with
      shutdownTask := some (id + 1, .created)
      callers := gate.callers.set id caller
      nextTask := id + 2 }
  | some (_, stage) =>
    match stage.ending with
    | none => { closed with callers := gate.callers.set id caller, nextTask := id + 1 }
    | some ending =>
      { closed.conclude gate.lock id caller (.finished ending) with nextTask := id + 1 }

def cancel (gate : AdmissionGate) (id : Nat) : AdmissionGate :=
  match gate.callers.get? id with
  | none => gate
  | some caller =>
    match caller.stage with
    | .ended _ => gate
    | .waiting =>
      { gate with
        lock := gate.lock.cancel id
        callers := gate.callers.set id
          { caller with owner := { caller.owner with cancelling := true }, hit := true } }
    | _ =>
      { gate with
        callers := gate.callers.set id
          { caller with
            owner := { caller.owner with cancelling := true, requested := true }
            hit := true } }

/-- A call that waits for the lock runs on. -/
def resumeWaiting (gate : AdmissionGate) (id : Nat) (caller : Caller) : AdmissionGate :=
  let outcome := gate.lock.resume id
  match outcome.2 with
  | .waits => gate
  | .cancelled => gate.conclude outcome.1 id caller .cancelled
  | .acquired =>
    if gate.closed then gate.conclude outcome.1.release id caller .admissionClosed
    else
      { gate.own outcome.1 id caller gate.nextTask with nextTask := gate.nextTask + 1 }

/-- A call that observes a task runs on, and leaves the lock as `lock` where it ends. -/
def resumeOwned (gate : AdmissionGate) (lock : AsyncLock) (id : Nat) (caller : Caller)
    (child : Option Ending) : AdmissionGate :=
  let observed := caller.owner.awaitOwned child
  match observed.2 with
  | none =>
    { gate with callers := gate.callers.set id { caller with owner := observed.1 } }
  | some result => gate.conclude lock id { caller with owner := observed.1 } result

def resume (gate : AdmissionGate) (id : Nat) : AdmissionGate :=
  match gate.callers.get? id with
  | none => gate
  | some caller =>
    match caller.stage with
    | .ended _ => gate
    | .waiting => gate.resumeWaiting id caller
    | .owning child =>
      gate.resumeOwned gate.lock.release id caller
        ((gate.children.get? child).bind ChildStage.ending)
    | .draining =>
      gate.resumeOwned gate.lock id caller
        (gate.shutdownTask.bind fun task => task.2.ending)

def start (gate : AdmissionGate) (child : Nat) : AdmissionGate :=
  if gate.children.get? child = some .created then
    { gate with
      children := gate.children.set child .running
      begun := gate.begun ++ [child] }
  else gate

def finish (gate : AdmissionGate) (child : Nat) (ending : Ending) : AdmissionGate :=
  if gate.children.get? child = some .running then
    { gate with children := gate.children.set child (.done ending) }
  else gate

def drain (gate : AdmissionGate) : AdmissionGate :=
  match gate.shutdownTask with
  | some (id, .created) =>
    if gate.lock.free then
      { gate with
        lock := gate.lock.take
        shutdownTask := some (id, .stopping)
        stops := gate.stops + 1 }
    else
      { gate with lock := gate.lock.enqueue id, shutdownTask := some (id, .waiting) }
  | some (id, .waiting) =>
    let outcome := gate.lock.resume id
    match outcome.2 with
    | .waits => gate
    | .cancelled => { gate with lock := outcome.1, shutdownTask := some (id, .done .cancelled) }
    | .acquired =>
      { gate with
        lock := outcome.1
        shutdownTask := some (id, .stopping)
        stops := gate.stops + 1 }
  | _ => gate

def stopped (gate : AdmissionGate) (ending : Ending) : AdmissionGate :=
  match gate.shutdownTask with
  | some (id, .stopping) =>
    { gate with lock := gate.lock.release, shutdownTask := some (id, .done ending) }
  | _ => gate

def step (gate : AdmissionGate) : GateLabel → AdmissionGate
  | .admission cancelling => gate.admission cancelling
  | .close => gate.close
  | .shutdown cancelling => gate.shutdown cancelling
  | .cancel id => gate.cancel id
  | .resume id => gate.resume id
  | .start child => gate.start child
  | .finish child ending => gate.finish child ending
  | .drain => gate.drain
  | .stopped ending => gate.stopped ending

end AdmissionGate

/-! ## What holds after every run -/

def CallStage.role : CallStage → LockRole
  | .waiting => .waits
  | .owning _ => .holds
  | _ => .outside

def DrainStage.role : DrainStage → LockRole
  | .waiting => .waits
  | .stopping => .holds
  | _ => .outside

theorem CallStage.waiting_of_role {stage : CallStage} (waits : stage.role = .waits) :
    stage = .waiting := by
  cases stage with
  | waiting => rfl
  | owning | draining | ended => cases waits

theorem CallStage.owning_of_role {stage : CallStage} (holds : stage.role = .holds) :
    ∃ child, stage = .owning child := by
  cases stage with
  | waiting => cases holds
  | owning child => exact ⟨child, rfl⟩
  | draining | ended => cases holds

theorem DrainStage.waiting_of_role {stage : DrainStage} (waits : stage.role = .waits) :
    stage = .waiting := by
  cases stage with
  | created => cases waits
  | waiting => rfl
  | stopping | done => cases waits

/-- The shutdown task is done. -/
def Drained (shutdownTask : Option (Nat × DrainStage)) : Prop :=
  ∃ id ending, shutdownTask = some (id, .done ending)

/-- A caller fits the lock and the shutdown task. -/
structure Caller.Fits (lock : AsyncLock) (shutdownTask : Option (Nat × DrainStage)) (id : Nat)
    (caller : Caller) : Prop where
  requests : caller.owner.requested = true → caller.owner.cancelling = true
  doomed : caller.stage = .waiting → caller.hit = true → lock.Doomed id
  held : ∀ child, caller.stage = .owning child → caller.hit = true →
    caller.owner.requested = true ∨ caller.owner.cancellation = true
  drains : caller.stage = .draining → caller.hit = true →
    caller.owner.requested = true ∨ caller.owner.cancellation = true
  ended : ∀ result, caller.stage = .ended result → caller.hit = true → result = .cancelled
  admission : caller.shutdown = true → caller.stage.role = .outside
  drained : ∀ result, caller.stage = .ended result → caller.shutdown = true → Drained shutdownTask

namespace Owner

variable {owner : Owner} {child : Option Ending}

/-- A cancellation is kept until the child is done. -/
theorem awaitOwned_waits (requests : owner.requested = true → owner.cancelling = true)
    (waits : (owner.awaitOwned child).2 = none) :
    ((owner.awaitOwned child).1.requested = true → (owner.awaitOwned child).1.cancelling = true) ∧
    (owner.requested = true ∨ owner.cancellation = true →
      (owner.awaitOwned child).1.requested = true ∨
        (owner.awaitOwned child).1.cancellation = true) := by
  unfold awaitOwned at waits ⊢
  split at waits
  · next requested =>
      rw [if_pos requested]
      cases child with
      | none =>
        refine ⟨fun absurd => (nomatch absurd), fun _ => .inr ?_⟩
        exact Bool.or_true owner.cancellation
      | some ending => cases waits
  · next quiet =>
      rw [if_neg quiet]
      cases child with
      | none => exact ⟨requests, id⟩
      | some ending =>
        cases ending with
        | returned | raised | cancelled => cases waits

/-- Once the child is done the cancellation is what the caller gets. -/
theorem awaitOwned_ends (requests : owner.requested = true → owner.cancelling = true)
    {result : CallResult} (ends : (owner.awaitOwned child).2 = some result) :
    child.isSome = true ∧
      (owner.requested = true ∨ owner.cancellation = true → result = .cancelled) ∧
      ((owner.awaitOwned child).1.requested = true →
        (owner.awaitOwned child).1.cancelling = true) := by
  unfold awaitOwned at ends ⊢
  split at ends
  · next requested =>
      rw [if_pos requested]
      cases child with
      | none => cases ends
      | some ending =>
        refine ⟨rfl, fun _ => ?_, fun absurd => nomatch absurd⟩
        rw [← Option.some.inj ends]
        have deferred : (owner.catches (some ending).isSome).cancellation = true := by
          unfold catches
          rw [requests requested]
          exact Bool.or_true owner.cancellation
        exact if_pos deferred
  · next quiet =>
      rw [if_neg quiet]
      cases child with
      | none => cases ends
      | some ending =>
        refine ⟨rfl, ?_, ?_⟩
        · rintro (requested | deferred)
          · exact absurd requested quiet
          · cases ending with
            | returned | raised => exact (Option.some.inj ends).symm.trans (if_pos deferred)
            | cancelled =>
              rw [← Option.some.inj ends]
              refine if_pos ?_
              unfold catches
              rw [deferred]
              rfl
        · cases ending with
          | returned | raised => exact requests
          | cancelled => exact fun absurd => nomatch absurd

end Owner

namespace AdmissionGate

/-- What a task is to the lock. -/
def role (gate : AdmissionGate) (id : Nat) : LockRole :=
  match gate.callers.get? id with
  | some caller => caller.stage.role
  | none =>
    match gate.shutdownTask with
    | some (task, stage) => if task = id then stage.role else .outside
    | none => .outside

/-- How often the stop callback was begun by then. -/
def stopsAt : Option (Nat × DrainStage) → Nat
  | some (_, .stopping) => 1
  | some (_, .done _) => 1
  | _ => 0

structure Sound (gate : AdmissionGate) : Prop where
  serves : gate.lock.Serves gate.role
  apart : ∀ id stage, gate.shutdownTask = some (id, stage) → gate.callers.get? id = none
  knownCaller : ∀ id caller, gate.callers.get? id = some caller → id < gate.nextTask
  knownChild : ∀ child stage, gate.children.get? child = some stage → child < gate.nextTask
  knownTask : ∀ id stage, gate.shutdownTask = some (id, stage) → id < gate.nextTask
  fits : ∀ id caller, gate.callers.get? id = some caller →
    caller.Fits gate.lock gate.shutdownTask id
  owned : ∀ id caller child, gate.callers.get? id = some caller →
    caller.stage = .owning child → ∃ stage, gate.children.get? child = some stage
  flying : ∀ child stage, gate.children.get? child = some stage → stage.ending = none →
    ∃ id caller, gate.callers.get? id = some caller ∧ caller.stage = .owning child
  spared : ∀ id, gate.shutdownTask = some (id, .waiting) → gate.lock.Spared id
  stopped : gate.stops = stopsAt gate.shutdownTask

variable {gate next : AdmissionGate}

theorem role_call {id : Nat} {caller : Caller} (callers : next.callers = gate.callers.set id caller)
    (task : next.shutdownTask = gate.shutdownTask) :
    next.role = Function.update gate.role id caller.stage.role := by
  funext other
  unfold role
  rw [callers, task, Function.update_apply, Dict.get?_set]
  by_cases mine : other = id
  · rw [if_pos mine, if_pos mine]
  · rw [if_neg mine, if_neg mine]

theorem role_task {id : Nat} {stage : DrainStage} (callers : next.callers = gate.callers)
    (task : next.shutdownTask = some (id, stage)) (fresh : gate.callers.get? id = none)
    (same : ∀ other before, gate.shutdownTask = some (other, before) → other = id) :
    next.role = Function.update gate.role id stage.role := by
  funext other
  unfold role
  rw [callers, task, Function.update_apply]
  by_cases mine : other = id
  · rw [if_pos mine, mine, fresh]
    exact if_pos rfl
  · rw [if_neg mine]
    cases gate.callers.get? other with
    | some caller => rfl
    | none =>
      dsimp only
      rw [if_neg (Ne.symm mine)]
      cases before : gate.shutdownTask with
      | none => rfl
      | some pair =>
        obtain ⟨name, old⟩ := pair
        dsimp only
        rw [if_neg]
        rw [same name old before]
        exact Ne.symm mine

theorem fits_mono {lock after : AsyncLock} {shutdownTask : Option (Nat × DrainStage)}
    {id : Nat} {caller : Caller} (fits : caller.Fits lock shutdownTask id)
    (doomed : lock.Doomed id → after.Doomed id) : caller.Fits after shutdownTask id :=
  { fits with doomed := fun waits hit => doomed (fits.doomed waits hit) }

/-- One call changes, and what it leaves of the lock. -/
theorem Sound.call (sound : gate.Sound) {id : Nat} {caller : Caller}
    (callers : next.callers = gate.callers.set id caller)
    (task : next.shutdownTask = gate.shutdownTask) (count : next.stops = gate.stops)
    (known : id < next.nextTask) (later : gate.nextTask ≤ next.nextTask)
    (apart : ∀ name stage, gate.shutdownTask = some (name, stage) → name ≠ id)
    (serves : next.lock.Serves (Function.update gate.role id caller.stage.role))
    (doomed : ∀ other, other ≠ id → gate.lock.Doomed other → next.lock.Doomed other)
    (spared : ∀ other, other ≠ id → gate.lock.Spared other → next.lock.Spared other)
    (fits : caller.Fits next.lock gate.shutdownTask id)
    (kept : ∀ child stage, gate.children.get? child = some stage →
      next.children.get? child = some stage)
    (knownChild : ∀ child stage, next.children.get? child = some stage → child < next.nextTask)
    (owned : ∀ child, caller.stage = .owning child → ∃ stage, next.children.get? child = some stage)
    (flying : ∀ child stage, next.children.get? child = some stage → stage.ending = none →
      caller.stage = .owning child ∨ ∃ other mate, other ≠ id ∧
        gate.callers.get? other = some mate ∧ mate.stage = .owning child) : next.Sound := by
  have before : ∀ other mate, next.callers.get? other = some mate →
      other = id ∧ mate = caller ∨ other ≠ id ∧ gate.callers.get? other = some mate := by
    intro other mate found
    rw [callers, Dict.get?_set] at found
    split at found
    · next same => exact .inl ⟨same, (Option.some.inj found).symm⟩
    · next different => exact .inr ⟨different, found⟩
  constructor
  case serves => exact role_call callers task ▸ serves
  case apart =>
      intro name stage found
      rw [task] at found
      rw [callers, Dict.get?_set_ne _ _ (apart name stage found)]
      exact sound.apart name stage found
  case knownCaller =>
      intro other mate found
      rcases before other mate found with ⟨same, _⟩ | ⟨_, old⟩
      · exact same ▸ known
      · exact Nat.lt_of_lt_of_le (sound.knownCaller other mate old) later
  case knownChild => exact knownChild
  case knownTask =>
      intro name stage found
      rw [task] at found
      exact Nat.lt_of_lt_of_le (sound.knownTask name stage found) later
  case fits =>
      intro other mate found
      rw [task]
      rcases before other mate found with ⟨same, rfl⟩ | ⟨different, old⟩
      · exact same ▸ fits
      · exact fits_mono (sound.fits other mate old) (doomed other different)
  case owned =>
      intro other mate child found holds
      rcases before other mate found with ⟨_, rfl⟩ | ⟨_, old⟩
      · exact owned child holds
      · obtain ⟨stage, there⟩ := sound.owned other mate child old holds
        exact ⟨stage, kept child stage there⟩
  case flying =>
      intro child stage found unfinished
      rw [callers]
      rcases flying child stage found unfinished with mine | ⟨other, mate, different, old, holds⟩
      · exact ⟨id, caller, Dict.get?_set_self _ _ _, mine⟩
      · exact ⟨other, mate, (Dict.get?_set_ne _ _ different).trans old, holds⟩
  case spared =>
      intro name found
      rw [task] at found
      exact spared name (apart name _ found) (sound.spared name found)
  case stopped =>
      rw [count, task]
      exact sound.stopped

/-- The shutdown task goes on. -/
theorem Sound.task (sound : gate.Sound) {id : Nat} {before stage : DrainStage}
    (was : gate.shutdownTask = some (id, before)) (unfinished : before.ending = none)
    (task : next.shutdownTask = some (id, stage)) (callers : next.callers = gate.callers)
    (children : next.children = gate.children) (count : next.nextTask = gate.nextTask)
    (serves : next.lock.Serves (Function.update gate.role id stage.role))
    (doomed : ∀ other, other ≠ id → gate.lock.Doomed other → next.lock.Doomed other)
    (spared : stage = .waiting → next.lock.Spared id)
    (stops : next.stops = stopsAt (some (id, stage))) : next.Sound := by
  have fresh := sound.apart id before was
  constructor
  case serves =>
      refine (role_task callers task fresh ?_) ▸ serves
      intro other old there
      rw [was] at there
      cases there
      rfl
  case apart =>
      intro name now found
      rw [task] at found
      cases found
      rw [callers]
      exact fresh
  case knownCaller =>
      rw [callers, count]
      exact sound.knownCaller
  case knownChild =>
      rw [children, count]
      exact sound.knownChild
  case knownTask =>
      intro name now found
      rw [task] at found
      cases found
      rw [count]
      exact sound.knownTask _ _ was
  case fits =>
      intro other mate found
      rw [callers] at found
      have fits := sound.fits other mate found
      have different : other ≠ id := by
        rintro rfl
        rw [fresh] at found
        cases found
      refine { fits_mono fits (doomed other different) with drained := ?_ }
      intro result ends closes
      obtain ⟨name, ending, done⟩ := fits.drained result ends closes
      rw [was] at done
      cases done
      cases unfinished
  case owned =>
      rw [callers, children]
      exact sound.owned
  case flying =>
      rw [callers, children]
      exact sound.flying
  case spared =>
      intro name found
      rw [task] at found
      cases found
      exact spared rfl
  case stopped => exact stops.trans (task ▸ rfl)

theorem initial_sound : initial.Sound := by
  constructor
  case serves =>
      refine ⟨AsyncLock.initial_sound, ?_, ?_, ?_, fun absurd => nomatch absurd⟩
      · intro id
        exact ⟨fun absurd => (List.not_mem_nil absurd).elim, fun absurd => nomatch absurd⟩
      · exact fun _ absurd => nomatch absurd
      · exact fun _ _ absurd => nomatch absurd
  case apart => exact fun _ _ absurd => nomatch absurd
  case knownCaller => exact fun _ _ absurd => nomatch absurd
  case knownChild => exact fun _ _ absurd => nomatch absurd
  case knownTask => exact fun _ _ absurd => nomatch absurd
  case fits => exact fun _ _ absurd => nomatch absurd
  case owned => exact fun _ _ _ absurd => nomatch absurd
  case flying => exact fun _ _ absurd => nomatch absurd
  case spared => exact fun _ absurd => nomatch absurd
  case stopped => rfl

/-- A task whose part does not change. -/
theorem serves_same {lock : AsyncLock} {part : Nat → LockRole} (serves : lock.Serves part)
    {id : Nat} {same : LockRole} (is : part id = same) :
    lock.Serves (Function.update part id same) := by
  rw [← is, Function.update_eq_self]
  exact serves

theorem Sound.newcomer (sound : gate.Sound) {id : Nat} (later : gate.nextTask ≤ id) :
    gate.callers.get? id = none ∧ gate.role id = .outside ∧
      (∀ name stage, gate.shutdownTask = some (name, stage) → name ≠ id) := by
  have unknown : gate.callers.get? id = none := by
    cases found : gate.callers.get? id with
    | none => rfl
    | some caller =>
      exact absurd (sound.knownCaller id caller found) (Nat.not_lt.mpr later)
  have apart : ∀ name stage, gate.shutdownTask = some (name, stage) → name ≠ id := by
    intro name stage found same
    exact absurd (sound.knownTask name stage found) (Nat.not_lt.mpr (same ▸ later))
  refine ⟨unknown, ?_, apart⟩
  unfold role
  rw [unknown]
  cases found : gate.shutdownTask with
  | none => rfl
  | some pair => exact if_neg (apart pair.1 pair.2 found)

theorem Sound.known_apart (sound : gate.Sound) {id : Nat} {caller : Caller}
    (found : gate.callers.get? id = some caller) :
    gate.role id = caller.stage.role ∧
      ∀ name stage, gate.shutdownTask = some (name, stage) → name ≠ id := by
  constructor
  · unfold role
    rw [found]
  · rintro name stage there rfl
    rw [sound.apart name stage there] at found
    cases found

/-- The children of other callers stay with them. -/
theorem Sound.flying_others (sound : gate.Sound) {id : Nat}
    (idle : ∀ caller child, gate.callers.get? id = some caller → caller.stage ≠ .owning child)
    (child : Nat) (stage : ChildStage) (found : gate.children.get? child = some stage)
    (unfinished : stage.ending = none) :
    ∃ other mate, other ≠ id ∧ gate.callers.get? other = some mate ∧
      mate.stage = .owning child := by
  obtain ⟨other, mate, there, holds⟩ := sound.flying child stage found unfinished
  refine ⟨other, mate, ?_, there, holds⟩
  rintro rfl
  exact idle mate child there holds

theorem Sound.child_unknown (sound : gate.Sound) {child : Nat} (later : gate.nextTask ≤ child) :
    gate.children.get? child = none := by
  cases found : gate.children.get? child with
  | none => rfl
  | some stage => exact absurd (sound.knownChild child stage found) (Nat.not_lt.mpr later)

/-- The caller takes the lock and creates its child. -/
theorem Sound.own (sound : gate.Sound) {lock : AsyncLock} {id child count : Nat}
    {caller : Caller} (known : id < count) (below : child < count) (later : gate.nextTask ≤ child)
    (apart : ∀ name stage, gate.shutdownTask = some (name, stage) → name ≠ id)
    (idle : ∀ caller child, gate.callers.get? id = some caller → caller.stage ≠ .owning child)
    (serves : lock.Serves (Function.update gate.role id .holds))
    (doomed : ∀ other, other ≠ id → gate.lock.Doomed other → lock.Doomed other)
    (spared : ∀ other, other ≠ id → gate.lock.Spared other → lock.Spared other)
    (requests : caller.owner.requested = true → caller.owner.cancelling = true)
    (calm : caller.hit = false) (admission : caller.shutdown = false) :
    ({ gate.own lock id caller child with nextTask := count } : AdmissionGate).Sound := by
  have unknown := sound.child_unknown later
  refine sound.call rfl rfl rfl known (later.trans (Nat.le_of_lt below)) apart serves doomed spared
    ?_ ?_ ?_ ?_ ?_
  · constructor
    case requests => exact requests
    case doomed => exact fun absurd => nomatch absurd
    case held =>
        intro _ _ hit
        rw [calm] at hit
        cases hit
    case drains => exact fun absurd => nomatch absurd
    case ended => exact fun _ absurd => nomatch absurd
    case admission =>
        intro closes
        rw [admission] at closes
        cases closes
    case drained => exact fun _ absurd => nomatch absurd
  · intro name stage found
    refine (Dict.get?_set_ne _ _ ?_).trans found
    rintro rfl
    rw [unknown] at found
    cases found
  · intro name stage found
    change (gate.children.set child .created).get? name = some stage at found
    rw [Dict.get?_set] at found
    split at found
    · next same => exact same ▸ below
    · exact (sound.knownChild name stage found).trans_le (later.trans (Nat.le_of_lt below))
  · intro name same
    cases same
    exact ⟨.created, Dict.get?_set_self _ _ _⟩
  · intro name stage found unfinished
    change (gate.children.set child .created).get? name = some stage at found
    rw [Dict.get?_set] at found
    split at found
    · next same => exact .inl (same ▸ rfl)
    · exact .inr (sound.flying_others idle name stage found unfinished)

/-- A call ends, and the lock is left as `lock`. -/
theorem Sound.conclude (sound : gate.Sound) {lock : AsyncLock} {id count : Nat} {caller : Caller}
    {result : CallResult} (known : id < count) (later : gate.nextTask ≤ count)
    (apart : ∀ name stage, gate.shutdownTask = some (name, stage) → name ≠ id)
    (serves : lock.Serves (Function.update gate.role id .outside))
    (doomed : ∀ other, other ≠ id → gate.lock.Doomed other → lock.Doomed other)
    (spared : ∀ other, other ≠ id → gate.lock.Spared other → lock.Spared other)
    (requests : caller.owner.requested = true → caller.owner.cancelling = true)
    (fate : caller.hit = true → result = .cancelled)
    (drained : caller.shutdown = true → Drained gate.shutdownTask)
    (finished : ∀ old child stage, gate.callers.get? id = some old → old.stage = .owning child →
      gate.children.get? child = some stage → stage.ending ≠ none) :
    ({ gate.conclude lock id caller result with nextTask := count } : AdmissionGate).Sound := by
  refine sound.call rfl rfl rfl known later apart serves doomed spared ?_ (fun _ _ found => found)
    (fun child stage found => (sound.knownChild child stage found).trans_le later) ?_ ?_
  · constructor
    case requests => exact requests
    case doomed => exact fun absurd => nomatch absurd
    case held => exact fun _ absurd => nomatch absurd
    case drains => exact fun absurd => nomatch absurd
    case ended =>
        intro now same hit
        cases same
        exact fate hit
    case admission => exact fun _ => rfl
    case drained => exact fun _ _ closes => drained closes
  · exact fun _ absurd => nomatch absurd
  · intro child stage found unfinished
    obtain ⟨other, mate, there, holds⟩ := sound.flying child stage found unfinished
    refine .inr ⟨other, mate, ?_, there, holds⟩
    rintro rfl
    exact finished mate child stage there holds found unfinished

theorem Sound.admission (sound : gate.Sound) (cancelling : Bool) :
    (gate.admission cancelling).Sound := by
  obtain ⟨unknown, outside, apart⟩ := sound.newcomer (Nat.le_refl gate.nextTask)
  have idle : ∀ caller child, gate.callers.get? gate.nextTask = some caller →
      caller.stage ≠ .owning child := by
    intro caller child found
    rw [unknown] at found
    cases found
  unfold AdmissionGate.admission
  dsimp only
  split
  · refine sound.conclude (Nat.lt_succ_self _) (Nat.le_succ _) apart
      (serves_same sound.serves outside) (fun _ _ => id) (fun _ _ => id)
      (fun absurd => nomatch absurd) (fun absurd => nomatch absurd)
      (fun absurd => nomatch absurd) ?_
    intro old child stage found
    rw [unknown] at found
    cases found
  · split
    · next free =>
        exact sound.own (Nat.lt_add_of_pos_right Nat.two_pos) (Nat.lt_succ_self _) (Nat.le_succ _)
          apart idle (sound.serves.take free outside) (fun _ _ => id) (fun _ _ => id)
          (fun absurd => nomatch absurd) rfl rfl
    · next busy =>
        refine sound.call rfl rfl rfl (Nat.lt_succ_self _) (Nat.le_succ _) apart
          (sound.serves.enqueue (eq_false_of_ne_true busy) outside)
          (fun _ different doomed => doomed.enqueue different)
          (fun _ _ spared => spared.enqueue _) ?_ (fun _ _ found => found)
          (fun child stage found => Nat.lt_succ_of_lt (sound.knownChild child stage found))
          (fun _ absurd => nomatch absurd)
          (fun child stage found unfinished =>
            .inr (sound.flying_others idle child stage found unfinished))
        constructor
        case requests => exact fun absurd => nomatch absurd
        case doomed => exact fun _ absurd => nomatch absurd
        case held => exact fun _ absurd => nomatch absurd
        case drains => exact fun absurd => nomatch absurd
        case ended => exact fun _ absurd => nomatch absurd
        case admission => exact fun absurd => nomatch absurd
        case drained => exact fun _ absurd => nomatch absurd

theorem Sound.close (sound : gate.Sound) : gate.close.Sound :=
  ⟨sound.serves, sound.apart, sound.knownCaller, sound.knownChild, sound.knownTask, sound.fits,
    sound.owned, sound.flying, sound.spared, sound.stopped⟩

/-- The shutdown task is created. -/
theorem Sound.summon (sound : gate.Sound) (none : gate.shutdownTask = none) {id count : Nat}
    (later : gate.nextTask ≤ id) (known : id < count) :
    ({ gate with
        shutdownTask := some (id, .created), nextTask := count } : AdmissionGate).Sound := by
  obtain ⟨unknown, outside, _⟩ := sound.newcomer later
  have grown : gate.nextTask ≤ count := later.trans (Nat.le_of_lt known)
  constructor
  case serves =>
      have parts : ({ gate with
          shutdownTask := some (id, .created), nextTask := count } : AdmissionGate).role =
          Function.update gate.role id DrainStage.created.role := by
        refine @role_task gate _ id .created rfl rfl unknown ?_
        intro other before found
        rw [none] at found
        cases found
      exact parts ▸ serves_same sound.serves outside
  case apart =>
      intro name stage found
      cases found
      exact unknown
  case knownCaller =>
      exact fun other mate found => (sound.knownCaller other mate found).trans_le grown
  case knownChild =>
      exact fun child stage found => (sound.knownChild child stage found).trans_le grown
  case knownTask =>
      intro name stage found
      cases found
      exact known
  case fits =>
      intro other mate found
      refine { sound.fits other mate found with drained := ?_ }
      intro result ends closes
      obtain ⟨name, ending, done⟩ := (sound.fits other mate found).drained result ends closes
      rw [none] at done
      cases done
  case owned => exact sound.owned
  case flying => exact sound.flying
  case spared =>
      intro name found
      cases found
  case stopped =>
      have stopped := sound.stopped
      rw [none] at stopped
      exact stopped

theorem Sound.shutdown (sound : gate.Sound) (cancelling : Bool) :
    (gate.shutdown cancelling).Sound := by
  obtain ⟨unknown, outside, apart⟩ := sound.newcomer (Nat.le_refl gate.nextTask)
  have idle : ∀ caller child, gate.callers.get? gate.nextTask = some caller →
      caller.stage ≠ .owning child := by
    intro caller child found
    rw [unknown] at found
    cases found
  have joined : ({ gate.close with
      callers := gate.callers.set gate.nextTask
        ⟨⟨cancelling, false, false⟩, true, .draining, false⟩
      nextTask := gate.nextTask + 1 } : AdmissionGate).Sound := by
    refine sound.call rfl rfl rfl (Nat.lt_succ_self _) (Nat.le_succ _) apart
      (serves_same sound.serves outside) (fun _ _ => id) (fun _ _ => id) ?_ (fun _ _ found => found)
      (fun child stage found => Nat.lt_succ_of_lt (sound.knownChild child stage found))
      (fun _ absurd => nomatch absurd)
      (fun child stage found unfinished =>
        .inr (sound.flying_others idle child stage found unfinished))
    constructor
    case requests => exact fun absurd => nomatch absurd
    case doomed => exact fun absurd => nomatch absurd
    case held => exact fun _ absurd => nomatch absurd
    case drains => exact fun _ absurd => nomatch absurd
    case ended => exact fun _ absurd => nomatch absurd
    case admission => exact fun _ => rfl
    case drained => exact fun _ absurd => nomatch absurd
  unfold AdmissionGate.shutdown
  dsimp only
  split
  · next none =>
      exact joined.summon none (Nat.le_refl _) (Nat.lt_succ_self _)
  · next task stage there =>
      split
      · exact joined
      · next ending done =>
          have over' : Drained gate.shutdownTask := by
            unfold DrainStage.ending at done
            split at done
            · exact ⟨task, _, there⟩
            · cases done
          refine sound.close.conclude (Nat.lt_succ_self _) (Nat.le_succ _) apart
            (serves_same sound.serves outside) (fun _ _ => id) (fun _ _ => id)
            (fun absurd => nomatch absurd) (fun absurd => nomatch absurd) (fun _ => over') ?_
          intro old child stage found
          rw [show gate.close.callers.get? gate.nextTask = none from unknown] at found
          cases found

theorem Sound.cancel (sound : gate.Sound) (id : Nat) : (gate.cancel id).Sound := by
  unfold AdmissionGate.cancel
  cases found : gate.callers.get? id with
  | none => exact sound
  | some caller =>
    obtain ⟨part, apart⟩ := sound.known_apart found
    have fits := sound.fits id caller found
    have known := sound.knownCaller id caller found
    have flies : ∀ child stage, gate.children.get? child = some stage → stage.ending = none →
        caller.stage = .owning child ∨ ∃ other mate, other ≠ id ∧
          gate.callers.get? other = some mate ∧ mate.stage = .owning child := by
      intro child stage there unfinished
      obtain ⟨other, mate, stored, holds⟩ := sound.flying child stage there unfinished
      by_cases same : other = id
      · rw [same, found] at stored
        cases stored
        exact .inl holds
      · exact .inr ⟨other, mate, same, stored, holds⟩
    dsimp only
    split
    · exact sound
    · next waits =>
        refine sound.call rfl rfl rfl known (Nat.le_refl _) apart
          (serves_same (sound.serves.cancel id) part) (fun _ _ doomed => doomed.cancel id)
          (fun _ different spared => spared.cancel different) ?_ (fun _ _ there => there)
          sound.knownChild (fun child holds => sound.owned id caller child found holds) flies
        constructor
        case requests => exact fun _ => rfl
        case doomed => exact fun _ _ => gate.lock.cancel_doomed id
        case held =>
            intro child holds
            rw [show caller.stage = _ from holds] at waits
            cases waits
        case drains =>
            intro drains
            rw [show caller.stage = _ from drains] at waits
            cases waits
        case ended =>
            intro result ends
            rw [show caller.stage = _ from ends] at waits
            cases waits
        case admission => exact fits.admission
        case drained => exact fits.drained
    · next alive waits =>
        refine sound.call rfl rfl rfl known (Nat.le_refl _) apart
          (serves_same sound.serves part) (fun _ _ same => same) (fun _ _ same => same) ?_
          (fun _ _ there => there) sound.knownChild
          (fun child holds => sound.owned id caller child found holds) flies
        constructor
        case requests => exact fun _ => rfl
        case doomed => exact fun absurd => (waits absurd).elim
        case held => exact fun _ _ _ => .inl rfl
        case drains => exact fun _ _ => .inl rfl
        case ended => exact fun result ends => (alive result ends).elim
        case admission => exact fits.admission
        case drained => exact fits.drained

theorem Sound.resumeWaiting (sound : gate.Sound) {id : Nat} {caller : Caller}
    (found : gate.callers.get? id = some caller) (waits : caller.stage = .waiting) :
    (gate.resumeWaiting id caller).Sound := by
  obtain ⟨part, apart⟩ := sound.known_apart found
  have fits := sound.fits id caller found
  have known := sound.knownCaller id caller found
  have safe := sound.serves.sound
  have idle : ∀ old child, gate.callers.get? id = some old → old.stage ≠ .owning child := by
    intro old child there holds
    rw [found] at there
    cases there
    rw [waits] at holds
    cases holds
  have admission : caller.shutdown = false := by
    cases kind : caller.shutdown with
    | false => rfl
    | true =>
      have outside := fits.admission kind
      rw [waits] at outside
      cases outside
  have finished : ∀ old child stage, gate.callers.get? id = some old →
      old.stage = .owning child → gate.children.get? child = some stage → stage.ending ≠ none :=
    fun old child stage there holds => absurd holds (idle old child there)
  unfold AdmissionGate.resumeWaiting
  dsimp only
  split
  · exact sound
  · next cancelled =>
      refine sound.conclude known (Nat.le_refl _) apart (sound.serves.cancelled cancelled)
        (fun _ _ doomed => doomed.resume safe id) (fun _ _ spared => spared.resume safe id)
        fits.requests (fun _ => rfl) ?_ finished
      intro closes
      rw [admission] at closes
      cases closes
  · next acquired =>
      have calm : caller.hit = false := by
        cases hit : caller.hit with
        | false => rfl
        | true => exact absurd acquired (fits.doomed waits hit).not_acquired
      split
      · have served := (sound.serves.acquired acquired).release (Function.update_self _ _ _)
        rw [Function.update_idem] at served
        refine sound.conclude known (Nat.le_refl _) apart served
          (fun _ _ doomed => (doomed.resume safe id).release)
          (fun _ _ spared => (spared.resume safe id).release) fits.requests ?_ ?_ finished
        · intro hit
          rw [calm] at hit
          cases hit
        · intro closes
          rw [admission] at closes
          cases closes
      · exact sound.own (Nat.lt_succ_of_lt known) (Nat.lt_succ_self _) (Nat.le_refl _) apart idle
          (sound.serves.acquired acquired) (fun _ _ doomed => doomed.resume safe id)
          (fun _ _ spared => spared.resume safe id) fits.requests calm admission

/-- A call that observes a task, and is done only after it. -/
theorem Sound.resumeOwned (sound : gate.Sound) {lock : AsyncLock} {id : Nat} {caller : Caller}
    {child : Option Ending} (found : gate.callers.get? id = some caller)
    (alive : ∀ result, caller.stage ≠ .ended result) (moving : caller.stage ≠ .waiting)
    (serves : lock.Serves (Function.update gate.role id .outside))
    (doomed : ∀ other, other ≠ id → gate.lock.Doomed other → lock.Doomed other)
    (spared : ∀ other, other ≠ id → gate.lock.Spared other → lock.Spared other)
    (drained : caller.shutdown = true → child.isSome = true → Drained gate.shutdownTask)
    (finished : child.isSome = true → ∀ name stage, caller.stage = .owning name →
      gate.children.get? name = some stage → stage.ending ≠ none) :
    (gate.resumeOwned lock id caller child).Sound := by
  obtain ⟨part, apart⟩ := sound.known_apart found
  have fits := sound.fits id caller found
  have known := sound.knownCaller id caller found
  have deferred : caller.hit = true →
      caller.owner.requested = true ∨ caller.owner.cancellation = true := by
    intro hit
    cases stage : caller.stage with
    | waiting => exact absurd stage moving
    | owning name => exact fits.held name stage hit
    | draining => exact fits.drains stage hit
    | ended result => exact absurd stage (alive result)
  unfold AdmissionGate.resumeOwned
  dsimp only
  split
  · next waits =>
      obtain ⟨requests, keeps⟩ := Owner.awaitOwned_waits fits.requests waits
      refine sound.call rfl rfl rfl known (Nat.le_refl _) apart (serves_same sound.serves part)
        (fun _ _ same => same) (fun _ _ same => same) ?_ (fun _ _ there => there) sound.knownChild
        (fun name holds => sound.owned id caller name found holds) ?_
      · constructor
        case requests => exact requests
        case doomed => exact fun absurd => (moving absurd).elim
        case held => exact fun _ _ hit => keeps (deferred hit)
        case drains => exact fun _ hit => keeps (deferred hit)
        case ended => exact fun result ends => (alive result ends).elim
        case admission => exact fits.admission
        case drained => exact fits.drained
      · intro name stage there unfinished
        obtain ⟨other, mate, stored, holds⟩ := sound.flying name stage there unfinished
        by_cases same : other = id
        · rw [same, found] at stored
          cases stored
          exact .inl holds
        · exact .inr ⟨other, mate, same, stored, holds⟩
  · next result ends =>
      obtain ⟨done, fate, requests⟩ := Owner.awaitOwned_ends fits.requests ends
      refine sound.conclude known (Nat.le_refl _) apart serves doomed spared requests
        (fun hit => fate (deferred hit)) (fun closes => drained closes done) ?_
      intro old name stage there holds
      rw [found] at there
      cases there
      exact finished done name stage holds

theorem Sound.resume (sound : gate.Sound) (id : Nat) : (gate.resume id).Sound := by
  unfold AdmissionGate.resume
  cases found : gate.callers.get? id with
  | none => exact sound
  | some caller =>
    obtain ⟨part, _⟩ := sound.known_apart found
    have fits := sound.fits id caller found
    dsimp only
    split
    · exact sound
    · next waits => exact sound.resumeWaiting found waits
    · next child holds =>
        rw [holds] at part
        refine sound.resumeOwned found ?_ ?_ (sound.serves.release part)
          (fun _ _ doomed => doomed.release) (fun _ _ spared => spared.release) ?_ ?_
        · intro result ends
          rw [holds] at ends
          cases ends
        · intro waits
          rw [holds] at waits
          cases waits
        · intro closes
          have outside := fits.admission closes
          rw [holds] at outside
          cases outside
        · intro done name stage same there none
          rw [holds] at same
          cases same
          rw [there, Option.bind_some, none] at done
          cases done
    · next drains =>
        rw [drains] at part
        refine sound.resumeOwned found ?_ ?_ (serves_same sound.serves part)
          (fun _ _ same => same) (fun _ _ same => same) ?_ ?_
        · intro result ends
          rw [drains] at ends
          cases ends
        · intro waits
          rw [drains] at waits
          cases waits
        · intro _ done
          cases task : gate.shutdownTask with
          | none =>
            rw [task] at done
            cases done
          | some pair =>
            obtain ⟨name, stage⟩ := pair
            rw [task, Option.bind_some] at done
            cases stage with
            | done ending => exact ⟨name, ending, rfl⟩
            | created | waiting | stopping => cases done
        · intro _ name stage same
          rw [drains] at same
          cases same

/-- A child goes on. -/
theorem Sound.child (sound : gate.Sound) {child : Nat} {before stage : ChildStage}
    (found : gate.children.get? child = some before) (unfinished : before.ending = none)
    (begun : List Nat) :
    ({ gate with children := gate.children.set child stage, begun := begun } :
      AdmissionGate).Sound := by
  constructor
  case serves => exact sound.serves
  case apart => exact sound.apart
  case knownCaller => exact sound.knownCaller
  case knownChild =>
      intro name now there
      rw [Dict.get?_set] at there
      split at there
      · next same => exact same ▸ sound.knownChild child before found
      · exact sound.knownChild name now there
  case knownTask => exact sound.knownTask
  case fits => exact sound.fits
  case owned =>
      intro id caller name stored holds
      obtain ⟨old, there⟩ := sound.owned id caller name stored holds
      rw [Dict.get?_set]
      split
      · exact ⟨stage, rfl⟩
      · exact ⟨old, there⟩
  case flying =>
      intro name now there open'
      rw [Dict.get?_set] at there
      split at there
      · next same => exact same ▸ sound.flying child before found unfinished
      · exact sound.flying name now there open'
  case spared => exact sound.spared
  case stopped => exact sound.stopped

theorem Sound.drain (sound : gate.Sound) : gate.drain.Sound := by
  unfold AdmissionGate.drain
  split
  · next id there =>
      have unknown := sound.apart id _ there
      have outside : gate.role id = .outside := by
        unfold role
        rw [unknown, there]
        exact if_pos rfl
      have fresh : id ∉ gate.lock.tasks := by
        rw [sound.serves.queued, outside]
        exact LockRole.noConfusion
      have count := sound.stopped
      rw [there] at count
      split
      · next free =>
          exact sound.task there rfl rfl rfl rfl rfl (sound.serves.take free outside)
            (fun _ _ same => same) (fun absurd => nomatch absurd) (congrArg Nat.succ count)
      · next busy =>
          refine sound.task there rfl rfl rfl rfl rfl
            (sound.serves.enqueue (eq_false_of_ne_true busy) outside)
            (fun _ different doomed => doomed.enqueue different) ?_ count
          intro _
          refine AsyncLock.Spared.enqueue ?_ id
          intro waiter among named
          exact absurd (named ▸ List.mem_map_of_mem among) fresh
  · next id there =>
      have spared := sound.spared id there
      have safe := sound.serves.sound
      have count := sound.stopped
      rw [there] at count
      dsimp only
      split
      · exact sound
      · next cancelled => exact absurd cancelled spared.not_cancelled
      · next acquired =>
          exact sound.task there rfl rfl rfl rfl rfl (sound.serves.acquired acquired)
            (fun _ _ doomed => doomed.resume safe id) (fun absurd => nomatch absurd)
            (congrArg Nat.succ count)
  · exact sound

theorem Sound.halt (sound : gate.Sound) (ending : Ending) : (gate.stopped ending).Sound := by
  unfold AdmissionGate.stopped
  split
  · next id there =>
      have unknown := sound.apart id _ there
      have holds : gate.role id = .holds := by
        unfold role
        rw [unknown, there]
        exact if_pos rfl
      have count := sound.stopped
      rw [there] at count
      exact sound.task there rfl rfl rfl rfl rfl (sound.serves.release holds)
        (fun _ _ doomed => doomed.release) (fun absurd => nomatch absurd) count
  · exact sound

theorem Sound.step (sound : gate.Sound) (label : GateLabel) : (gate.step label).Sound := by
  cases label with
  | admission cancelling => exact sound.admission cancelling
  | close => exact sound.close
  | shutdown cancelling => exact sound.shutdown cancelling
  | cancel id => exact sound.cancel id
  | resume id => exact sound.resume id
  | start child =>
    show (gate.start child).Sound
    unfold AdmissionGate.start
    split
    · next found => exact sound.child found rfl _
    · exact sound
  | finish child ending =>
    show (gate.finish child ending).Sound
    unfold AdmissionGate.finish
    split
    · next found => exact sound.child found rfl gate.begun
    · exact sound
  | drain => exact sound.drain
  | stopped ending => exact sound.halt ending

theorem run_sound (labels : List GateLabel) : (run step initial labels).Sound :=
  run_keeps AdmissionGate.Sound (fun _ label sound => sound.step label) initial_sound labels

/-- A child in flight has its caller, who holds the lock. -/
theorem Sound.owner (sound : gate.Sound) {child : Nat} {stage : ChildStage}
    (found : gate.children.get? child = some stage) (unfinished : stage.ending = none) :
    ∃ id caller, gate.callers.get? id = some caller ∧ caller.stage = .owning child ∧
      gate.role id = .holds := by
  obtain ⟨id, caller, there, holds⟩ := sound.flying child stage found unfinished
  refine ⟨id, caller, there, holds, ?_⟩
  rw [(sound.known_apart there).1, holds]
  rfl

theorem Sound.one_child (sound : gate.Sound) {child other : Nat} {stage mate : ChildStage}
    (found : gate.children.get? child = some stage) (also : gate.children.get? other = some mate)
    (unfinished : stage.ending = none) (too : mate.ending = none) : child = other := by
  obtain ⟨id, caller, there, holds, mine⟩ := sound.owner found unfinished
  obtain ⟨name, second, here, owns, yours⟩ := sound.owner also too
  obtain rfl := sound.serves.alone id name mine yours
  rw [there] at here
  cases here
  rw [holds] at owns
  cases owns
  rfl

theorem Sound.stop_alone (sound : gate.Sound) {id child : Nat} {stage : ChildStage}
    (stopping : gate.shutdownTask = some (id, .stopping))
    (found : gate.children.get? child = some stage) : stage.ending ≠ none := by
  intro unfinished
  obtain ⟨name, caller, there, _, holds⟩ := sound.owner found unfinished
  have mine : gate.role id = .holds := by
    unfold role
    rw [sound.apart id _ stopping, stopping]
    exact if_pos rfl
  obtain rfl := sound.serves.alone id name mine holds
  rw [sound.apart id _ stopping] at there
  cases there

/-- No task has anything left to do. -/
structure Quiet (gate : AdmissionGate) : Prop where
  resume : ∀ id, gate.resume id = gate
  start : ∀ child, gate.start child = gate
  finish : ∀ child ending, gate.finish child ending = gate
  drain : gate.drain = gate
  stopped : ∀ ending, gate.stopped ending = gate

theorem awaitOwned_done (owner : Owner) (ending : Ending) :
    ∃ result, (owner.awaitOwned (some ending)).2 = some result := by
  unfold Owner.awaitOwned
  split
  · exact ⟨_, rfl⟩
  · cases ending with
    | returned | raised | cancelled => exact ⟨_, rfl⟩

/-- A caller with the lock is not the end of a run. -/
theorem Quiet.not_owning (quiet : gate.Quiet) (sound : gate.Sound) {id child : Nat}
    {caller : Caller} (found : gate.callers.get? id = some caller) :
    caller.stage ≠ .owning child := by
  intro holds
  obtain ⟨stage, there⟩ := sound.owned id caller child found holds
  cases stage with
  | created =>
    have same := quiet.start child
    unfold AdmissionGate.start at same
    rw [if_pos there] at same
    have now := congrArg (fun gate => gate.children.get? child) same
    dsimp only at now
    rw [Dict.get?_set_self, there] at now
    cases now
  | running =>
    have same := quiet.finish child .returned
    unfold AdmissionGate.finish at same
    rw [if_pos there] at same
    have now := congrArg (fun gate => gate.children.get? child) same
    dsimp only at now
    rw [Dict.get?_set_self, there] at now
    cases now
  | done ending =>
    obtain ⟨result, ends⟩ := awaitOwned_done caller.owner ending
    have same := quiet.resume id
    unfold AdmissionGate.resume at same
    rw [found] at same
    dsimp only at same
    rw [holds] at same
    dsimp only at same
    rw [there, Option.bind_some] at same
    unfold AdmissionGate.resumeOwned at same
    rw [show ChildStage.ending (.done ending) = some ending from rfl] at same
    dsimp only at same
    rw [ends] at same
    have now := congrArg (fun gate => gate.callers.get? id) same
    dsimp only [conclude] at now
    rw [Dict.get?_set_self, found] at now
    have stage := congrArg Caller.stage (Option.some.inj now)
    rw [holds] at stage
    cases stage

/-- A free lock is not the end of a run with somebody in the deque. -/
theorem Quiet.waits (quiet : gate.Quiet) (sound : gate.Sound) {id : Nat}
    (waits : gate.role id = .waits) : (gate.lock.resume id).2 = .waits := by
  unfold role at waits
  cases found : gate.callers.get? id with
  | some caller =>
    rw [found] at waits
    have stage := CallStage.waiting_of_role waits
    have same := quiet.resume id
    unfold AdmissionGate.resume at same
    rw [found] at same
    dsimp only at same
    rw [stage] at same
    dsimp only at same
    unfold AdmissionGate.resumeWaiting at same
    have moved : ∀ next : AdmissionGate, next = gate → ∀ mate,
        next.callers.get? id = some mate → mate.stage = .waiting := by
      rintro next rfl mate there
      rw [found] at there
      cases there
      exact stage
    dsimp only at same
    split at same
    · assumption
    · have absurd := moved _ same _ (Dict.get?_set_self _ _ _)
      cases absurd
    · split at same
      · have absurd := moved _ same _ (Dict.get?_set_self _ _ _)
        cases absurd
      · have absurd := moved _ same _ (Dict.get?_set_self _ _ _)
        cases absurd
  | none =>
    rw [found] at waits
    cases task : gate.shutdownTask with
    | none =>
      rw [task] at waits
      cases waits
    | some pair =>
      obtain ⟨name, stage⟩ := pair
      rw [task] at waits
      dsimp only at waits
      split at waits
      · next same =>
          subst same
          have waiting := DrainStage.waiting_of_role waits
          have same := quiet.drain
          unfold AdmissionGate.drain at same
          rw [task, waiting] at same
          dsimp only at same
          split at same
          · assumption
          · have now := congrArg AdmissionGate.shutdownTask same
            rw [task, waiting] at now
            cases now
          · have now := congrArg AdmissionGate.shutdownTask same
            rw [task, waiting] at now
            cases now
      · cases waits

/-- Once a shutdown was asked for, no run comes to rest before the stop callback. -/
theorem Sound.rests (sound : gate.Sound) (quiet : gate.Quiet) {id : Nat} {stage : DrainStage}
    (there : gate.shutdownTask = some (id, stage)) : gate.stops = 1 := by
  have unknown := sound.apart id stage there
  have count := sound.stopped
  rw [there] at count
  cases stage with
  | stopping | done => exact count
  | created =>
    have same := quiet.drain
    unfold AdmissionGate.drain at same
    rw [there] at same
    dsimp only at same
    split at same
    · have now := congrArg AdmissionGate.shutdownTask same
      rw [there] at now
      cases now
    · have now := congrArg AdmissionGate.shutdownTask same
      rw [there] at now
      cases now
  | waiting =>
    have mine : gate.role id = .waits := by
      unfold role
      rw [unknown, there]
      exact if_pos rfl
    have among := (sound.serves.queued id).mpr mine
    cases locked : gate.lock.locked with
    | false =>
      obtain ⟨first, there, moves⟩ :=
        sound.serves.sound.head_moves locked (List.ne_nil_of_mem among)
      exact absurd (quiet.waits sound ((sound.serves.queued first).mp there)) moves
    | true =>
      obtain ⟨holder, holds⟩ := sound.serves.busy locked
      unfold role at holds
      cases found : gate.callers.get? holder with
      | some caller =>
        rw [found] at holds
        obtain ⟨child, owns⟩ := CallStage.owning_of_role holds
        exact absurd owns (quiet.not_owning sound found)
      | none =>
        rw [found, there] at holds
        dsimp only at holds
        split at holds
        · cases holds
        · cases holds

/-- A closed gate stays closed, and creates no child. -/
theorem step_closed (label : GateLabel) (closed : gate.closed = true) :
    (gate.step label).closed = true ∧
      ∀ child, gate.children.get? child = none → (gate.step label).children.get? child = none := by
  have concluded : ∀ lock id caller result, (gate.conclude lock id caller result).closed = true ∧
      ∀ child, gate.children.get? child = none →
        (gate.conclude lock id caller result).children.get? child = none :=
    fun _ _ _ _ => ⟨closed, fun _ same => same⟩
  have same : gate.closed = true ∧
      ∀ child, gate.children.get? child = none → gate.children.get? child = none :=
    ⟨closed, fun _ same => same⟩
  cases label with
  | admission cancelling =>
    unfold AdmissionGate.step AdmissionGate.admission
    dsimp only
    rw [if_pos closed]
    exact ⟨closed, fun _ missing => missing⟩
  | close => exact ⟨rfl, fun _ same => same⟩
  | shutdown cancelling =>
    unfold AdmissionGate.step AdmissionGate.shutdown
    dsimp only
    split
    · exact ⟨rfl, fun _ same => same⟩
    · split
      · exact ⟨rfl, fun _ same => same⟩
      · exact ⟨rfl, fun _ same => same⟩
  | cancel id =>
    unfold AdmissionGate.step AdmissionGate.cancel
    dsimp only
    split
    · exact same
    · split
      · exact same
      · exact same
      · exact same
  | resume id =>
    have owned : ∀ lock caller ending, (gate.resumeOwned lock id caller ending).closed = true ∧
        ∀ child, gate.children.get? child = none →
          (gate.resumeOwned lock id caller ending).children.get? child = none := by
      intro lock caller ending
      unfold AdmissionGate.resumeOwned
      dsimp only
      split
      · exact same
      · exact concluded ..
    unfold AdmissionGate.step AdmissionGate.resume
    dsimp only
    split
    · exact same
    · split
      · exact same
      · unfold AdmissionGate.resumeWaiting
        dsimp only
        split
        · exact same
        · exact concluded ..
        · rw [if_pos closed]
          exact concluded ..
      · exact owned ..
      · exact owned ..
  | start child =>
    unfold AdmissionGate.step AdmissionGate.start
    dsimp only
    split
    · next found =>
        refine ⟨closed, fun other missing => (Dict.get?_set_ne _ _ ?_).trans missing⟩
        rintro rfl
        rw [found] at missing
        cases missing
    · exact same
  | finish child ending =>
    unfold AdmissionGate.step AdmissionGate.finish
    dsimp only
    split
    · next found =>
        refine ⟨closed, fun other missing => (Dict.get?_set_ne _ _ ?_).trans missing⟩
        rintro rfl
        rw [found] at missing
        cases missing
    · exact same
  | drain =>
    unfold AdmissionGate.step AdmissionGate.drain
    dsimp only
    split
    · split
      · exact same
      · exact same
    · split
      · exact same
      · exact same
      · exact same
    · exact same
  | stopped ending =>
    unfold AdmissionGate.step AdmissionGate.stopped
    dsimp only
    split
    · exact same
    · exact same

/-- No child appears after the gate was closed. -/
theorem run_closed {child : Nat} (labels : List GateLabel) (closed : gate.closed = true)
    (missing : gate.children.get? child = none) :
    (run step gate labels).children.get? child = none :=
  (run_keeps (fun gate : AdmissionGate => gate.closed = true ∧ gate.children.get? child = none)
    (fun _ label good => ⟨(step_closed label good.1).1, (step_closed label good.1).2 child good.2⟩)
    ⟨closed, missing⟩ labels).2

end AdmissionGate

open AdmissionGate in
/-- One admission is in flight at a time, and until it is done its caller keeps the lock;
a caller that was cancelled gets its cancellation; a closed gate admits nobody; the stop
callback is begun once at most, never while an admission is in flight, before any call of
`shutdown` ends, and in every run that asks for it and comes to rest. -/
theorem admissions_are_owned (labels : List GateLabel) :
    let gate := run step initial labels
    (∀ child other stage mate, gate.children.get? child = some stage →
      gate.children.get? other = some mate → stage.ending = none → mate.ending = none →
      child = other) ∧
    (∀ child stage, gate.children.get? child = some stage → stage.ending = none →
      gate.lock.locked = true ∧ ∃ id caller, gate.callers.get? id = some caller ∧
        caller.stage = .owning child) ∧
    (∀ id caller result, gate.callers.get? id = some caller → caller.stage = .ended result →
      caller.hit = true → result = .cancelled) ∧
    (∀ more child, gate.closed = true → gate.children.get? child = none →
      (run step initial (labels ++ more)).children.get? child = none) ∧
    gate.stops ≤ 1 ∧
    (∀ id child stage, gate.shutdownTask = some (id, .stopping) →
      gate.children.get? child = some stage → stage.ending ≠ none) ∧
    (∀ id caller result, gate.callers.get? id = some caller → caller.shutdown = true →
      caller.stage = .ended result → gate.stops = 1) ∧
    (gate.shutdownTask ≠ none → gate.Quiet → gate.stops = 1) := by
  have sound := run_sound labels
  refine ⟨fun _ _ _ _ found also => sound.one_child found also, ?_, ?_, ?_, ?_, ?_, ?_, ?_⟩
  · intro child stage found unfinished
    obtain ⟨id, caller, there, holds, mine⟩ := sound.owner found unfinished
    exact ⟨sound.serves.held id mine, id, caller, there, holds⟩
  · exact fun id caller result found ends => (sound.fits id caller found).ended result ends
  · intro more child closed missing
    rw [run_append]
    exact run_closed more closed missing
  · rw [sound.stopped]
    unfold stopsAt
    split
    · exact Nat.le_refl 1
    · exact Nat.le_refl 1
    · exact Nat.zero_le 1
  · exact fun _ _ _ stopping found => sound.stop_alone stopping found
  · intro id caller result found closes ends
    obtain ⟨task, ending, done⟩ := (sound.fits id caller found).drained result ends closes
    rw [sound.stopped, done]
    rfl
  · intro asked quiet
    obtain ⟨pair, there⟩ := Option.ne_none_iff_exists'.mp asked
    exact sound.rests quiet there

open AdmissionGate in
/-- A child that was created before the gate was closed takes its first step after it. -/
theorem operation_begins_after_close :
    let gate := run step initial [.admission false, .close]
    gate.closed = true ∧ gate.begun = [] ∧ (gate.step (.start 1)).begun = [1] := by
  decide +kernel

end BobbyBotique.Webhook
