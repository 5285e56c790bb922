import BobbyBotique.Foundation.AsyncSemaphore
import BobbyBotique.Games.BudgetWindow

/-!
# The game AI budget

The managers of any number of processes over one Redis, or each alone.  An admission runs
from gate to gate without a pause, but for the script of the window and a foreground wait
for a permit.  Scripts may run late and again.  Leases, cooldowns and semaphores belong to
one process.
-/

namespace BobbyBotique.Games.Budget

/-! ## Limits -/

/-- What `_normalize_provider` leaves. -/
inductive Provider where
  | aiStudio
  | vertexExpress
  | opencodeGo
  | openrouter
  deriving DecidableEq, Repr

/-- `_rpm_limit`. -/
def rpmLimit (scope : BudgetScope) (provider : Provider) (model : String) : Option Nat :=
  match provider, scope with
  | .aiStudio, .background => some (if model = "gemini-3.1-flash-lite" then 2 else 0)
  | .aiStudio, .foreground => some
      (if model = "gemini-3.5-flash" then 4
        else if model = "gemini-3.1-flash-lite" then 14 else 1)
  | _, _ => none

/-- The limit of a scope where Gemini models have one. -/
def modelLimit (scope : BudgetScope) (model : String) : Nat :=
  (rpmLimit scope .aiStudio model).getD 0

theorem modelLimit_le (scope : BudgetScope) (model : String) :
    modelLimit scope model ≤ modelLimit .foreground model := by
  cases scope with
  | foreground => exact le_rfl
  | background =>
    simp only [modelLimit, rpmLimit, Option.getD_some]
    split
    · next lite => subst lite; decide
    · exact Nat.zero_le _

/-- `_LOCAL_CONCURRENCY_LIMITS`. -/
def concurrencyLimit : BudgetScope → Provider → Nat
  | .foreground, .aiStudio => 3
  | .foreground, .vertexExpress => 6
  | .foreground, .opencodeGo => 4
  | .foreground, .openrouter => 4
  | .background, _ => 1

/-! ## A process -/

structure CooldownState where
  provider : Provider
  model : String
  cooldownUntil : ℚ
  reason : List Char
  lastRetryAfterSeconds : Int

structure Lease where
  scope : BudgetScope
  provider : Provider
  released : Bool

/-- A lease as it was granted: the unreleased foreground leases of its process then, and
whether a cooldown was in force. -/
structure Grant where
  scope : BudgetScope
  active : Nat
  cooled : Bool
  deriving DecidableEq

structure Manager where
  windows : String → LocalWindow
  cooldowns : Dict (Provider × String) CooldownState
  semaphores : BudgetScope → Provider → AsyncSemaphore
  foregroundActive : Nat
  leases : List Lease
  grants : List Grant
  wall : ℚ
  monotonic : ℚ

inductive Outcome where
  | success
  | rateLimit
  | other
  deriving DecidableEq

namespace Manager

/-- A new manager; a semaphore is made at its first use. -/
def fresh (wall monotonic : ℚ) : Manager where
  windows _ := .absent
  cooldowns := .empty
  semaphores scope provider := .create (concurrencyLimit scope provider)
  foregroundActive := 0
  leases := []
  grants := []
  wall := wall
  monotonic := monotonic

variable (manager : Manager)

/-- The unreleased leases of a kind. -/
def unreleased (scope : BudgetScope) (provider : Provider) : Nat :=
  manager.leases.countP fun lease =>
    decide (lease.scope = scope ∧ lease.provider = provider ∧ lease.released = false)

def activeForeground : Nat :=
  manager.leases.countP fun lease =>
    decide (lease.scope = .foreground ∧ lease.released = false)

/-- A cooldown of `ai_studio` is in force. -/
def cooled : Bool :=
  manager.cooldowns.values.any fun state =>
    decide (state.provider = .aiStudio) && decide (manager.monotonic < state.cooldownUntil)

/-- `_prune_expired_cooldowns`. -/
def pruneExpired : Manager :=
  { manager with
    cooldowns := manager.cooldowns.retain fun _ state =>
      decide (manager.monotonic < state.cooldownUntil) }

/-- `should_pause_background_prefetch`. -/
def shouldPause : Manager × Bool :=
  if 0 < manager.foregroundActive then (manager, true)
  else (manager.pruneExpired, manager.pruneExpired.cooled)

/-- `is_model_cooldown_active`. -/
def modelCooled (provider : Provider) (model : String) : Manager × Bool :=
  (manager.pruneExpired, match manager.pruneExpired.cooldowns.get? (provider, model) with
    | some state => decide (manager.monotonic < state.cooldownUntil)
    | none => false)

/-- The gates before the window. -/
def gate (scope : BudgetScope) (provider : Provider) (model : String) : Manager × Bool :=
  let (paused, pause) := if scope = .background then manager.shouldPause else (manager, false)
  if pause then (paused, false)
  else if provider = .aiStudio then
    let (checked, active) := paused.modelCooled provider model
    (checked, !active)
  else (paused, true)

def withSemaphore (scope : BudgetScope) (provider : Provider) (semaphore : AsyncSemaphore) :
    Manager :=
  { manager with
    semaphores := fun kind family =>
      if kind = scope ∧ family = provider then semaphore else manager.semaphores kind family }

/-- The lease, after its permit. -/
def grant (scope : BudgetScope) (provider : Provider) : Manager :=
  { manager with
    foregroundActive := manager.foregroundActive + if scope = .foreground then 1 else 0
    leases := manager.leases ++ [⟨scope, provider, false⟩]
    grants := manager.grants ++ [⟨scope, manager.activeForeground, manager.cooled⟩] }

/-- The end of `acquire`: a background admission does not wait. -/
def enter (scope : BudgetScope) (provider : Provider) : Manager :=
  if scope = .background ∧ (manager.semaphores scope provider).locked = true then manager
  else
    let (semaphore, through) := (manager.semaphores scope provider).acquire
    let waiting := manager.withSemaphore scope provider semaphore
    if through then waiting.grant scope provider else waiting

/-- The task of a foreground waiter runs on. -/
def resume (provider : Provider) (place : Nat) : Manager :=
  let (semaphore, resumed) := (manager.semaphores .foreground provider).resume place
  let waiting := manager.withSemaphore .foreground provider semaphore
  if resumed = .acquired then waiting.grant .foreground provider else waiting

/-- A foreground waiter is cancelled, or its quarter of a second is over. -/
def cancel (provider : Provider) (place : Nat) : Manager :=
  manager.withSemaphore .foreground provider
    ((manager.semaphores .foreground provider).cancel place)

/-- `BudgetLease.release`. -/
def release (place : Nat) : Manager :=
  match manager.leases[place]? with
  | none => manager
  | some lease =>
    if lease.released then manager
    else
      let freed := manager.withSemaphore lease.scope lease.provider
        (manager.semaphores lease.scope lease.provider).release
      { freed with
        leases := manager.leases.set place { lease with released := true }
        foregroundActive :=
          if lease.scope = .foreground ∧ 0 < manager.foregroundActive then
            manager.foregroundActive - 1
          else manager.foregroundActive }

/-- `max(15, min(retry_after_seconds or 60, 300))`. -/
def waitSeconds (retryAfter : Option Int) : Int :=
  let asked := retryAfter.getD 0
  max 15 (min (if asked = 0 then 60 else asked) 300)

/-- `record_result`. -/
def recordResult (provider : Provider) (model : String) (outcome : Outcome)
    (retryAfter : Option Int) (reason : List Char) : Manager :=
  if provider ≠ .aiStudio then manager
  else
    match outcome with
    | .success =>
      pruneExpired { manager with cooldowns := manager.cooldowns.del (provider, model) }
    | .other => manager
    | .rateLimit =>
      let wait := waitSeconds retryAfter
      let until' := manager.monotonic + wait
      let stands := match manager.cooldowns.get? (provider, model) with
        | some current => decide (until' ≤ current.cooldownUntil)
        | none => false
      if stands then manager
      else
        { manager with
          cooldowns := manager.cooldowns.set (provider, model)
            { provider := provider
              model := model
              cooldownUntil := until'
              reason := (if reason = [] then "rate_limit".toList else reason).take 500
              lastRetryAfterSeconds := wait } }

/-- `_try_consume_window` without Redis. -/
def consumeLocal (scope : BudgetScope) (model : String) (limit : Nat) : Manager × Bool :=
  let (window, admitted) := (manager.windows model).tryConsume manager.wall scope limit
  ({ manager with windows := Function.update manager.windows model window }, admitted)

end Manager

/-! ## The system -/

/-- A call of the script: its task waits for the answer; `replies` are those of the runs. -/
structure Call where
  process : Nat
  scope : BudgetScope
  model : String
  token : Providers.Token
  limit : Nat
  waiting : Bool
  replies : List Bool

structure State where
  clock : ℚ
  windows : String → ModelWindow
  calls : List Call
  managers : Nat → Manager

inductive Label where
  | redisClock (elapsed : ℚ≥0)
  | processClocks (process : Nat) (wall monotonic : ℚ≥0)
  | acquire (process : Nat) (scope : BudgetScope) (provider : Provider) (model : String)
      (token : Providers.Token)
  | execute (call : Nat)
  /-- The task runs on with a reply, or with an exception or its cancellation. -/
  | answer (call : Nat) (reply : Option Bool)
  | resume (process : Nat) (provider : Provider) (place : Nat)
  | cancel (process : Nat) (provider : Provider) (place : Nat)
  | release (process place : Nat)
  | recordResult (process : Nat) (provider : Provider) (model : String) (outcome : Outcome)
      (retryAfter : Option Int) (reason : List Char)

namespace State

def initial (clock : ℚ) (clocks : Nat → ℚ × ℚ) : State :=
  ⟨clock, fun _ => .absent, [], fun process => .fresh (clocks process).1 (clocks process).2⟩

def withManager (state : State) (process : Nat) (manager : Manager) : State :=
  { state with managers := Function.update state.managers process manager }

/-- `acquire` up to its first pause; `uuid4` draws no token twice. -/
def acquire (redis : Bool) (state : State) (process : Nat) (scope : BudgetScope)
    (provider : Provider) (model : String) (token : Providers.Token) : State :=
  let (manager, passed) := (state.managers process).gate scope provider model
  if passed then
    match rpmLimit scope provider model with
    | none => state.withManager process (manager.enter scope provider)
    | some 0 => state.withManager process manager
    | some limit =>
      if redis then
        if token ∈ state.calls.map Call.token then state
        else
          { state.withManager process manager with
            calls := state.calls ++ [⟨process, scope, model, token, limit, true, []⟩] }
      else
        let (spent, admitted) := manager.consumeLocal scope model limit
        state.withManager process (if admitted then spent.enter scope provider else spent)
  else state.withManager process manager

/-- A run of the script of a call, the first or a later one. -/
def execute (state : State) (place : Nat) : State :=
  match state.calls[place]? with
  | none => state
  | some call =>
    let (window, reply) :=
      (state.windows call.model).consume state.clock call.scope call.limit call.token
    { state with
      windows := Function.update state.windows call.model window
      calls := state.calls.set place { call with replies := call.replies ++ [reply] } }

/-- The task of a call runs on. -/
def answer (state : State) (place : Nat) (reply : Option Bool) : State :=
  match state.calls[place]? with
  | none => state
  | some call =>
    if call.waiting = true ∧ ∀ heard ∈ reply, heard ∈ call.replies then
      let ends := { state with calls := state.calls.set place { call with waiting := false } }
      if reply = some true then
        ends.withManager call.process
          ((state.managers call.process).enter call.scope .aiStudio)
      else ends
    else state

def step (redis : Bool) (state : State) : Label → State
  | .redisClock elapsed => { state with clock := state.clock + elapsed }
  | .processClocks process wall monotonic =>
    let manager := state.managers process
    state.withManager process
      { manager with
        wall := manager.wall + wall
        monotonic := manager.monotonic + monotonic }
  | .acquire process scope provider model token =>
    state.acquire redis process scope provider model token
  | .execute call => state.execute call
  | .answer call reply => state.answer call reply
  | .resume process provider place =>
    state.withManager process ((state.managers process).resume provider place)
  | .cancel process provider place =>
    state.withManager process ((state.managers process).cancel provider place)
  | .release process place => state.withManager process ((state.managers process).release place)
  | .recordResult process provider model outcome retryAfter reason =>
    state.withManager process
      ((state.managers process).recordResult provider model outcome retryAfter reason)

end State

end BobbyBotique.Games.Budget
