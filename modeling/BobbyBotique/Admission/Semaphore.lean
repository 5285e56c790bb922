import BobbyBotique.Foundation.Dict
import BobbyBotique.Foundation.Run
import Mathlib.Data.Rat.Defs
import Mathlib.Tactic.Linarith

/-!
# The distributed admission semaphore

The parties of `GlobalLLMSemaphore`: one Redis server that keeps the sorted set
of admitted tokens, and any number of processes whose scopes send admission,
renewal and release commands.  A command that was sent may be executed at any
later moment, more than once or never, and its reply may arrive at any later
moment or never.  Instants are exact rationals; a process reads the server's
clock plus an offset of its own.
-/

namespace BobbyBotique.Admission

abbrev Token := String
abbrev Process := Nat

inductive SlotCommand where
  | admitSlot
  | renewSlot
  | release
  deriving DecidableEq, Repr

/-- A command on its way to the server, with the local instant before it was sent. -/
structure Request where
  command : SlotCommand
  token : Token
  started : ℚ
  deriving DecidableEq, Repr

/-- A reply and the number of the request it answers. -/
structure Reply where
  number : Nat
  request : Request
  value : Nat
  deriving DecidableEq, Repr

inductive Mode where
  | distributed
  | localFallback
  deriving DecidableEq, Repr

/-- Where a scope is: in `_acquire`, in the body of `async with`, or past the
start of `__aexit__`. -/
inductive Phase where
  | acquiring
  | inside
  | leaving
  deriving DecidableEq, Repr

/-- `_SemaphoreScope`, with the request its coroutine awaits. -/
structure SemaphoreScope where
  process : Process
  deadline : ℚ
  phase : Phase
  awaiting : Option Nat
  renewing : Bool
  lastConfirmed : Option ℚ
  leaseLost : Bool
  mode : Mode
  deriving DecidableEq, Repr

/-- The constructor arguments, equal in every process, and the local clocks. -/
structure Config where
  limit : Nat
  timeout : ℚ
  leaseTtl : ℚ
  offset : Process → ℚ

structure Network where
  clock : ℚ
  slots : Dict Token ℚ
  scopes : Dict Token SemaphoreScope
  requests : List Request
  replies : List Reply

namespace Network

def start (clock : ℚ) : Network := ⟨clock, .empty, .empty, [], []⟩

def send (net : Network) (request : Request) : Network :=
  { net with requests := net.requests ++ [request] }

def setScope (net : Network) (token : Token) (scope : SemaphoreScope) : Network :=
  { net with scopes := net.scopes.set token scope }

/-- The server has executed the release of this token. -/
def released (net : Network) (token : Token) : Prop :=
  ∃ reply ∈ net.replies, reply.request.token = token ∧ reply.request.command = .release

instance (net : Network) (token : Token) : Decidable (net.released token) :=
  inferInstanceAs (Decidable (∃ reply ∈ net.replies, _))

end Network

/-! ## The server -/

/-- `ZREMRANGEBYSCORE key 0 bound`. -/
def zremrangebyscore (slots : Dict Token ℚ) (bound : ℚ) : Dict Token ℚ :=
  slots.retain fun _ score => !(decide (0 ≤ score) && decide (score ≤ bound))

/-- `_ADMIT_SLOT`. -/
def admitSlot (slots : Dict Token ℚ) (now leaseTtl : ℚ) (limit : Nat) (token : Token) :
    Dict Token ℚ × Nat :=
  let kept := zremrangebyscore slots (now - leaseTtl)
  if limit ≤ kept.keys.length then (kept, 0) else (kept.set token now, 1)

/-- `_RENEW_SLOT`. -/
def renewSlot (slots : Dict Token ℚ) (now : ℚ) (token : Token) : Dict Token ℚ × Nat :=
  match slots.get? token with
  | none => (slots, 0)
  | some _ => (slots.set token now, 1)

/-- `ZREM key token`. -/
def zrem (slots : Dict Token ℚ) (token : Token) : Dict Token ℚ × Nat :=
  (slots.del token, if slots.contains token then 1 else 0)

def serve (config : Config) (slots : Dict Token ℚ) (now : ℚ) (request : Request) :
    Dict Token ℚ × Nat :=
  match request.command with
  | .admitSlot => admitSlot slots now config.leaseTtl config.limit request.token
  | .renewSlot => renewSlot slots now request.token
  | .release => zrem slots request.token

/-! ## The scopes -/

namespace SemaphoreScope

/-- `time.monotonic()` in the scope's process. -/
def now (scope : SemaphoreScope) (config : Config) (clock : ℚ) : ℚ :=
  clock + config.offset scope.process

/-- `scope.last_confirmed + self._lease_ttl` has not passed. -/
def safe (scope : SemaphoreScope) (config : Config) (clock : ℚ) : Prop :=
  ∃ confirmed ∈ scope.lastConfirmed, scope.now config clock < confirmed + config.leaseTtl

instance (scope : SemaphoreScope) (config : Config) (clock : ℚ) :
    Decidable (scope.safe config clock) :=
  inferInstanceAs (Decidable (∃ confirmed ∈ scope.lastConfirmed, _))

/-- `_lose_lease`, after which `_renew_slot` returns. -/
def loseLease (scope : SemaphoreScope) : SemaphoreScope :=
  { scope with awaiting := none, renewing := false, leaseLost := true }

/-- The start of `__aexit__`: the renewal is cancelled and no reply is awaited. -/
def exit (scope : SemaphoreScope) : SemaphoreScope :=
  { scope with phase := .leaving, awaiting := none, renewing := false }

/-- What `_acquire` and `_renew_slot` do with the value of the awaited reply:
the scope after it, and whether `__aexit__` follows at once. -/
def receive (scope : SemaphoreScope) (config : Config) (clock : ℚ) (reply : Reply) :
    SemaphoreScope × Bool :=
  match scope.phase with
  | .acquiring =>
    if scope.deadline ≤ scope.now config clock then (scope, true)
    else if reply.value = 1 then
      let confirmed : SemaphoreScope :=
        { scope with
          awaiting := none, lastConfirmed := some reply.request.started, mode := .distributed }
      if reply.request.started + config.leaseTtl ≤ scope.now config clock then
        ({ confirmed with leaseLost := true }, true)
      else ({ confirmed with phase := .inside, renewing := true }, false)
    else ({ scope with awaiting := none }, false)
  | .inside =>
    if ¬ scope.safe config clock then (scope.loseLease, false)
    else if reply.value = 1 then
      ({ scope with awaiting := none, lastConfirmed := some reply.request.started }, false)
    else (scope.loseLease, false)
  | .leaving => (scope, false)

end SemaphoreScope

/-! ## Steps -/

inductive Label where
  /-- Time passes. -/
  | advance (elapsed : ℚ)
  /-- A task enters `_acquire`, past the local semaphore, with a Redis client. -/
  | enter (process : Process) (token : Token)
  /-- `_acquire` sends `_ADMIT_SLOT`. -/
  | sendAdmission (token : Token)
  /-- `_renew_slot` wakes up and sends `_RENEW_SLOT`. -/
  | sendRenewal (token : Token)
  /-- The server executes a request that was sent. -/
  | execute (number : Nat)
  /-- A reply reaches the scope that awaits it. -/
  | receive (reply : Reply)
  /-- The awaited `eval` raises an `Exception`, in either coroutine. -/
  | fail (token : Token)
  /-- `__aexit__` starts: the body ended, or `_acquire` timed out or was cancelled. -/
  | leave (token : Token)
  deriving Repr

namespace Network

/-- `__aexit__` of a scope: it sends the release of its token. -/
def leave (net : Network) (config : Config) (token : Token) (scope : SemaphoreScope) : Network :=
  (net.setScope token scope.exit).send ⟨.release, token, scope.now config net.clock⟩

/-- `_SemaphoreScope(token, owner)` and the deadline of `_acquire`. -/
def enter (net : Network) (config : Config) (process : Process) (token : Token) : Network :=
  net.setScope token
    { process
      deadline := net.clock + config.offset process + config.timeout
      phase := .acquiring, awaiting := none, renewing := false
      lastConfirmed := none, leaseLost := false, mode := .distributed }

/-- The scope sends a command and awaits its reply. -/
def await (net : Network) (config : Config) (command : SlotCommand) (token : Token)
    (scope : SemaphoreScope) : Network :=
  (net.setScope token { scope with awaiting := some net.requests.length }).send
    ⟨command, token, scope.now config net.clock⟩

def sendAdmission (net : Network) (config : Config) (token : Token)
    (scope : SemaphoreScope) : Network :=
  if scope.phase = .acquiring ∧ scope.awaiting = none then
    if scope.deadline ≤ scope.now config net.clock then net.leave config token scope
    else net.await config .admitSlot token scope
  else net

def sendRenewal (net : Network) (config : Config) (token : Token)
    (scope : SemaphoreScope) : Network :=
  if scope.phase = .inside ∧ scope.renewing = true ∧ scope.awaiting = none then
    if scope.safe config net.clock then net.await config .renewSlot token scope
    else net.setScope token scope.loseLease
  else net

def execute (net : Network) (config : Config) (number : Nat) (request : Request) : Network :=
  let outcome := serve config net.slots net.clock request
  { net with
    slots := outcome.1, replies := net.replies ++ [⟨number, request, outcome.2⟩] }

def receive (net : Network) (config : Config) (reply : Reply) (scope : SemaphoreScope) :
    Network :=
  if reply ∈ net.replies ∧ scope.awaiting = some reply.number then
    let outcome := scope.receive config net.clock reply
    if outcome.2 then net.leave config reply.request.token outcome.1
    else net.setScope reply.request.token outcome.1
  else net

/-- The two handlers of `Exception`: admission degrades to the local semaphore,
renewal gives up once the lease is no longer safe. -/
def fail (net : Network) (config : Config) (token : Token) (scope : SemaphoreScope) : Network :=
  if scope.awaiting = none then net
  else
    match scope.phase with
    | .acquiring =>
      if scope.deadline ≤ scope.now config net.clock then net.leave config token scope
      else
        net.setScope token
          { scope with awaiting := none, mode := .localFallback, phase := .inside }
    | .inside =>
      if scope.safe config net.clock then net.setScope token { scope with awaiting := none }
      else net.setScope token scope.loseLease
    | .leaving => net

def step (config : Config) (net : Network) : Label → Network
  | .advance elapsed => { net with clock := net.clock + elapsed }
  | .enter process token => net.enter config process token
  | .sendAdmission token => (net.scopes.get? token).elim net (net.sendAdmission config token)
  | .sendRenewal token => (net.scopes.get? token).elim net (net.sendRenewal config token)
  | .execute number => net.requests[number]?.elim net (net.execute config number)
  | .receive reply => (net.scopes.get? reply.request.token).elim net (net.receive config reply)
  | .fail token => (net.scopes.get? token).elim net (net.fail config token)
  | .leave token =>
    (net.scopes.get? token).elim net fun scope =>
      if scope.phase = .leaving then net else net.leave config token scope

/-- Clocks do not run backwards, and `uuid.uuid4()` gives every scope its own token. -/
def Allowed (net : Network) : Label → Prop
  | .advance elapsed => 0 ≤ elapsed
  | .enter _ token => net.scopes.get? token = none
  | _ => True

instance (net : Network) (label : Label) : Decidable (net.Allowed label) := by
  cases label with
  | advance elapsed => exact inferInstanceAs (Decidable (0 ≤ elapsed))
  | enter process token => exact inferInstanceAs (Decidable (net.scopes.get? token = none))
  | _ => exact instDecidableTrue

/-- A distributed scope whose local lease is valid and whose release the server
has not executed. -/
def holds (net : Network) (config : Config) (token : Token) (scope : SemaphoreScope) : Prop :=
  scope.mode = .distributed ∧ scope.safe config net.clock ∧ ¬ net.released token

instance (net : Network) (config : Config) (token : Token) (scope : SemaphoreScope) :
    Decidable (net.holds config token scope) := by
  unfold holds
  infer_instance

/-- The number of scopes that hold a valid lease. -/
def holders (net : Network) (config : Config) : Nat :=
  (net.scopes.retain fun token scope => net.holds config token scope).keys.length

end Network

end BobbyBotique.Admission
