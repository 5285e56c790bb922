import BobbyBotique.Foundation.Dict
import BobbyBotique.Foundation.Run
import BobbyBotique.Foundation.Window
import Mathlib.Algebra.Order.Floor.Ring
import Mathlib.Data.Rat.Floor
import Mathlib.Tactic.Linarith

/-!
# The rolling minute quota

`TTSMinuteQuota` and `GeminiMinuteQuota` for one scope.  With Redis the window
is a sorted set under a key of its own, changed by whole scripts at instants of
the server's clock; without it the window is a dictionary of the process, read
and written at instants of the monotonic clock.  Instants are exact rationals
in seconds.  A call may be delayed for any time before it takes effect.
-/

namespace BobbyBotique.Providers

abbrev Token := String
abbrev Scope := String

/-- What `reserve` gives back: the reservation, the seconds to wait, or an
exception. -/
inductive Admission where
  | admitted
  | refused (retryAfter : ℚ)
  | raised
  deriving DecidableEq, Repr

/-- The least of the stored instants. -/
def oldest (slots : Dict Token ℚ) : Option ℚ := slots.values.min?

/-! ## The Redis window -/

/-- A sorted set with the instant its key expires at. -/
structure Key where
  slots : Dict Token ℚ
  deadline : Option ℚ

namespace Key

def absent : Key := ⟨.empty, none⟩

/-- What a command finds at this instant: a key whose deadline has passed is gone. -/
def seen (key : Key) (now : ℚ) : Key :=
  match key.deadline with
  | none => key
  | some deadline => if deadline < now then absent else key

/-- The key after a removal: a sorted set without members has no key, and the
deadline goes with it. -/
def shrunk (key : Key) (slots : Dict Token ℚ) : Key :=
  ⟨slots, if slots.keys.isEmpty then none else key.deadline⟩

/-- `ZREMRANGEBYSCORE key -inf bound`. -/
def zremrangebyscore (key : Key) (bound : ℚ) : Key :=
  key.shrunk (key.slots.retain fun _ score => !decide (score ≤ bound))

/-- `ZADD key score token`. -/
def zadd (key : Key) (token : Token) (score : ℚ) : Key :=
  { key with slots := key.slots.set token score }

/-- `ZREM key token`. -/
def zrem (key : Key) (token : Token) : Key := key.shrunk (key.slots.del token)

/-- `TTL key` of a key that exists, in whole seconds, rounded to the nearest. -/
def ttl (key : Key) (now : ℚ) : ℤ :=
  match key.deadline with
  | none => -1
  | some deadline => ⌊deadline - now + 1 / 2⌋

def expire (key : Key) (now : ℚ) (seconds : ℤ) : Key :=
  { key with deadline := some (now + seconds) }

/-- The members that a reservation at this instant would count. -/
def counted (key : Key) (now : ℚ) : Key := (key.seen now).zremrangebyscore (now - 60)

/-- The key does not expire before this instant. -/
def Lasts (key : Key) (instant : ℚ) : Prop := ∀ deadline ∈ key.deadline, instant ≤ deadline

instance (key : Key) (instant : ℚ) : Decidable (key.Lasts instant) :=
  inferInstanceAs (Decidable (∀ deadline ∈ key.deadline, instant ≤ deadline))

end Key

/-- The wait `_RESERVE_MINUTE` answers, in milliseconds. -/
def retryMilliseconds (score now : ℚ) : ℤ :=
  min 60000 (max 1 ⌈(score + 60 - now) * 1000⌉)

/-- `_RESERVE_MINUTE`.  With an empty set and a limit of zero the script fails
on the missing score. -/
def reserveMinute (key : Key) (now : ℚ) (limit : Nat) (token : Token) (pending : ℚ) :
    Key × Admission :=
  let key := key.counted now
  if limit ≤ key.slots.keys.length then
    match oldest key.slots with
    | none => (key, .raised)
    | some score => (key, .refused (retryMilliseconds score now / 1000))
  else
    let key := key.zadd token (now + pending)
    let ttl := ⌈pending + 61⌉
    (if key.ttl now < ttl then key.expire now ttl else key, .admitted)

/-- `_COMMIT_MINUTE`; `false` is the reply on which `commit` raises. -/
def commitMinute (key : Key) (now : ℚ) (token : Token) : Key × Bool :=
  let key := key.seen now
  match key.slots.get? token with
  | none => (key, false)
  | some _ => (key.zadd token now, true)

/-- `release`. -/
def releaseMinute (key : Key) (now : ℚ) (token : Token) : Key := (key.seen now).zrem token

/-- `_AVAILABLE`. -/
def availableMinute (key : Key) (now : ℚ) (limit : Nat) : Key × Bool :=
  let key := key.counted now
  (key, decide (key.slots.keys.length < limit))

/-! ## The local window -/

/-- `self._local`: for each scope the instants at which its reservations expire. -/
abbrev Local := Dict Scope (Dict Token ℚ)

namespace Local

/-- `self._local.get(scope, {})`. -/
def entries (table : Local) (scope : Scope) : Dict Token ℚ := table.getD scope .empty

/-- The loop at the head of `reserve`: drop what has expired in every scope, and
the scopes that have nothing left. -/
def prune (table : Local) (now : ℚ) : Local :=
  (table.map fun entries => entries.retain fun _ expires => decide (now < expires)).retain
    fun _ live => !live.keys.isEmpty

def reserve (table : Local) (now : ℚ) (scope : Scope) (limit : Nat) (token : Token)
    (pendingFor : ℚ) : Local × Admission :=
  let table := table.prune now
  let entries := table.entries scope
  let table := table.set scope entries
  if limit ≤ entries.keys.length then
    match oldest entries with
    | none => (table, .raised)
    | some expires => (table, .refused (min 60 (expires - now)))
  else (table.set scope (entries.set token (now + pendingFor + 60)), .admitted)

/-- `commit`; `false` where it raises. -/
def commit (table : Local) (now : ℚ) (scope : Scope) (token : Token) : Local × Bool :=
  match (table.entries scope).get? token with
  | none => (table, false)
  | some _ => (table.set scope ((table.entries scope).set token (now + 60)), true)

def release (table : Local) (scope : Scope) (token : Token) : Local :=
  table.modify scope fun entries => entries.del token

def available (table : Local) (now : ℚ) (scope : Scope) (limit : Nat) : Bool :=
  decide (((table.entries scope).retain fun _ expires => decide (now < expires)).keys.length <
    limit)

end Local

/-! ## Calls of any number of clients -/

/-- A call for the scope.  `heard` is false where a commit took effect and its
reply was lost on the way. -/
inductive Command where
  | reserve (token : Token) (pending : ℚ)
  | commit (token : Token) (heard : Bool)
  | release (token : Token)
  | available
  deriving DecidableEq, Repr

namespace Command

/-- The reservation a call is about. -/
def subject : Command → Option Token
  | .reserve token _ => some token
  | .commit token _ => some token
  | .release token => some token
  | .available => none

/-- The token a call draws from `uuid4`. -/
def draws : Command → List Token
  | .reserve token _ => [token]
  | _ => []

end Command

/-- A command and the instant at which it takes effect. -/
structure Call where
  now : ℚ
  command : Command
  deriving DecidableEq, Repr

/-- What clients do: `uuid4` draws new tokens and `pending_for` is not negative; a
reservation whose commit succeeded is neither committed again nor refunded, as
`release` requires. -/
def Usual (issued : List Token) (spent : List (Token × ℚ)) : Command → Prop
  | .reserve token pending => token ∉ issued ∧ 0 ≤ pending
  | .commit token _ => token ∉ spent.map Prod.fst
  | .release token => token ∉ spent.map Prod.fst
  | .available => True

instance (issued : List Token) (spent : List (Token × ℚ)) (command : Command) :
    Decidable (Usual issued spent command) :=
  match command with
  | .reserve _ _ => inferInstanceAs (Decidable (_ ∧ _))
  | .commit _ _ => inferInstanceAs (Decidable (_ ∉ _))
  | .release _ => inferInstanceAs (Decidable (_ ∉ _))
  | .available => .isTrue trivial

/-! ### On the server -/

/-- The server's clock and key, with the tokens drawn and the commits that
succeeded, newest first. -/
structure Minute where
  clock : ℚ
  key : Key
  issued : List Token
  spent : List (Token × ℚ)

def serve (limit : Nat) (key : Key) (now : ℚ) : Command → Key
  | .reserve token pending => (reserveMinute key now limit token pending).1
  | .commit token _ => (commitMinute key now token).1
  | .release token => releaseMinute key now token
  | .available => (availableMinute key now limit).1

namespace Minute

def start (clock : ℚ) : Minute := ⟨clock, Key.absent, [], []⟩

/-- The commit that this call records as successful. -/
def spends (state : Minute) (call : Call) : List (Token × ℚ) :=
  match call.command with
  | .commit token heard =>
    if heard && (commitMinute state.key call.now token).2 then [(token, call.now)] else []
  | _ => []

def step (limit : Nat) (state : Minute) (call : Call) : Minute :=
  { clock := call.now
    key := serve limit state.key call.now call.command
    issued := call.command.draws ++ state.issued
    spent := state.spends call ++ state.spent }

def Permitted (state : Minute) (call : Call) : Prop :=
  state.clock ≤ call.now ∧ Usual state.issued state.spent call.command

instance (state : Minute) (call : Call) : Decidable (state.Permitted call) :=
  inferInstanceAs (Decidable (_ ∧ _))

/-- A commit finds its reservation only where the key lasts another minute. -/
def InTime (state : Minute) (call : Call) : Prop :=
  match call.command with
  | .commit token _ =>
    ((state.key.seen call.now).slots.get? token).isSome →
      (state.key.seen call.now).Lasts (call.now + 60)
  | _ => True

instance (state : Minute) (call : Call) : Decidable (state.InTime call) :=
  match call with
  | ⟨_, .commit _ _⟩ => inferInstanceAs (Decidable (_ → _))
  | ⟨_, .reserve _ _⟩ => .isTrue trivial
  | ⟨_, .release _⟩ => .isTrue trivial
  | ⟨_, .available⟩ => .isTrue trivial

/-- A reservation attempted at this instant would count the token. -/
def Occupies (state : Minute) (now : ℚ) (token : Token) : Prop :=
  ∃ score, (state.key.counted now).slots.get? token = some score

end Minute

/-! ### In the process -/

/-- A call for any scope of the process, with the limit it passes. -/
structure LocalCall extends Call where
  scope : Scope
  limit : Nat
  deriving DecidableEq, Repr

/-- The monotonic clock and `self._local`, with the commits that succeeded for
the scope under observation. -/
structure LocalMinute where
  clock : ℚ
  table : Local
  issued : List Token
  spent : List (Token × ℚ)

def serveLocal (table : Local) (call : LocalCall) : Local :=
  match call.command with
  | .reserve token pending => (table.reserve call.now call.scope call.limit token pending).1
  | .commit token _ => (table.commit call.now call.scope token).1
  | .release token => table.release call.scope token
  | .available => table

namespace LocalMinute

def start (clock : ℚ) : LocalMinute := ⟨clock, .empty, [], []⟩

def spends (scope : Scope) (state : LocalMinute) (call : LocalCall) : List (Token × ℚ) :=
  match call.command with
  | .commit token heard =>
    if heard && (state.table.commit call.now call.scope token).2 && (call.scope == scope) then
      [(token, call.now)]
    else []
  | _ => []

def step (scope : Scope) (state : LocalMinute) (call : LocalCall) : LocalMinute :=
  { clock := call.now
    table := serveLocal state.table call
    issued := call.command.draws ++ state.issued
    spent := state.spends scope call ++ state.spent }

/-- Calls for the scope under observation pass one limit; calls for other
scopes only draw new tokens. -/
def Permitted (scope : Scope) (limit : Nat) (state : LocalMinute) (call : LocalCall) : Prop :=
  state.clock ≤ call.now ∧ (∀ token ∈ call.command.draws, token ∉ state.issued) ∧
    (call.scope = scope → call.limit = limit ∧ Usual state.issued state.spent call.command)

instance (scope : Scope) (limit : Nat) (state : LocalMinute) (call : LocalCall) :
    Decidable (state.Permitted scope limit call) :=
  inferInstanceAs (Decidable (_ ∧ _))

def Occupies (scope : Scope) (state : LocalMinute) (now : ℚ) (token : Token) : Prop :=
  ∃ expires, (((state.table.prune now).entries scope).get? token) = some expires

end LocalMinute

end BobbyBotique.Providers
