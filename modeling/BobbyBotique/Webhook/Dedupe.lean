import BobbyBotique.Foundation.Dict
import BobbyBotique.Foundation.Run
import Mathlib.Data.Rat.Floor
import Mathlib.Data.List.Sort
import Mathlib.Tactic.Linarith

/-!
# Webhook update dedupe

`should_accept_webhook_update` claims the update id and the identity of a bot
command with `SET NX EX`, one key after the other, and then enters the local
history.  The calls of one process run as coroutines: between two awaits any
other call may move, and Redis may fail before or after it has written a key.
-/

namespace BobbyBotique.Webhook

/-! ## The command identity -/

/-- A value of the JSON payload. -/
inductive Json where
  | none
  | bool (value : Bool)
  | int (value : Int)
  | float (value : ℚ)
  | str (text : String)
  | list (items : List Json)
  | mapping (fields : List (String × Json))
  deriving Repr

namespace Json

/-- `mapping.get(name)`. -/
def get (fields : List (String × Json)) (name : String) : Option Json := fields.lookup name

def truthy : Json → Bool
  | .none => false
  | .bool value => value
  | .int value => value != 0
  | .float value => value != 0
  | .str text => text != ""
  | .list items => !items.isEmpty
  | .mapping fields => !fields.isEmpty

/-- `isinstance(value, int)` holds of booleans too. -/
def asInt : Json → Option Int
  | .int value => some value
  | .bool value => some (if value then 1 else 0)
  | _ => Option.none

/-- `value == 0`. -/
def isZero : Json → Bool
  | .int value => value == 0
  | .bool value => !value
  | .float value => value == 0
  | _ => false

end Json

/-- What the model takes from the language: `str.lower`, and formatting of a
value that is neither a string nor a plain integer. -/
structure Python where
  lower : String → String
  render : Json → String

def Python.format (python : Python) : Json → String
  | .str text => text
  | .int value => toString value
  | other => python.render other

def commandDedupKeyPrefix : String := "telegram:webhook:cmd:"
def dedupKeyPrefix : String := "telegram:webhook:update:"

/-- `text[1:length].split("@", 1)[0].lower()`. -/
def commandOf (python : Python) (text : String) (length : Int) : String :=
  python.lower (String.ofList (((text.toList.take length.toNat).drop 1).takeWhile (· != '@')))

/-- The part of `_command_identity_key` past the choice of the message. -/
def messageIdentityKey (python : Python) (message : List (String × Json)) : Option String := do
  let .str text ← Json.get message "text" | failure
  let .list (.mapping first :: _) ← Json.get message "entities" | failure
  let .str "bot_command" ← Json.get first "type" | failure
  let offset ← Json.get first "offset"
  guard offset.isZero
  let length ← (Json.get first "length").bind Json.asInt
  guard (1 < length)
  let messageId ← Json.get message "message_id"
  guard messageId.asInt.isSome
  let .mapping chat ← Json.get message "chat" | failure
  let chatId ← Json.get chat "id"
  let chatType := (Json.get chat "type").getD (.str "unknown")
  guard chatId.asInt.isSome
  let command := commandOf python text length
  guard (command != "")
  return commandDedupKeyPrefix ++ python.format chatType ++ ":" ++ python.format chatId ++ ":" ++
    python.format messageId ++ ":" ++ command

/-- `_command_identity_key`. -/
def commandIdentityKey (python : Python) (payload : Option (List (String × Json))) :
    Option String := do
  let fields ← payload
  let message ←
    match Json.get fields "message" with
    | some message => if message.truthy then some message else Json.get fields "edited_message"
    | none => Json.get fields "edited_message"
  let .mapping message := message | failure
  messageIdentityKey python message

/-! ## The local history -/

/-- A key of `seen_update_ids`. -/
inductive Key where
  | update (id : Int)
  | command (identity : String)
  deriving DecidableEq, Repr

/-- The name of the key in Redis. -/
def Key.redisKey : Key → String
  | .update id => dedupKeyPrefix ++ toString id
  | .command identity => identity

/-- `seen_update_ids`, in insertion order. -/
abbrev Seen := List (Key × ℚ)

namespace Seen

def keys (seen : Seen) : List Key := seen.map Prod.fst

/-- `seen_update_ids[key] = now`: a key that is present keeps its place. -/
def put (seen : Seen) (key : Key) (now : ℚ) : Seen :=
  if key ∈ seen.keys then seen.map fun entry => if entry.1 = key then (key, now) else entry
  else seen ++ [(key, now)]

/-- Drop the entries older than the retention. -/
def prune (seen : Seen) (now ttlSeconds : ℚ) : Seen :=
  seen.filter fun entry => !decide (ttlSeconds < now - entry.2)

/-- Make room for the keys and enter them at the present instant. -/
def remember (seen : Seen) (keys : List Key) (capacity : Int) (now : ℚ) : Seen :=
  let localCapacity := (max 1 capacity).toNat
  let remembered := keys.drop (keys.length - localCapacity)
  let fresh := (remembered.filter fun key => key ∉ seen.keys).length
  let overflow := seen.length + fresh - localCapacity
  let kept :=
    if 0 < overflow then
      let oldest :=
        ((seen.filter fun entry => entry.1 ∉ remembered).insertionSort
          fun first second => first.2 ≤ second.2).take
            (max overflow (max 1 (localCapacity / 10)))
      seen.filter fun entry => entry.1 ∉ Seen.keys oldest
    else seen
  remembered.foldl (fun seen key => seen.put key now) kept

end Seen

/-! ## Calls -/

structure Config where
  ttlSeconds : ℚ
  capacity : Int

/-- `max(1, int(ttl_seconds))`: the fraction is cut off. -/
def Config.ttl (config : Config) : Int :=
  max 1 (if 0 ≤ config.ttlSeconds then config.ttlSeconds.floor else config.ttlSeconds.ceil)

/-- A call on its way: the keys it has claimed, at their instants, and those it
has still to claim; `none` after Redis was absent or has failed. -/
structure Call where
  updateId : Int
  commandKey : Option String
  claimed : List (Key × ℚ)
  pending : Option (List Key)
  deriving DecidableEq, Repr

/-- `keys`. -/
def Call.keys (call : Call) : List Key :=
  .update call.updateId :: (call.commandKey.map Key.command).toList

/-- A call that has returned `True`, with its claims when Redis confirmed them. -/
structure Acceptance where
  number : Nat
  keys : List Key
  instant : ℚ
  confirmed : Option (List (Key × ℚ))
  deriving DecidableEq, Repr

/-- The Redis keys with the instants they expire, one process's history and
calls, and what was accepted, the latest first. -/
structure State where
  clock : ℚ
  redis : Dict String ℚ
  seen : Seen
  calls : Dict Nat Call
  used : List Nat
  accepted : List Acceptance

def State.start (clock : ℚ) : State := ⟨clock, .empty, [], .empty, [], []⟩

inductive Label where
  | advance (elapsed : ℚ)
  /-- A call starts; `reachable` tells whether `redis_client` is set. -/
  | call (number : Nat) (reachable : Bool) (updateId : Int)
      (payload : Option (List (String × Json)))
  /-- `SET NX EX` of the next key is executed and acknowledged. -/
  | claim (number : Nat)
  /-- `SET NX EX` of the next key raises; Redis may have executed it. -/
  | fail (number : Nat) (written : Bool)
  /-- The call is cancelled at an await. -/
  | cancel (number : Nat)
  /-- The call enters the history under the lock and returns. -/
  | settle (number : Nat)

namespace State

/-- The key is absent or has expired. -/
def vacant (state : State) (key : Key) : Prop :=
  ∀ expiry ∈ state.redis.get? key.redisKey, expiry ≤ state.clock

instance (state : State) (key : Key) : Decidable (state.vacant key) :=
  inferInstanceAs (Decidable (∀ expiry ∈ state.redis.get? key.redisKey, _))

/-- `SET key 1 EX ttl NX`. -/
def set (state : State) (config : Config) (key : Key) : State :=
  if state.vacant key then
    { state with redis := state.redis.set key.redisKey (state.clock + config.ttl) }
  else state

def begin (state : State) (python : Python) (number : Nat) (reachable : Bool) (updateId : Int)
    (payload : Option (List (String × Json))) : State :=
  let call : Call := ⟨updateId, commandIdentityKey python payload, [], none⟩
  { state with
    calls := state.calls.set number
      { call with pending := if reachable then some call.keys else none }
    used := number :: state.used }

def claim (state : State) (config : Config) (number : Nat) (call : Call) : State :=
  match call.pending with
  | some (key :: rest) =>
    if state.vacant key then
      { state.set config key with
        calls := state.calls.set number
          { call with claimed := call.claimed ++ [(key, state.clock)], pending := some rest } }
    else { state with calls := state.calls.del number }
  | _ => state

def fail (state : State) (config : Config) (number : Nat) (written : Bool) (call : Call) : State :=
  match call.pending with
  | some (key :: _) =>
    { (if written then state.set config key else state) with
      calls := state.calls.set number { call with pending := none } }
  | _ => state

/-- The critical section under `seen_lock`. -/
def settle (state : State) (config : Config) (number : Nat) (call : Call) : State :=
  let seen := state.seen.prune state.clock config.ttlSeconds
  let confirmed := call.pending.isSome
  if !confirmed && call.keys.any fun key => key ∈ seen.keys then
    { state with seen, calls := state.calls.del number }
  else
    { state with
      seen := seen.remember call.keys config.capacity state.clock
      calls := state.calls.del number
      accepted :=
        ⟨number, call.keys, state.clock, if confirmed then some call.claimed else none⟩ ::
          state.accepted }

def step (python : Python) (config : Config) (state : State) : Label → State
  | .advance elapsed => { state with clock := state.clock + elapsed }
  | .call number reachable updateId payload =>
    state.begin python number reachable updateId payload
  | .claim number => (state.calls.get? number).elim state (state.claim config number)
  | .fail number written => (state.calls.get? number).elim state (state.fail config number written)
  | .cancel number => { state with calls := state.calls.del number }
  | .settle number =>
    (state.calls.get? number).elim state fun call =>
      match call.pending with
      | some (_ :: _) => state
      | _ => state.settle config number call

/-- The identities accepted within the retention before an instant. -/
def recent (state : State) (config : Config) : List Key :=
  (state.accepted.filter fun acceptance =>
    !decide (config.ttlSeconds < state.clock - acceptance.instant)).flatMap Acceptance.keys

/-- Clocks do not run backwards, every call is a call of its own, and the
capacity covers the identities accepted within the retention. -/
def Allowed (config : Config) (state : State) : Label → Prop
  | .advance elapsed => 0 ≤ elapsed
  | .call number _ _ _ => number ∉ state.used
  | .settle number =>
    ∀ call ∈ state.calls.get? number,
      ((state.recent config ++ call.keys).dedup.length : Int) ≤ config.capacity
  | _ => True

instance (config : Config) (state : State) (label : Label) :
    Decidable (state.Allowed config label) := by
  cases label with
  | advance elapsed => exact inferInstanceAs (Decidable (0 ≤ elapsed))
  | call number reachable updateId payload =>
    exact inferInstanceAs (Decidable (number ∉ state.used))
  | settle number =>
    exact inferInstanceAs (Decidable (∀ call ∈ state.calls.get? number, _))
  | _ => exact instDecidableTrue

end State

end BobbyBotique.Webhook
