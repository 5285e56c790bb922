import BobbyBotique.Foundation.Dict
import BobbyBotique.Foundation.Run

/-!
# Numbered events of a game

The event numbers and the history of one Crocodile game, kept by any number of
processes that share Redis.  A stamp reads the counter of its process, asks
Redis for the next number and falls back to the local one where a call raised;
the server may have executed the increment all the same.  Other calls take
their steps in between.  An appended event is stored in the process as soon as
it is stamped, and pushed to the shared list later or never.
-/

namespace BobbyBotique.Games

abbrev Process := Nat
abbrev Call := Nat

/-- An event: its number and the call that stamped it. -/
structure Item where
  seq : Nat
  call : Call
  deriving DecidableEq, Repr

/-- `_HISTORY_LIMIT`. -/
def historyLimit : Nat := 32

/-- `history[-_HISTORY_LIMIT:]`. -/
def lastItems (history : List Item) : List Item := history.drop (history.length - historyLimit)

/-- A stamp under way: the local counter it has read, the number `INCR` drew for
it, and whether its event is appended to the history. -/
structure Stamp where
  process : Process
  current : Nat
  drawn : Option Nat
  appends : Bool
  deriving DecidableEq, Repr

/-- A read of the shared list under way. -/
structure Fetch where
  process : Process
  items : List Item
  deriving DecidableEq, Repr

/-- The Redis keys of the game, the tables of the processes, the calls under
way, the numbers handed out (newest first) and the events appended so far. -/
structure Runtime where
  counter : Nat
  shared : List Item
  eventSeq : Dict Process Nat
  histories : Dict Process (List Item)
  stamps : Dict Call Stamp
  fetches : Dict Call Fetch
  pushes : List Item
  issued : List (Process × Nat)
  events : List Item

inductive RuntimeLabel where
  | begin (process : Process) (call : Call) (appends : Bool)
  | incr (call : Call)
  | finish (call : Call) (answered : Bool)
  | adopt (process : Process) (item : Item) (appends : Bool)
  | push (item : Item)
  | fetch (process : Process) (call : Call)
  | load (call : Call) (answered : Bool)
  | restart (process : Process)
  | lapse
  deriving DecidableEq, Repr

namespace Runtime

def initial : Runtime := ⟨0, [], .empty, .empty, .empty, .empty, [], [], []⟩

/-- `_local_event_seq.get(game_id, 0)`. -/
def localSeq (state : Runtime) (process : Process) : Nat := state.eventSeq.getD process 0

/-- `_local_history.get(game_id, [])`. -/
def localHistory (state : Runtime) (process : Process) : List Item :=
  state.histories.getD process []

/-- The local half of `append_runtime_history`. -/
def append (state : Runtime) (process : Process) (item : Item) : Runtime :=
  { state with
    histories := state.histories.set process (lastItems (state.localHistory process ++ [item]))
    pushes := item :: state.pushes
    events := state.events ++ [item] }

/-- The number `_next_event_seq` returns and the local counter it leaves, once
Redis has answered both calls or one of them has raised. -/
def nextEventSeq (stamp : Stamp) (answered : Bool) : Option (Nat × Nat) :=
  match answered, stamp.drawn with
  | true, some next => some (next, max stamp.current next)
  | true, none => none
  | false, _ => some (stamp.current + 1, stamp.current + 1)

/-- The call returns with its number. -/
def handOut (state : Runtime) (call : Call) (process : Process) (next current : Nat) : Runtime :=
  { state with
    eventSeq := state.eventSeq.set process current
    stamps := state.stamps.del call
    issued := (process, next) :: state.issued }

/-- The event gets its number; an append stores it without a pause in between. -/
def finish (state : Runtime) (call : Call) (stamp : Stamp) (answered : Bool) : Runtime :=
  match nextEventSeq stamp answered with
  | none => state
  | some (next, current) =>
    let stamped := state.handOut call stamp.process next current
    if stamp.appends then stamped.append stamp.process ⟨next, call⟩ else stamped

/-- A payload that is stamped already keeps its number. -/
def adopt (state : Runtime) (process : Process) (item : Item) (appends : Bool) : Runtime :=
  let adopted := { state with
    eventSeq := state.eventSeq.set process (max (state.localSeq process) item.seq) }
  if appends then adopted.append process item else adopted

/-- The history that `get_runtime_history` returns when the shared list was read
as `items`, or when reading it raised. -/
def loaded (state : Runtime) (fetch : Fetch) (answered : Bool) : List Item :=
  if answered && !fetch.items.isEmpty then fetch.items else state.localHistory fetch.process

def step (state : Runtime) : RuntimeLabel → Runtime
  | .begin process call appends =>
    match state.stamps.get? call with
    | some _ => state
    | none => { state with
        stamps := state.stamps.set call ⟨process, state.localSeq process, none, appends⟩ }
  | .incr call =>
    match state.stamps.get? call with
    -- the call has given up; its increment takes effect all the same
    | none => { state with counter := state.counter + 1 }
    | some stamp => { state with
        counter := state.counter + 1
        stamps := state.stamps.set call { stamp with drawn := some (state.counter + 1) } }
  | .finish call answered =>
    match state.stamps.get? call with
    | none => state
    | some stamp => state.finish call stamp answered
  | .adopt process item appends => state.adopt process item appends
  | .push item =>
    if item ∈ state.pushes then
      { state with
        shared := lastItems (state.shared ++ [item])
        pushes := state.pushes.erase item }
    else state
  -- `get_runtime_history` asks Redis where the local list is empty
  | .fetch process call =>
    if (state.localHistory process).isEmpty then
      { state with fetches := state.fetches.set call ⟨process, state.shared⟩ }
    else state
  | .load call answered =>
    match state.fetches.get? call with
    | none => state
    | some fetch => { state with
        histories :=
          if answered && !fetch.items.isEmpty then
            state.histories.set fetch.process fetch.items
          else state.histories
        fetches := state.fetches.del call }
  | .restart process => { state with
      eventSeq := state.eventSeq.del process
      histories := state.histories.del process
      stamps := state.stamps.retain fun _ stamp => decide (stamp.process ≠ process)
      fetches := state.fetches.retain fun _ fetch => decide (fetch.process ≠ process) }
  -- the keys expire after `_RUNTIME_TTL_S` without an event
  | .lapse => { state with counter := 0, shared := [] }

/-- `get_runtime_replay` on a history. -/
def replay (history : List Item) (afterSeq : Int) : List Item :=
  if afterSeq ≤ 0 then history else history.filter fun item => decide (afterSeq < item.seq)

/-- What a client that has received the numbers up to `afterSeq` is to get. -/
def missed (state : Runtime) (afterSeq : Int) : List Item :=
  (lastItems state.events).filter fun item => decide (afterSeq < item.seq)

/-! ## Steps that keep the numbers and the histories in order -/

/-- No number handed out lies above this one. -/
def Clear (state : Runtime) (bound : Nat) : Prop := ∀ given ∈ state.issued, given.2 ≤ bound

instance (state : Runtime) (bound : Nat) : Decidable (state.Clear bound) :=
  inferInstanceAs (Decidable (∀ given ∈ state.issued, _))

/-- The event comes after all others, no other process has a history of its
own, and this one has loaded its history unless there is none. -/
def Storable (state : Runtime) (process : Process) (seq : Nat) : Prop :=
  (∀ event ∈ state.events, event.seq < seq) ∧
    (∀ other ∈ state.histories.keys, other = process ∨ state.localHistory other = []) ∧
      (state.events = [] ∨ state.localHistory process ≠ [])

instance (state : Runtime) (process : Process) (seq : Nat) :
    Decidable (state.Storable process seq) :=
  inferInstanceAs (Decidable (_ ∧ _ ∧ _))

/-- What the code relies on at each step: the counter that gives the next number
is not behind the numbers already given, and the history that is stored or
loaded is the whole one. -/
def Orderly (state : Runtime) (label : RuntimeLabel) : Prop :=
  match label with
  | .incr _ => state.Clear state.counter
  | .finish call true =>
    ∀ stamp ∈ state.stamps.get? call, ∀ next ∈ stamp.drawn,
      (∀ given ∈ state.issued, given.1 = stamp.process → given.2 < next) ∧
        (stamp.appends = true → state.Storable stamp.process next)
  | .finish call false =>
    ∀ stamp ∈ state.stamps.get? call, state.Clear stamp.current ∧
        (∀ other ∈ state.stamps.values, ∀ next ∈ other.drawn,
          state.stamps.get? call = some other ∨ next ≤ stamp.current) ∧
        (stamp.appends = true → state.Storable stamp.process (stamp.current + 1))
  | .adopt process item appends =>
    (∃ given ∈ state.issued, given.2 = item.seq) ∧
      (appends = true → state.Storable process item.seq)
  | .load call answered =>
    ∀ fetch ∈ state.fetches.get? call,
      if answered && !fetch.items.isEmpty then fetch.items = lastItems state.events
      else state.events = [] ∨ state.localHistory fetch.process ≠ []
  | .lapse => False
  | _ => True

instance (state : Runtime) (label : RuntimeLabel) : Decidable (state.Orderly label) :=
  match label with
  | .begin _ _ _ => .isTrue trivial
  | .incr _ => inferInstanceAs (Decidable (state.Clear state.counter))
  | .finish call true => inferInstanceAs (Decidable (∀ stamp ∈ state.stamps.get? call, _))
  | .finish call false => inferInstanceAs (Decidable (∀ stamp ∈ state.stamps.get? call, _ ∧ _ ∧ _))
  | .adopt _ _ _ => inferInstanceAs (Decidable ((∃ given ∈ state.issued, _) ∧ _))
  | .push _ => .isTrue trivial
  | .fetch _ _ => .isTrue trivial
  | .load call _ => inferInstanceAs (Decidable (∀ fetch ∈ state.fetches.get? call, _))
  | .restart _ => .isTrue trivial
  | .lapse => .isFalse id

end Runtime

end BobbyBotique.Games
