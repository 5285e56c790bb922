import BobbyBotique.Foundation.Dict
import BobbyBotique.Foundation.Run
import BobbyBotique.Settings.Document

/-!
# The settings store

`RuntimeSettingsStore._change` over the row of `global_settings`.  Any number of
processes read the row, compute the next document from what they have read and
write it with a compare-and-swap on the raw text.  A query that fails or times
out is a change that never commits, or one that commits without its caller
knowing.
-/

namespace BobbyBotique.Settings

/-- What a change does to the values. -/
inductive Operation where
  | set (key : String) (value : Json)
  | reset (key : String)
  | update (updates : Values) (removals : List String)
  | restore (revision : Int)

/-- The arguments of a call; `validate` is false where the callback raises. -/
structure Change where
  operation : Operation
  expectedRevision : Int
  actor : String
  validate : Values → Bool

/-- `datetime.now(UTC).isoformat()`. -/
abbrev Timestamp := { text : String // text.length ≤ 64 }

/-- How a change fails: a `ValueError` or a `RevisionConflict`. -/
inductive Failure where
  | invalid (message : String)
  | conflict (message : String)
  deriving DecidableEq, Repr

def orInvalid {α : Type} : Except String α → Except Failure α
  | .ok value => .ok value
  | .error message => .error (.invalid message)

section

variable (codec : Codec)

/-- `json.loads(json.dumps(value))`. -/
def roundTrip (value : Json) : Except String Json :=
  match codec.dumps value with
  | none => .error "Type is not JSON serializable"
  | some text =>
    match codec.loads text with
    | none => .error "Invalid JSON"
    | some read => .ok read

def checkKeys : List String → Except String Unit
  | [] => .ok ()
  | key :: rest => do
      checkKey key
      checkKeys rest

/-- The operation with its values in the form they will be stored in. -/
def normalize : Operation → Except String Operation
  | .set key value => do
      checkKey key
      checkValues codec [(key, value)]
      let value ← roundTrip codec value
      return .set key value
  | .reset key => do
      checkKey key
      return .reset key
  | .update updates removals => do
      checkValues codec updates
      match ← roundTrip codec (.obj updates) with
      | .obj updates => do
          checkKeys removals
          return .update updates removals
      | _ => .error "Invalid runtime settings map"
  | .restore revision => do
      require (0 ≤ revision) "Invalid restore revision"
      return .restore revision

/-- The checks of `_change` before it asks the database. -/
def admitted (change : Change) : Except String Operation := do
  require (0 ≤ change.expectedRevision) "Invalid expected revision"
  require (change.actor != "" && decide (change.actor.length ≤ 128) &&
    change.actor.toList.all fun c => decide (32 ≤ c.toNat)) "Invalid settings actor"
  normalize codec change.operation

/-- The values that the operation makes of a document. -/
def apply (document : Document) : Operation → Except String Values
  | .set key value => .ok (put document.current.values key value)
  | .reset key => .ok (pop document.current.values key)
  | .update updates removals =>
    .ok (removals.foldl pop (update document.current.values updates))
  | .restore revision =>
    match (document.history ++ [document.current]).find?
        fun entry => decide (entry.revision = revision) with
    | none => .error "Requested revision is no longer available"
    | some source => .ok source.values

def valueDiffers : Option Json → Option Json → Bool
  | none, none => false
  | some value, some other => !pyEq value other
  | _, _ => true

/-- `changed`: the names on either side whose values differ. -/
def changedKeys (values previous : Values) : List String :=
  (((values ++ previous).map Prod.fst).dedup.filter fun key =>
    valueDiffers (get values key) (get previous key)).mergeSort

/-- The last thirty entries. -/
def lastEntries (history : List Entry) : List Entry :=
  history.drop (history.length - historyLimit)

/-- The document and the text that `_change` writes over what it has read. -/
def prepare (change : Change) (operation : Operation) (raw : Option String) (now : Timestamp) :
    Except Failure (Document × String) := do
  let document ← orInvalid (decode codec raw)
  if document.current.revision ≠ change.expectedRevision then
    .error (.conflict "Runtime settings revision changed; refresh before saving")
  else do
    let values ← orInvalid (apply document operation)
    orInvalid (checkValues codec values)
    orInvalid (require (change.validate values) "validate")
    let updated : Document :=
      ⟨⟨change.expectedRevision + 1, values, change.actor,
        changedKeys values document.current.values, now.1⟩,
        lastEntries (document.history ++ [document.current])⟩
    match codec.dumps updated.toJson with
    | none => .error (.invalid "Type is not JSON serializable")
    | some encoded =>
      if encoded.utf8ByteSize ≤ documentLimit then .ok (updated, encoded)
      else .error (.invalid "Settings history exceeds the size limit")

end

/-! ## Any number of processes -/

/-- A change that has read the row. -/
structure Pending where
  change : Change
  operation : Operation
  raw : Option String

/-- The row, the changes under way, and what was committed, oldest first. -/
structure Store where
  row : Option String
  pending : Dict Nat Pending
  log : List (Operation × Document)

inductive StoreLabel where
  | read (name : Nat) (change : Change)
  | commit (name : Nat) (now : Timestamp)
  | fail (name : Nat)

namespace Store

def initial : Store := ⟨none, .empty, []⟩

def step (codec : Codec) (state : Store) : StoreLabel → Store
  | .read name change =>
    match admitted codec change with
    | .error _ => state
    | .ok operation =>
      { state with pending := state.pending.set name ⟨change, operation, state.row⟩ }
  -- `INSERT ... ON CONFLICT DO NOTHING` without a row, else `UPDATE ... WHERE value_data = raw`
  | .commit name now =>
    match state.pending.get? name with
    | none => state
    | some pending =>
      match prepare codec pending.change pending.operation pending.raw now with
      | .error _ => { state with pending := state.pending.del name }
      | .ok (updated, encoded) =>
        if state.row = pending.raw then
          { row := some encoded
            pending := state.pending.del name
            log := state.log ++ [(pending.operation, updated)] }
        else { state with pending := state.pending.del name }
  | .fail name => { state with pending := state.pending.del name }

/-- The document of the last commit. -/
def latest (state : Store) : Document := (state.log.getLast?.map Prod.snd).getD baseline

end Store

/-- The document is what the operation makes of the previous one. -/
structure Follows (previous : Document) (operation : Operation) (next : Document) : Prop where
  revision : next.current.revision = previous.current.revision + 1
  values : apply previous operation = .ok next.current.values
  history : next.history = lastEntries (previous.history ++ [previous.current])

/-- Each committed document follows the one before it, and its text is read back
as the document it is. -/
def Chain (codec : Codec) : Document → List (Operation × Document) → Prop
  | _, [] => True
  | previous, (operation, document) :: rest =>
    Follows previous operation document ∧ (∃ text, codec.dumps document.toJson = some text ∧
        decode codec (some text) = .ok document) ∧
      Chain codec document rest

end BobbyBotique.Settings
