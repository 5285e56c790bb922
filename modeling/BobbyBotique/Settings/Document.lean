import Mathlib.Data.List.Dedup
import Mathlib.Data.List.Sort
import Mathlib.Data.Rat.Defs

/-!
# Settings documents

The values of the runtime settings as Python objects, the checks on keys and
values, and the reader of the stored document.  The text of a value is the
business of `orjson`, which enters as a codec: what it prints, where it can,
and what it reads.
-/

namespace BobbyBotique.Settings

/-- A Python value of the types that JSON knows.  A float is its sign and its
size, which is none where it is not finite; a dict lists its items in order. -/
inductive Json where
  | null
  | bool (value : Bool)
  | int (value : Int)
  | float (negative : Bool) (size : Option ℚ)
  | str (value : String)
  | arr (items : List Json)
  | obj (fields : List (String × Json))

abbrev Values := List (String × Json)

/-- `json.dumps`, which raises where it gives nothing, and `json.loads`. -/
structure Codec where
  dumps : Json → Option String
  loads : String → Option Json

/-- `dict.get`. -/
def get (fields : Values) (name : String) : Option Json := fields.lookup name

/-- `values[key] = value`: in its place, or at the end. -/
def put (fields : Values) (name : String) (value : Json) : Values :=
  if (get fields name).isSome then
    fields.map fun field => if field.1 = name then (name, value) else field
  else fields ++ [(name, value)]

/-- `values.pop(key, None)`. -/
def pop (fields : Values) (name : String) : Values :=
  fields.filter fun field => decide (field.1 ≠ name)

/-- `values.update(updates)`. -/
def update (fields updates : Values) : Values :=
  updates.foldl (fun fields field => put fields field.1 field.2) fields

/-- The names of a dict are exactly these. -/
def namesAre (fields : Values) (names : List String) : Bool :=
  fields.all (fun field => decide (field.1 ∈ names)) &&
    names.all fun name => (get fields name).isSome

/-- The number that `==` compares: a bool and an int count as numbers. -/
def number : Json → Option ℚ
  | .bool value => some (if value then 1 else 0)
  | .int value => some value
  | .float negative size => size.map fun size => if negative then -size else size
  | _ => none

mutual

/-- `==` of two values. -/
def pyEq : Json → Json → Bool
  | .arr items, .arr others => pyEqItems items others
  | .obj fields, .obj others => decide (fields.length = others.length) && pyEqFields fields others
  | .str value, .str other => decide (value = other)
  | .null, .null => true
  | value, other =>
    match number value, number other with
    | some first, some second => decide (first = second)
    | _, _ => false

def pyEqItems : List Json → List Json → Bool
  | [], [] => true
  | value :: rest, other :: others => pyEq value other && pyEqItems rest others
  | _, _ => false

def pyEqFields : List (String × Json) → List (String × Json) → Bool
  | [], _ => true
  | (name, value) :: rest, others =>
    (match others.lookup name with
      | none => false
      | some other => pyEq value other) && pyEqFields rest others

end

/-! ## Checks -/

def valueLimit : Nat := 256 * 1024
def valuesLimit : Nat := 512 * 1024
def documentLimit : Nat := 17 * 1024 * 1024
def historyLimit : Nat := 30

def prefixes : List String :=
  ["audio:", "process:", "prompt:", "model_limit:", "model_rpm:", "catalog:", "catalog_baseline:",
    "legacy_model:", "command_aliases:"]

/-- A check that raises `ValueError` with this text. -/
def require (holds : Bool) (message : String) : Except String Unit :=
  if holds then .ok () else .error message

mutual

/-- `_validate_json`, from this depth on. -/
def validateJson (depth : Nat) : Json → Except String Unit
  | .null => require (depth ≤ 20) "Settings JSON nesting exceeds the limit"
  | .bool _ => require (depth ≤ 20) "Settings JSON nesting exceeds the limit"
  | .str _ => require (depth ≤ 20) "Settings JSON nesting exceeds the limit"
  | .int value => do
      require (depth ≤ 20) "Settings JSON nesting exceeds the limit"
      require (-2 ^ 63 ≤ value && value < 2 ^ 63) "Settings require bounded JSON values"
  | .float _ size => do
      require (depth ≤ 20) "Settings JSON nesting exceeds the limit"
      require size.isSome "Settings require bounded JSON values"
  | .arr items => do
      require (depth ≤ 20) "Settings JSON nesting exceeds the limit"
      validateItems (depth + 1) items
  | .obj fields => do
      require (depth ≤ 20) "Settings JSON nesting exceeds the limit"
      validateFields (depth + 1) fields

def validateItems (depth : Nat) : List Json → Except String Unit
  | [] => .ok ()
  | value :: rest => do
      validateJson depth value
      validateItems depth rest

def validateFields (depth : Nat) : List (String × Json) → Except String Unit
  | [] => .ok ()
  | (_, value) :: rest => do
      validateJson depth value
      validateFields depth rest

end

/-- The key that `_key` accepts. -/
def keyAccepted (key : String) : Bool :=
  (prefixes.any fun start => start.toList.isPrefixOf key.toList) &&
    !((key.toList.dropWhile fun c => c != ':').drop 1).isEmpty &&
    decide (key.length ≤ 160) && key.toList.all fun c => decide (32 ≤ c.toNat)

/-- `_key`. -/
def checkKey (key : String) : Except String Unit :=
  require (keyAccepted key) "Invalid runtime setting key"

section

variable (codec : Codec)

/-- `len(json.dumps(value).encode("utf-8"))` is within the limit. -/
def checkSize (value : Json) (limit : Nat) (message : String) : Except String Unit :=
  match codec.dumps value with
  | none => .error "Type is not JSON serializable"
  | some text => require (text.utf8ByteSize ≤ limit) message

/-- The loop of `_values`. -/
def checkFields : Values → Except String Unit
  | [] => .ok ()
  | (key, value) :: rest => do
      checkKey key
      validateJson 0 value
      checkSize codec value valueLimit "Setting value exceeds the size limit"
      checkFields rest

/-- `_values` of a dict. -/
def checkValues (values : Values) : Except String Unit := do
  require (values.length ≤ 512) "Invalid runtime settings map"
  checkFields codec values
  checkSize codec (.obj values) valuesLimit "Settings exceed the size limit"

end

/-! ## Documents -/

/-- A revision as the history keeps it. -/
structure Entry where
  revision : Int
  values : Values
  actor : String
  changedKeys : List String
  at_ : String

/-- The stored document: its current revision and the history. -/
structure Document where
  current : Entry
  history : List Entry

def baseline : Document := ⟨⟨0, [], "", [], ""⟩, []⟩

def entryFields : List String := ["revision", "values", "actor", "changed_keys", "at"]
def documentFields : List String := ["version", "history"] ++ entryFields

/-- The history entry of a document: `previous`, without version and history.  The
names stand in the order of `_change`; no reader looks at it. -/
def Entry.toJson (entry : Entry) : Json :=
  .obj [("revision", .int entry.revision), ("values", .obj entry.values),
    ("actor", .str entry.actor), ("at", .str entry.at_),
    ("changed_keys", .arr (entry.changedKeys.map .str))]

def Document.toJson (document : Document) : Json :=
  .obj [("version", .int 1), ("revision", .int document.current.revision),
    ("values", .obj document.current.values),
    ("history", .arr (document.history.map Entry.toJson)), ("actor", .str document.current.actor),
    ("at", .str document.current.at_),
    ("changed_keys", .arr (document.current.changedKeys.map .str))]

def readString (fields : Values) (name : String) (limit : Nat) (message : String) :
    Except String String :=
  match get fields name with
  | none => .ok ""
  | some (.str text) => if text.length ≤ limit then .ok text else .error message
  | some _ => .error message

def readKeys : List Json → Except String (List String)
  | [] => .ok []
  | .str key :: rest => do
      checkKey key
      let keys ← readKeys rest
      return key :: keys
  | _ :: _ => .error "Invalid runtime setting key"

def readChangedKeys (fields : Values) : Except String (List String) :=
  match get fields "changed_keys" with
  | none => .ok []
  | some (.arr items) => do
      require (items.length ≤ 1024) "Invalid settings changed keys"
      let keys ← readKeys items
      require (keys.Nodup) "Duplicate settings changed key"
      return keys
  | some _ => .error "Invalid settings changed keys"

section

variable (codec : Codec)

/-- One turn of the loop of `_decode`, for a history entry or the document. -/
def readEntry (isDocument : Bool) (previous : Int) : Json → Except String Entry
  | .obj fields =>
    match get fields "revision" with
    | some (.int revision) => do
        require (previous < revision) "Invalid settings revision"
        require (isDocument || namesAre fields entryFields) "Invalid settings history fields"
        match get fields "values" with
        | some (.obj values) => do
            checkValues codec values
            let actor ← readString fields "actor" 128 "Invalid settings actor"
            let at_ ← readString fields "at" 64 "Invalid settings timestamp"
            let changedKeys ← readChangedKeys fields
            return ⟨revision, values, actor, changedKeys, at_⟩
        | _ => .error "Invalid runtime settings map"
    | _ => .error "Invalid settings revision"
  | _ => .error "Invalid settings revision"

def readEntries (previous : Int) : List Json → Except String (List Entry × Int)
  | [] => .ok ([], previous)
  | item :: rest => do
      let entry ← readEntry codec false previous item
      let (entries, last) ← readEntries entry.revision rest
      return (entry :: entries, last)

def readDocument : Json → Except String Document
  | .obj fields =>
    match get fields "version" with
    | some (.int 1) => do
        require (namesAre fields documentFields) "Invalid settings document fields"
        match get fields "history" with
        | some (.arr items) => do
            require (items.length ≤ historyLimit) "Invalid settings history"
            let (history, last) ← readEntries codec (-1) items
            let current ← readEntry codec true last (.obj fields)
            return ⟨current, history⟩
        | _ => .error "Invalid settings history"
    | _ => .error "Unsupported settings version"
  | _ => .error "Unsupported settings version"

/-- `_decode`. -/
def decode : Option String → Except String Document
  | none => .ok baseline
  | some raw => do
      require (raw.utf8ByteSize ≤ documentLimit) "Invalid settings document"
      match codec.loads raw with
      | none => .error "Invalid JSON"
      | some json => readDocument codec json

end

end BobbyBotique.Settings
