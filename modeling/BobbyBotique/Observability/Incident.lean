import BobbyBotique.Foundation.Worklist
import BobbyBotique.Observability.EventBudget
import Mathlib.Data.Char
import Mathlib.Data.List.Lex
import Mathlib.Data.List.Sort

/-!
# Incident export

`export_incident` over the parsed rows of a log: the direct matches, the worklist over the
correlation tokens, the redaction of the selected events, their order and the starts without
a terminal.
-/

namespace BobbyBotique.Observability

attribute [local instance] lawful_letters

/-- What the interpreter and its library bring, and the secrets that are registered. -/
structure IncidentLibrary where
  language : Language
  known : List Text
  /-- `parse_rfc3339`, without an exception. -/
  parseTime : Text → Option Int
  /-- The integer that a float is equal to. -/
  floatInt : UInt64 → Option Int
  /-- `_pseudonym`. -/
  pseudonym : Text → JsonValue → Text
  str : JsonValue → Text
  str_text : ∀ text, str (.text text) = text

/-- A parsed line of the log with its number. -/
structure LogRow where
  line : Nat
  event : Fields

structure IncidentCriteria where
  requestId : Option Text
  errorId : Option Text
  userId : Option Int
  since : Option Int
  until' : Option Int

/-- `IncidentCriteria.validate`. -/
def IncidentCriteria.validate (criteria : IncidentCriteria) : Except Text Unit :=
  if criteria.requestId.isNone && criteria.errorId.isNone && criteria.userId.isNone then
    .error "select at least one of request_id, error_id, or user_id".toList
  else if criteria.userId.isSome && (criteria.since.isNone || criteria.until'.isNone) then
    .error "user selection requires both --since and --until".toList
  else if criteria.since.any fun since => criteria.until'.any fun until' => until' < since then
    .error "--since must not be after --until".toList
  else .ok ()

/-! ## Rows and tokens -/

/-- `event.get(name)`, if it is a string. -/
def textOf (name : Text) (event : Fields) : Option Text :=
  match lookup name event with
  | some (.text text) => some text
  | _ => none

def timestampField : Text := "timestamp".toList

def correlationFields : List (Text × Text) :=
  [("request_id", "request"), ("origin_request_id", "request"),
    ("client_request_id", "client_request"), ("trace_id", "trace"),
    ("origin_trace_id", "trace"), ("span_id", "span"), ("parent_span_id", "span"),
    ("origin_span_id", "span"), ("task_id", "task"), ("job_id", "task"),
    ("execution_id", "execution"), ("attempt_id", "attempt"), ("race_id", "race"),
    ("delivery_id", "delivery"), ("operation_id", "operation"), ("error_id", "error"),
    ("upstream_error_id", "error"), ("original_error_id", "error")].map
      fun pair => (pair.1.toList, pair.2.toList)

/-- `_correlation_tokens`. -/
def correlationTokens (event : Fields) : List (Text × Text) :=
  (correlationFields.filterMap fun entry =>
    match textOf entry.1 event with
    | some value => if value = [] then none else some (entry.2, value)
    | none => none).dedup

section

variable (lib : IncidentLibrary) (criteria : IncidentCriteria)

def eventTime (event : Fields) : Option Int := (textOf timestampField event).bind lib.parseTime

/-- `_within_time_window`. -/
def withinTimeWindow (event : Fields) : Bool :=
  match eventTime lib event with
  | none => false
  | some time =>
    criteria.since.all (fun since => decide (since ≤ time)) &&
      criteria.until'.all fun until' => decide (time ≤ until')

/-- A value that `==` finds equal to an integer. -/
def equalsInt (user : Int) : Option JsonValue → Bool
  | some (.scalar (.int value)) => value == user
  | some (.scalar (.bool value)) => (if value then 1 else 0) == user
  | some (.scalar (.float bits)) => lib.floatInt bits == some user
  | _ => false

/-- `_matches`. -/
def matchesCriteria (event : Fields) : Bool :=
  withinTimeWindow lib criteria event &&
    (criteria.requestId.any (fun id => textOf "request_id".toList event == some id) ||
      criteria.errorId.any (fun id => textOf "error_id".toList event == some id ||
        textOf "upstream_error_id".toList event == some id) ||
      criteria.userId.any fun user => equalsInt lib user (lookup "user_id".toList event) ||
        equalsInt lib user (lookup "actor_user_id".toList event))

variable (rows : List LogRow)

/-- `row_tokens[index]`. -/
def rowTokens (index : Nat) : List (Text × Text) :=
  match rows[index]? with
  | some row => if withinTimeWindow lib criteria row.event then correlationTokens row.event else []
  | none => []

/-- `token_index.get(token, ())`. -/
def tokenIndex (token : Text × Text) : List Nat :=
  (List.range rows.length).filter fun index => decide (token ∈ rowTokens lib criteria rows index)

def directIndices : List Nat :=
  (List.range rows.length).filter fun index =>
    (rows[index]?).any fun row => matchesCriteria lib criteria row.event

def startSearch : Worklist.Search Nat (Text × Text) :=
  Worklist.start (rowTokens lib criteria rows) (directIndices lib criteria rows)

/-- The `while` loop, with as many rounds as it can need. -/
def search : Worklist.Search Nat (Text × Text) :=
  Worklist.rounds (rowTokens lib criteria rows) (tokenIndex lib criteria rows)
    (Worklist.weight (rowTokens lib criteria rows) (List.range rows.length)
      (startSearch lib criteria rows)) (startSearch lib criteria rows)

end

/-! ## Redacted events -/

mutual

/-- The objects of a JSON value, each behind what it holds. -/
def allocate : JsonValue → List Object → Value × List Object
  | .scalar scalar, heap => (.scalar scalar, heap)
  | .text text, heap => (.text text, heap)
  | .list items, heap =>
    let inner := allocateItems items heap
    (.object inner.2.length, inner.2 ++ [.collection inner.1])
  | .object fields, heap =>
    let inner := allocateFields fields heap
    (.object inner.2.length, inner.2 ++ [.mapping inner.1])

def allocateItems : List JsonValue → List Object → List Value × List Object
  | [], heap => ([], heap)
  | item :: rest, heap =>
    let first := allocate item heap
    let others := allocateItems rest first.2
    (first.1 :: others.1, others.2)

def allocateFields : List (Text × JsonValue) → List Object → List (Key × Value) × List Object
  | [], heap => ([], heap)
  | (key, value) :: rest, heap =>
    let first := allocate value heap
    let others := allocateFields rest first.2
    ((.text key, first.1) :: others.1, others.2)

end

def contentFields : List Text :=
  ["body", "content", "content_preview", "content_text", "document_text", "message_preview",
    "prompt", "query", "response", "response_body", "text"].map String.toList

/-- `_IDENTIFIER_FIELDS`, each with its kind. -/
def identifierFields : List (Text × Text) :=
  [("user_id", "user"), ("chat_id", "chat"), ("actor_user_id", "actor_user"),
    ("actor_chat_id", "actor_chat")].map fun pair => (pair.1.toList, pair.2.toList)

def sourceLine : Text := "source_line".toList

section

variable (lib : IncidentLibrary) (includeIdentifiers includeContent : Bool)

/-- `sanitize_event` of a JSON object. -/
def sanitizedFields (event : Fields) : Fields :=
  let heap := (allocate (.object event) []).2
  (sanitizeEvent lib.language (fun identity => heap.getD identity (.other [])) lib.known
    (heap.length - 1)).getD [("event".toList, .text "incident.invalid_event".toList)]

def pseudonymize (event : Fields) (entry : Text × Text) : Fields :=
  changeField entry.1 (fun value =>
    match value with
    | .scalar .none => value
    | value => .text (lib.pseudonym entry.2 value)) event

/-- `_safe_selected_event`. -/
def safeSelectedEvent (event : Fields) : Fields :=
  let kept := if includeContent then event
    else contentFields.foldl (fun event name => popField name event) event
  sanitizedFields lib
    (if includeIdentifiers then kept else identifierFields.foldl (pseudonymize lib) kept)

def exportedRow (row : LogRow) : LogRow :=
  ⟨row.line, setField sourceLine (.scalar (.int row.line))
    (safeSelectedEvent lib includeIdentifiers includeContent row.event)⟩

/-- `str(event.get("timestamp", ""))`. -/
def stamp (event : Fields) : Text := ((lookup timestampField event).map lib.str).getD []

/-- The order of the sort: by the text of the timestamp, then by the line. -/
def Ordered (first second : LogRow) : Prop :=
  stamp lib first.event < stamp lib second.event ∨
    stamp lib first.event = stamp lib second.event ∧ first.line ≤ second.line

instance : DecidableRel (Ordered lib) := fun _ _ => inferInstanceAs (Decidable (_ ∨ _ ∧ _))

end

/-! ## Starts without a terminal -/

/-- An entry of `_START_TO_FINISH` with its identity field. -/
structure StartKind where
  start : Text
  finish : Text
  identity : Text
  deriving DecidableEq

def startKinds : List StartKind :=
  [("provider.attempt_started", "provider.attempt_finished", "attempt_id"),
    ("workload.attempt_started", "workload.attempt_finished", "attempt_id"),
    ("delivery.started", "delivery.finished", "delivery_id"),
    ("job.started", "job.finished", "execution_id"),
    ("database.operation_started", "database.operation_finished", "operation_id")].map
      fun kind => ⟨kind.1.toList, kind.2.1.toList, kind.2.2.toList⟩

/-- What `_integrity` has read. -/
structure Integrity where
  eventIds : List Text
  duplicates : Nat
  starts : List (Text × Text)
  terminals : List (Text × Text)

def eventField : Text := "event".toList

def readKind (event : Fields) (name : Text) (read : Integrity) (kind : StartKind) : Integrity :=
  match textOf kind.identity event with
  | none => read
  | some identity =>
    if name = kind.start then { read with starts := read.starts ++ [(identity, kind.finish)] }
    else if name = kind.finish then
      { read with terminals := (identity, kind.finish) :: read.terminals }
    else read

def readId (event : Fields) (read : Integrity) : Integrity :=
  match textOf "event_id".toList event with
  | none => read
  | some id =>
    { read with
      duplicates := if id ∈ read.eventIds then read.duplicates + 1 else read.duplicates
      eventIds := id :: read.eventIds }

/-- One event of the loop. -/
def readEvent (read : Integrity) (event : Fields) : Integrity :=
  match textOf eventField event with
  | none => readId event read
  | some name => startKinds.foldl (readKind event name) (readId event read)

def readEvents (events : List Fields) : Integrity := events.foldl readEvent ⟨[], 0, [], []⟩

/-- The second result of `_integrity`. -/
def missingTerminals (events : List Fields) : List Text :=
  let read := readEvents events
  ((read.starts.filter fun start => decide (start ∉ read.terminals)).map
    Prod.fst).dedup.insertionSort (· ≤ ·)

/-! ## The export -/

/-- What the bundle is written from. -/
structure IncidentExport where
  selected : List LogRow
  directMatches : Nat
  duplicateEventIds : Nat
  missing : List Text

/-- `export_incident`, from the parsed rows on. -/
def exportIncident (lib : IncidentLibrary) (criteria : IncidentCriteria)
    (includeIdentifiers includeContent : Bool) (rows : List LogRow) :
    Except Text IncidentExport :=
  match criteria.validate with
  | .error message => .error message
  | .ok () =>
    let selected := (((search lib criteria rows).selected.filterMap (rows[·]?)).map
      (exportedRow lib includeIdentifiers includeContent)).insertionSort (Ordered lib)
    let events := selected.map LogRow.event
    .ok ⟨selected, (directIndices lib criteria rows).length, (readEvents events).duplicates,
      missingTerminals events⟩

end BobbyBotique.Observability
