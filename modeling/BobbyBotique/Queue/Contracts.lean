import BobbyBotique.Foundation.Dict

/-!
# Queue contracts

The vocabulary shared by the two stores and the workers: outcomes, states,
lanes, policies and public summaries.  Clocks are integers counting
milliseconds, the resolution at which Redis keeps the expiry of a key.
-/

namespace BobbyBotique.Queue

/-- Milliseconds since the epoch. -/
abbrev Time := Int

/-- Twenty-four hours. -/
def metadataRetention : Time := 86400000

/-- Fifteen minutes. -/
def retryPayloadRetention : Time := 900000

def ownerLease : Time := 60000

def executionSettlementGrace : Time := 10000

/-- A duration given in whole seconds. -/
def seconds (count : Nat) : Time := 1000 * count

inductive JobOutcome where
  | succeeded
  | retryableFailure
  | permanentFailure
  | unknownDelivery
  deriving DecidableEq, Repr

theorem JobOutcome.permanent {outcome : JobOutcome} (certain : outcome ≠ .unknownDelivery)
    (final : outcome ≠ .retryableFailure) (failing : outcome ≠ .succeeded) :
    outcome = .permanentFailure := by
  cases outcome <;> first | rfl | contradiction

inductive AdmissionState where
  | accepted
  | existing
  | rejected
  | unknown
  deriving DecidableEq, Repr

inductive JobState where
  | queued
  | delayed
  | running
  | cancelRequested
  | succeeded
  | failed
  | cancelled
  | expired
  | unknownDelivery
  deriving DecidableEq, Repr

namespace JobState

/-- The states of `_ACTIVE`. -/
def active : JobState → Bool
  | queued | delayed | running | cancelRequested => true
  | _ => false

/-- The two states in which an owner holds the job. -/
def owned : JobState → Bool
  | running | cancelRequested => true
  | _ => false

/-- The two states in which the job waits for a claim. -/
def waiting : JobState → Bool
  | queued | delayed => true
  | _ => false

theorem active_eq (state : JobState) : state.active = (state.owned || state.waiting) := by
  cases state <;> rfl

theorem active_of_owned {state : JobState} (owned : state.owned = true) :
    state.active = true := by
  rw [active_eq, owned, Bool.true_or]

theorem owned_eq_false_of_waiting {state : JobState} (waits : state.waiting = true) :
    state.owned = false := by
  cases state <;> first | rfl | cases waits

/-- Nobody holds a job that has ended. -/
theorem owned_eq_false_of_ended {state : JobState} (ended : state.active = false) :
    state.owned = false := by
  rw [active_eq] at ended
  exact (Bool.or_eq_false_iff.mp ended).1

theorem queued_of_waiting {state : JobState} (waits : state.waiting = true)
    (undelayed : state ≠ .delayed) : state = .queued := by
  cases state with
  | queued => rfl
  | delayed => exact absurd rfl undelayed
  | _ => cases waits

theorem running_of_owned {state : JobState} (owned : state.owned = true)
    (unrequested : state ≠ .cancelRequested) : state = .running := by
  cases state <;>
    first
    | rfl
    | exact absurd rfl unrequested
    | cases owned

end JobState

inductive Lane where
  | deferred
  | maintenance
  | daily
  | broadcast
  deriving DecidableEq, Repr

/-- The lanes in the order in which the tables list them. -/
def Lane.all : List Lane := [.deferred, .maintenance, .daily, .broadcast]

def Lane.name : Lane → String
  | .deferred => "deferred"
  | .maintenance => "maintenance"
  | .daily => "daily"
  | .broadcast => "broadcast"

/-- The lane of a name, nothing for a name the tables do not list. -/
def Lane.ofName? (name : String) : Option Lane := Lane.all.find? fun lane => lane.name == name

@[simp] theorem Lane.ofName?_name (lane : Lane) : Lane.ofName? lane.name = some lane := by
  cases lane <;> decide

/-- Queue limits; a policy with a limit below one cannot be built. -/
structure QueuePolicy where
  maxJobs : Nat := 100
  maxPayloadBytes : Nat := 262144
  maxTotalPayloadBytes : Nat := 8388608
  maxAgeSeconds : Nat := 900
  maxAttempts : Nat := 3
  positive : 0 < maxJobs ∧ 0 < maxPayloadBytes ∧ 0 < maxTotalPayloadBytes ∧
    0 < maxAgeSeconds ∧ 0 < maxAttempts := by decide
  deriving DecidableEq

namespace QueuePolicy

/-- The field-by-field minimum of two policies. -/
def meet (first second : QueuePolicy) : QueuePolicy where
  maxJobs := min first.maxJobs second.maxJobs
  maxPayloadBytes := min first.maxPayloadBytes second.maxPayloadBytes
  maxTotalPayloadBytes := min first.maxTotalPayloadBytes second.maxTotalPayloadBytes
  maxAgeSeconds := min first.maxAgeSeconds second.maxAgeSeconds
  maxAttempts := min first.maxAttempts second.maxAttempts
  positive := by
    obtain ⟨a, b, c, d, e⟩ := first.positive
    obtain ⟨a', b', c', d', e'⟩ := second.positive
    exact ⟨lt_min a a', lt_min b b', lt_min c c', lt_min d d', lt_min e e'⟩

end QueuePolicy

def defaultQueuePolicy : QueuePolicy := {}

def dailyQueuePolicy : QueuePolicy := { maxJobs := 32, maxAgeSeconds := 1800 }

def broadcastQueuePolicy : QueuePolicy := { maxJobs := 10 }

/-- The table `LANE_WORKERS`. -/
def laneWorkers : Lane → Nat
  | .deferred => 3
  | .maintenance => 1
  | .daily => 2
  | .broadcast => 1

/-- The table `LANE_POLICIES`. -/
def lanePolicies : Lane → QueuePolicy
  | .deferred => defaultQueuePolicy
  | .maintenance => defaultQueuePolicy
  | .daily => dailyQueuePolicy
  | .broadcast => broadcastQueuePolicy

/-- `_bounded_policy`: no caller exceeds the ceiling of the lane. -/
def boundedPolicy (lane : Lane) (policy : QueuePolicy) : QueuePolicy :=
  policy.meet (lanePolicies lane)

/-! ## Public summaries -/

/-- A value offered for a public summary; `other` is any further Python type. -/
inductive SummaryValue where
  | int (value : Int)
  | str (value : String)
  | bool (value : Bool)
  | other
  deriving DecidableEq

abbrev Summary := Dict String SummaryValue

def publicSummaryFields : List String :=
  ["phase", "total", "completed", "processed", "remaining", "failed", "skipped", "generated",
    "prepared", "updated", "partial", "ready", "date", "game", "language", "difficulty", "mode",
    "actual_model", "model", "settings_revision", "pages", "text_length", "paragraphs", "tables",
    "images_generated", "images_failed", "items_ready", "items_failed", "items_total",
    "error_count", "artifacts_prepared", "artifacts_failed", "tasks_completed", "tasks_total",
    "ok", "status", "effective_revision", "effective_models", "part", "model_plan",
    "puzzle_revision"]

/-- The character class `[A-Za-z0-9_./:+-]`. -/
def wordCharacter (c : Char) : Bool :=
  ('A' ≤ c && c ≤ 'Z') || ('a' ≤ c && c ≤ 'z') || ('0' ≤ c && c ≤ '9') ||
    ['_', '.', '/', ':', '+', '-'].contains c

/-- The character class `[A-Za-z0-9_./:+,; -]`. -/
def listCharacter (c : Char) : Bool := wordCharacter c || [',', ';', ' '].contains c

/-- One entry of `public_summary`: its field is known and its value in range. -/
def publicEntry (key : String) : SummaryValue → Bool
  | .int value =>
    publicSummaryFields.contains key && decide (0 ≤ value) && decide (value ≤ 2 ^ 53 - 1)
  | .bool _ => publicSummaryFields.contains key
  | .str value =>
    publicSummaryFields.contains key &&
      if key = "effective_models" ∨ key = "model_plan" then
        value.toList.all listCharacter && decide (value.length ≤ 512)
      else
        value.toList.all wordCharacter && decide (1 ≤ value.length) && decide (value.length ≤ 128)
  | .other => false

/-- A summary every entry of which may be published. -/
structure PublicSummary where
  fields : Summary
  published : ∀ key value, fields.get? key = some value → publicEntry key value = true

namespace PublicSummary

def empty : PublicSummary := ⟨Dict.empty, fun key value found => by
  rw [Dict.get?_empty] at found
  cases found⟩

instance : Inhabited PublicSummary := ⟨empty⟩

/-- `public_summary`: the checked copy, or nothing where it raises. -/
def ofSummary? (value : Summary) : Option PublicSummary :=
  if checked : ∀ item ∈ value.items, publicEntry item.1 item.2 = true then
    some ⟨value, fun key entry found =>
      checked (key, entry) ((value.mem_items_iff key entry).mpr found)⟩
  else none

/-- Write the listed entries, later ones over earlier ones. -/
def write (summary : PublicSummary) :
    (entries : List (String × SummaryValue)) →
    (∀ item ∈ entries, publicEntry item.1 item.2 = true) → PublicSummary
  | [], _ => summary
  | item :: rest, checked =>
    write
      ⟨summary.fields.set item.1 item.2, fun key value found => by
        rw [Dict.get?_set] at found
        split at found
        · next same =>
            cases found
            rw [same]
            exact checked item List.mem_cons_self
        · exact summary.published key value found⟩
      rest fun other member => checked other (List.mem_cons_of_mem _ member)

/-- The update of one summary by another. -/
def merge (summary update : PublicSummary) : PublicSummary :=
  summary.write update.fields.items fun item member =>
    update.published item.1 item.2 ((update.fields.mem_items_iff _ _).mp member)

end PublicSummary

/-- What a handler reports about one execution. -/
structure JobResult where
  outcome : JobOutcome
  reasonCode : Option String := none
  resultSummary : Summary := Dict.empty
  retryAfter : Option Time := none

end BobbyBotique.Queue
