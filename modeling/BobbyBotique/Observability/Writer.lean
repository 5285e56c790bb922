import BobbyBotique.Foundation.Dict
import BobbyBotique.Foundation.Run

/-!
# The log writer

Producers submit events to a bounded queue; one writer thread takes them off, and reports
what was dropped when it has nothing to write.  Each section under the lock is one step,
and so is each call of a factory or of the stream.  The history is what the code does not
keep: replies, lines handed over, and the drops that each summary is about.
-/

namespace BobbyBotique.Observability

/-! ## Events -/

/-- An event; `serial` is the number of its submission. -/
structure LogEntry where
  serial : Nat
  payload : List UInt8
  levelno : Int
  deriving DecidableEq

namespace LogEntry

def size (entry : LogEntry) : Int := entry.payload.length

/-- Below `logging.WARNING`. -/
def low (entry : LogEntry) : Bool := decide (entry.levelno < 30)

end LogEntry

/-- The lower case of `logging.getLevelName`. -/
def levelName : Int → String
  | 50 => "critical"
  | 40 => "error"
  | 30 => "warning"
  | 20 => "info"
  | 10 => "debug"
  | 0 => "notset"
  | levelno => "level " ++ toString levelno

inductive DropReason where
  | writerStopped
  | evictedForPriority
  | payloadTooLarge
  | eventCapacity
  | byteCapacity
  deriving DecidableEq

def DropReason.text : DropReason → String
  | .writerStopped => "writer_stopped"
  | .evictedForPriority => "evicted_for_priority"
  | .payloadTooLarge => "payload_too_large"
  | .eventCapacity => "event_capacity"
  | .byteCapacity => "byte_capacity"

structure LogDrop where
  entry : LogEntry
  reason : DropReason
  deriving DecidableEq

namespace LogDrop

def level (drop : LogDrop) : String := levelName drop.entry.levelno

def reasonText (drop : LogDrop) : String := drop.reason.text

end LogDrop

/-! ## Counters -/

/-- One more in a counter. -/
def bump (counter : Dict String Nat) (key : String) : Dict String Nat :=
  counter.set key (counter.getD key 0 + 1)

/-- The counter holds how often each key occurs, and no key that does not. -/
def Counts (counter : Dict String Nat) (keys : List String) : Prop :=
  ∀ key, counter.get? key = if key ∈ keys then some (keys.count key) else none

theorem counts_empty : Counts .empty [] := fun key => by
  rw [Dict.get?_empty, if_neg List.not_mem_nil]

theorem Counts.bump {counter : Dict String Nat} {keys : List String} (counts : Counts counter keys)
    (key : String) : Counts (bump counter key) (keys ++ [key]) := by
  intro other
  rw [Observability.bump, Dict.get?_set, Dict.getD, counts key]
  by_cases same : other = key
  · subst same
    rw [if_pos rfl, if_pos (List.mem_append_right _ (List.mem_singleton_self other)),
      List.count_append, List.count_singleton_self]
    by_cases known : other ∈ keys
    · rw [if_pos known, Option.getD_some]
    · rw [if_neg known, Option.getD_none, List.count_eq_zero_of_not_mem known]
  · have differs : other ∉ [key] := fun member => same (List.mem_singleton.mp member)
    rw [if_neg same, counts other, List.count_append, List.count_eq_zero_of_not_mem differs,
      Nat.add_zero]
    simp only [List.mem_append, differs, or_false]

theorem Counts.isEmpty {counter : Dict String Nat} {keys : List String}
    (counts : Counts counter keys) : counter.keys.isEmpty = true ↔ keys = [] := by
  constructor
  · intro empty
    refine List.eq_nil_iff_forall_not_mem.mpr fun key member => ?_
    have stored := Dict.mem_keys_of_get? ((counts key).trans (if_pos member))
    exact List.not_mem_nil (List.isEmpty_iff.mp empty ▸ stored)
  · rintro rfl
    refine List.isEmpty_iff.mpr (List.eq_nil_iff_forall_not_mem.mpr fun key member => ?_)
    obtain ⟨value, found⟩ := (counter.mem_keys_iff key).mp member
    rw [counts key, if_neg List.not_mem_nil] at found
    cases found

/-! ## The writer -/

structure WriterConfig where
  maxEvents : Nat
  maxBytes : Nat
  lossSummaryInterval : Int
  lossSummaryFactory : Bool
  recoverySummaryFactory : Bool
  events_pos : 0 < maxEvents
  bytes_pos : 0 < maxBytes
  interval_pos : 0 < lossSummaryInterval

namespace WriterConfig

variable (cfg : WriterConfig)

def lowEventLimit : Nat := max 1 (cfg.maxEvents - max 1 (cfg.maxEvents / 4))

def lowByteLimit : Nat := max 1 (cfg.maxBytes - max 1 (cfg.maxBytes / 4))

def eventLimit (entry : LogEntry) : Nat := if entry.low then cfg.lowEventLimit else cfg.maxEvents

def byteLimit (entry : LogEntry) : Nat := if entry.low then cfg.lowByteLimit else cfg.maxBytes

theorem eventLimit_le (entry : LogEntry) : cfg.eventLimit entry ≤ cfg.maxEvents := by
  have := cfg.events_pos
  rw [eventLimit, lowEventLimit]
  split <;> omega

theorem byteLimit_le (entry : LogEntry) : cfg.byteLimit entry ≤ cfg.maxBytes := by
  have := cfg.bytes_pos
  rw [byteLimit, lowByteLimit]
  split <;> omega

end WriterConfig

/-- `time.time()` and `time.monotonic()`. -/
structure Clock where
  epoch : Int
  monotonic : Int

structure LossSummary where
  droppedByLevel : Dict String Nat
  droppedByReason : Dict String Nat
  windowStartedEpoch : Option Int
  windowEndedEpoch : Int
  queuedEvents : Nat
  queuedBytes : Int

structure RecoverySummary where
  writeFailures : Nat
  eventsDeliveryUncertain : Nat
  windowStartedEpoch : Option Int
  windowEndedEpoch : Int

inductive LogLine where
  | event (entry : LogEntry)
  | summary (payload : List UInt8)

/-- Where the writer thread is; `last` after it has left its loop. -/
inductive WriterPhase where
  | unstarted
  | looping
  | summarizing (summary : LossSummary)
  | uncounted
  | writing (line : LogLine)
  | failing
  | recovering (last : Bool)
  | reporting (summary : RecoverySummary) (last : Bool)
  | restoring (summary : RecoverySummary) (last : Bool)
  | ended

namespace WriterPhase

def left : WriterPhase → Bool
  | .recovering last | .reporting _ last | .restoring _ last => last
  | .ended => true
  | _ => false

/-- The event in the hands of the thread. -/
def held : WriterPhase → List LogEntry
  | .writing (.event entry) => [entry]
  | _ => []

def isUnstarted : WriterPhase → Bool
  | .unstarted => true
  | _ => false

def isSummarizing : WriterPhase → Bool
  | .summarizing _ => true
  | _ => false

/-- Back to the loop, or out of it. -/
def next (last : Bool) : WriterPhase := if last then .ended else .looping

end WriterPhase

/-- The answer to a submission, and what it removed from the queue. -/
structure LogReply where
  entry : LogEntry
  accepted : Bool
  evicted : List LogEntry

structure LogHistory where
  replies : List LogReply
  handed : List LogEntry
  dropped : List LogDrop
  pending : List LogDrop
  making : List LogDrop
  produced : List (LossSummary × List LogDrop)

structure LogWriter where
  queue : List LogEntry
  queuedBytes : Int
  drops : Dict String Nat
  dropReasons : Dict String Nat
  pendingDrops : Dict String Nat
  pendingDropReasons : Dict String Nat
  lossWindowStarted : Option Int
  lossSummaryDeadline : Option Int
  writeFailures : Nat
  pendingWriteFailures : Nat
  writeFailureWindowStarted : Option Int
  accepting : Bool
  phase : WriterPhase
  history : LogHistory

namespace LogWriter

variable (cfg : WriterConfig)

/-- A new writer, started if `auto_start` is. -/
def opened (autoStart : Bool) : LogWriter :=
  { queue := []
    queuedBytes := 0
    drops := .empty
    dropReasons := .empty
    pendingDrops := .empty
    pendingDropReasons := .empty
    lossWindowStarted := none
    lossSummaryDeadline := none
    writeFailures := 0
    pendingWriteFailures := 0
    writeFailureWindowStarted := none
    accepting := true
    phase := if autoStart then .looping else .unstarted
    history := ⟨[], [], [], [], [], []⟩ }

/-- `_record_drop_locked`. -/
def recordDrop (now : Clock) (writer : LogWriter) (drop : LogDrop) : LogWriter :=
  let fresh := writer.lossWindowStarted.isNone
  { writer with
    drops := bump writer.drops drop.level
    dropReasons := bump writer.dropReasons drop.reasonText
    pendingDrops := bump writer.pendingDrops drop.level
    pendingDropReasons := bump writer.pendingDropReasons drop.reasonText
    lossWindowStarted := if fresh then some now.epoch else writer.lossWindowStarted
    lossSummaryDeadline :=
      if fresh then some (now.monotonic + cfg.lossSummaryInterval) else writer.lossSummaryDeadline
    history := { writer.history with
      dropped := writer.history.dropped ++ [drop]
      pending := writer.history.pending ++ [drop] } }

/-- Remove the first low event, which is `entry`. -/
def evict (now : Clock) (writer : LogWriter) (entry : LogEntry) : LogWriter :=
  recordDrop cfg now
    { writer with
      queue := writer.queue.eraseP LogEntry.low
      queuedBytes := writer.queuedBytes - entry.size }
    ⟨entry, .evictedForPriority⟩

def full (writer : LogWriter) (entry : LogEntry) : Bool :=
  decide (cfg.maxEvents ≤ writer.queue.length) ||
    decide (cfg.maxBytes < writer.queuedBytes + entry.size)

/-- The eviction loop; each round makes the queue shorter. -/
def makeRoom (now : Clock) (newcomer : LogEntry) : Nat → LogWriter → LogWriter
  | 0, writer => writer
  | rounds + 1, writer =>
    if full cfg writer newcomer then
      match writer.queue.find? LogEntry.low with
      | none => writer
      | some entry => makeRoom now newcomer rounds (evict cfg now writer entry)
    else writer

def refusal (writer : LogWriter) (entry : LogEntry) : Option DropReason :=
  if cfg.maxBytes < entry.size then some .payloadTooLarge
  else if cfg.eventLimit entry ≤ writer.queue.length then some .eventCapacity
  else if cfg.byteLimit entry < writer.queuedBytes + entry.size then some .byteCapacity
  else none

/-- The queue that the newcomer meets. -/
def cleared (now : Clock) (writer : LogWriter) (entry : LogEntry) : LogWriter :=
  if entry.low = false ∧ entry.size ≤ cfg.maxBytes then
    makeRoom cfg now entry writer.queue.length writer
  else writer

def submit (now : Clock) (writer : LogWriter) (entry : LogEntry) : LogWriter × Bool :=
  if writer.accepting then
    let room := cleared cfg now writer entry
    match refusal cfg room entry with
    | some reason => (recordDrop cfg now room ⟨entry, reason⟩, false)
    | none =>
      ({ room with
          queue := room.queue ++ [entry]
          queuedBytes := room.queuedBytes + entry.size }, true)
  else (recordDrop cfg now writer ⟨entry, .writerStopped⟩, false)

/-- The submission with its reply. -/
def submitted (now : Clock) (writer : LogWriter) (payload : List UInt8) (levelno : Int) :
    LogWriter :=
  let entry := ⟨writer.history.replies.length, payload, levelno⟩
  let (after, accepted) := submit cfg now writer entry
  let reply := ⟨entry, accepted, writer.queue.filter fun each => each ∉ after.queue⟩
  { after with history := { after.history with replies := after.history.replies ++ [reply] } }

/-- The drops that no summary has taken. -/
def hasPending (writer : LogWriter) : Bool := !writer.pendingDrops.keys.isEmpty

/-- `start`, which raises once the writer is stopped. -/
def start (writer : LogWriter) : Option LogWriter :=
  if writer.phase.isUnstarted then
    if writer.accepting then some { writer with phase := .looping } else none
  else some writer

/-- The thread is wanted to drain something. -/
def wanted (writer : LogWriter) : Bool :=
  !writer.queue.isEmpty || (writer.hasPending && cfg.lossSummaryFactory) ||
    (decide (0 < writer.pendingWriteFailures) && cfg.recoverySummaryFactory)

/-- The locked section of `stop`. -/
def stop (writer : LogWriter) : Option LogWriter :=
  let begun := if writer.phase.isUnstarted && wanted cfg writer then start writer else some writer
  begun.map fun ready => { ready with accepting := false }

/-- `_take_loss_summary_locked`. -/
def takeLossSummary (now : Clock) (force : Bool) (writer : LogWriter) :
    Option (LossSummary × LogWriter) :=
  if writer.hasPending && cfg.lossSummaryFactory then
    if force || writer.lossSummaryDeadline.all fun deadline =>
        decide (deadline ≤ now.monotonic) then
      some (
        { droppedByLevel := writer.pendingDrops
          droppedByReason := writer.pendingDropReasons
          windowStartedEpoch := writer.lossWindowStarted
          windowEndedEpoch := now.epoch
          queuedEvents := writer.queue.length
          queuedBytes := writer.queuedBytes },
        { writer with
          pendingDrops := .empty
          pendingDropReasons := .empty
          lossWindowStarted := none
          lossSummaryDeadline := none
          history := { writer.history with pending := [], making := writer.history.pending } })
    else none
  else none

/-- The locked section of the loop. -/
def take (now : Clock) (writer : LogWriter) : LogWriter :=
  match writer.queue with
  | entry :: rest =>
    { writer with
      queue := rest
      queuedBytes := writer.queuedBytes - entry.size
      phase := .writing (.event entry) }
  | [] =>
    match takeLossSummary cfg now (!writer.accepting) writer with
    | some (summary, taken) => { taken with phase := .summarizing summary }
    | none => if writer.accepting then writer else { writer with phase := .recovering true }

/-- `_record_write_failure`. -/
def recordWriteFailure (now : Clock) (writer : LogWriter) : LogWriter :=
  { writer with
    writeFailures := writer.writeFailures + 1
    pendingWriteFailures := writer.pendingWriteFailures + 1
    writeFailureWindowStarted := some (writer.writeFailureWindowStarted.getD now.epoch) }

/-- `_take_recovery_summary`. -/
def takeRecoverySummary (now : Clock) (writer : LogWriter) :
    Option (RecoverySummary × LogWriter) :=
  if writer.pendingWriteFailures = 0 ∨ cfg.recoverySummaryFactory = false then none
  else
    some (
      { writeFailures := writer.pendingWriteFailures
        eventsDeliveryUncertain := writer.pendingWriteFailures
        windowStartedEpoch := writer.writeFailureWindowStarted
        windowEndedEpoch := now.epoch },
      { writer with pendingWriteFailures := 0, writeFailureWindowStarted := none })

/-- `_restore_recovery_summary`. -/
def restoreRecoverySummary (now : Clock) (summary : RecoverySummary) (writer : LogWriter) :
    LogWriter :=
  { writer with
    writeFailures := writer.writeFailures + 1
    pendingWriteFailures := writer.pendingWriteFailures + summary.writeFailures + 1
    writeFailureWindowStarted := some
      (writer.writeFailureWindowStarted.getD (summary.windowStartedEpoch.getD now.epoch)) }

/-- What a step of the thread meets: the clocks, what a factory makes unless it raises, and
whether the line is decoded, written and flushed. -/
structure Outside where
  now : Clock
  made : Option (List UInt8)
  written : Bool

/-- The next step of the thread. -/
def turn (outside : Outside) (writer : LogWriter) : LogWriter :=
  match writer.phase with
  | .unstarted | .ended => writer
  | .looping => take cfg outside.now writer
  | .summarizing summary =>
    match outside.made with
    | some payload =>
      { writer with
        phase := .writing (.summary payload)
        history := { writer.history with
          making := []
          produced := writer.history.produced ++ [(summary, writer.history.making)] } }
    -- the summary is gone
    | none => { writer with
        phase := .uncounted
        history := { writer.history with making := [] } }
  | .uncounted => { writer with writeFailures := writer.writeFailures + 1, phase := .looping }
  | .writing line =>
    { writer with
      phase := if outside.written then .recovering false else .failing
      history := { writer.history with
        handed := writer.history.handed ++ (WriterPhase.writing line).held } }
  | .failing => { recordWriteFailure outside.now writer with phase := .looping }
  | .recovering last =>
    match takeRecoverySummary cfg outside.now writer with
    | some (summary, taken) => { taken with phase := .reporting summary last }
    | none => { writer with phase := .next last }
  | .reporting summary last =>
    { writer with
      phase := if outside.made.isSome && outside.written then .next last
        else .restoring summary last }
  | .restoring summary last =>
    { restoreRecoverySummary outside.now summary writer with phase := .next last }

inductive WriterLabel where
  | start
  | submit (now : Clock) (payload : List UInt8) (levelno : Int)
  | stop
  | turn (outside : Outside)

/-- A call that raises changes nothing. -/
def step (writer : LogWriter) : WriterLabel → LogWriter
  | .start => (start writer).getD writer
  | .submit now payload levelno => submitted cfg now writer payload levelno
  | .stop => (stop cfg writer).getD writer
  | .turn outside => turn cfg outside writer

end LogWriter

end BobbyBotique.Observability
