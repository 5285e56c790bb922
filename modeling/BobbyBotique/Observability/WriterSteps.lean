import BobbyBotique.Observability.Writer
import Mathlib.Algebra.Ring.Int.Defs

/-!
# Steps of the log writer

What eviction, a submission and a step of the thread do to the writer, each said once.
-/

namespace BobbyBotique.Observability

namespace LogWriter

variable {cfg : WriterConfig} {now : Clock} {writer : LogWriter}

/-! ## Room for a newcomer -/

theorem evict_split {entry : LogEntry} (found : writer.queue.find? LogEntry.low = some entry) :
    entry.low = true ∧ ∃ before after, writer.queue = before ++ entry :: after ∧
      (evict cfg now writer entry).queue = before ++ after := by
  obtain ⟨isLow, before, after, split, high⟩ := List.find?_eq_some_iff_append.mp found
  refine ⟨isLow, before, after, split, ?_⟩
  have rest : ∀ each ∈ before, ¬each.low = true := fun each member => by
    simpa using high each member
  change writer.queue.eraseP LogEntry.low = before ++ after
  rw [split, List.eraseP_append_right _ rest, List.eraseP_cons_of_pos isLow]

theorem makeRoom_keeps {good : LogWriter → Prop} {newcomer : LogEntry}
    (keeps : ∀ writer entry, good writer → writer.queue.find? LogEntry.low = some entry →
      good (evict cfg now writer entry)) (rounds : Nat) (initial : good writer) :
    good (makeRoom cfg now newcomer rounds writer) := by
  induction rounds generalizing writer with
  | zero => exact initial
  | succ rounds ih =>
    rw [makeRoom]
    split
    · split
      · exact initial
      · next entry found => exact ih (keeps writer entry initial found)
    · exact initial

theorem cleared_keeps {good : LogWriter → Prop} {newcomer : LogEntry}
    (keeps : ∀ writer entry, good writer → writer.queue.find? LogEntry.low = some entry →
      good (evict cfg now writer entry)) (initial : good writer) :
    good (cleared cfg now writer newcomer) := by
  rw [cleared]
  split
  · exact makeRoom_keeps keeps _ initial
  · exact initial

theorem makeRoom_ends {newcomer : LogEntry} {rounds : Nat}
    (enough : writer.queue.length ≤ rounds) :
    full cfg (makeRoom cfg now newcomer rounds writer) newcomer = false ∨
      ∀ entry ∈ (makeRoom cfg now newcomer rounds writer).queue, entry.low = false := by
  induction rounds generalizing writer with
  | zero =>
    have none : writer.queue = [] := List.length_eq_zero_iff.mp (Nat.le_zero.mp enough)
    refine .inr fun entry member => ?_
    rw [makeRoom, none] at member
    cases member
  | succ rounds ih =>
    rw [makeRoom]
    split
    · split
      · next none =>
          refine .inr fun entry member => ?_
          simpa using List.find?_eq_none.mp none entry member
      · next entry found =>
          refine ih ?_
          obtain ⟨_, before, after, whole, rest⟩ := evict_split found
          rw [rest]
          rw [whole] at enough
          simp only [List.length_append, List.length_cons] at enough ⊢
          omega
    · next fits => exact .inl (Bool.eq_false_iff.mpr fits)

/-! ## Bounds -/

def bytesOf (entries : List LogEntry) : Int := (entries.map LogEntry.size).sum

@[simp] theorem bytesOf_append (first second : List LogEntry) :
    bytesOf (first ++ second) = bytesOf first + bytesOf second := by
  rw [bytesOf, List.map_append, List.sum_append, bytesOf, bytesOf]

@[simp] theorem bytesOf_cons (entry : LogEntry) (rest : List LogEntry) :
    bytesOf (entry :: rest) = entry.size + bytesOf rest := by
  rw [bytesOf, List.map_cons, List.sum_cons, bytesOf]

@[simp] theorem bytesOf_nil : bytesOf [] = 0 := rfl

theorem size_nonneg (entry : LogEntry) : 0 ≤ entry.size := Int.natCast_nonneg _

/-- The queue keeps its limits, and `queued_bytes` is exact. -/
structure Bounded (cfg : WriterConfig) (writer : LogWriter) : Prop where
  events : writer.queue.length ≤ cfg.maxEvents
  bytes : writer.queuedBytes ≤ cfg.maxBytes
  exact : writer.queuedBytes = bytesOf writer.queue

theorem Bounded.evict {entry : LogEntry} (bounded : Bounded cfg writer)
    (found : writer.queue.find? LogEntry.low = some entry) :
    Bounded cfg (evict cfg now writer entry) := by
  obtain ⟨_, before, after, whole, rest⟩ := evict_split found
  have removed : (LogWriter.evict cfg now writer entry).queuedBytes =
      writer.queuedBytes - entry.size := rfl
  have counted := bounded.events
  have kept := bounded.bytes
  have total := bounded.exact
  have nonneg := size_nonneg entry
  rw [whole] at counted total
  simp only [List.length_append, List.length_cons, bytesOf_append, bytesOf_cons] at counted total
  constructor
  · rw [rest, List.length_append]
    omega
  · rw [removed]
    omega
  · rw [removed, rest, bytesOf_append]
    omega

theorem Bounded.cleared {entry : LogEntry} (bounded : Bounded cfg writer) :
    Bounded cfg (cleared cfg now writer entry) :=
  cleared_keeps (fun _ _ => Bounded.evict) bounded

theorem refusal_eq_none {entry : LogEntry} (accepted : refusal cfg writer entry = none) :
    entry.size ≤ cfg.maxBytes ∧ writer.queue.length < cfg.eventLimit entry ∧
      writer.queuedBytes + entry.size ≤ cfg.byteLimit entry := by
  rw [refusal] at accepted
  split at accepted
  · cases accepted
  · next fits =>
      split at accepted
      · cases accepted
      · next room =>
          split at accepted
          · cases accepted
          · next bytes => exact ⟨not_lt.mp fits, not_le.mp room, not_lt.mp bytes⟩

/-- What a submission does. -/
theorem submit_cases (entry : LogEntry) :
    (writer.accepting = false ∧
        submit cfg now writer entry = (recordDrop cfg now writer ⟨entry, .writerStopped⟩, false)) ∨
      (writer.accepting = true ∧ ∃ reason, refusal cfg (cleared cfg now writer entry) entry =
          some reason ∧ reason ≠ .evictedForPriority ∧ submit cfg now writer entry =
            (recordDrop cfg now (cleared cfg now writer entry) ⟨entry, reason⟩, false)) ∨
      (writer.accepting = true ∧ refusal cfg (cleared cfg now writer entry) entry = none ∧
        submit cfg now writer entry =
          ({ cleared cfg now writer entry with
              queue := (cleared cfg now writer entry).queue ++ [entry]
              queuedBytes := (cleared cfg now writer entry).queuedBytes + entry.size }, true)) := by
  rw [submit]
  cases open' : writer.accepting with
  | false => exact .inl ⟨rfl, rfl⟩
  | true =>
    refine .inr ?_
    cases refused : refusal cfg (cleared cfg now writer entry) entry with
    | none => exact .inr ⟨rfl, rfl, by simp only [refused, if_true]⟩
    | some reason =>
      refine .inl ⟨rfl, reason, rfl, ?_, by simp only [refused, if_true]⟩
      rintro rfl
      rw [refusal] at refused
      split at refused
      · cases refused
      · split at refused
        · cases refused
        · split at refused <;> cases refused

theorem Bounded.submit {entry : LogEntry} (bounded : Bounded cfg writer) :
    Bounded cfg (submit cfg now writer entry).1 := by
  have room : Bounded cfg (LogWriter.cleared cfg now writer entry) := bounded.cleared
  rcases submit_cases entry with
    ⟨_, same⟩ | ⟨_, reason, _, _, same⟩ | ⟨_, accepted, same⟩
  · rw [same]
    exact ⟨bounded.events, bounded.bytes, bounded.exact⟩
  · rw [same]
    exact ⟨room.events, room.bytes, room.exact⟩
  · obtain ⟨_, events, bytes⟩ := refusal_eq_none accepted
    have eventLimit := cfg.eventLimit_le entry
    have byteLimit := cfg.byteLimit_le entry
    rw [same]
    constructor
    · rw [List.length_append, List.length_singleton]
      omega
    · change (LogWriter.cleared cfg now writer entry).queuedBytes + entry.size ≤ _
      omega
    · change (LogWriter.cleared cfg now writer entry).queuedBytes + entry.size = _
      rw [bytesOf_append, room.exact, bytesOf_cons, bytesOf_nil, Int.add_zero]

theorem takeLossSummary_eq_some {force : Bool} {summary : LossSummary} {taken : LogWriter}
    (took : takeLossSummary cfg now force writer = some (summary, taken)) :
    writer.hasPending = true ∧ cfg.lossSummaryFactory = true ∧
      summary.droppedByLevel = writer.pendingDrops ∧
      summary.droppedByReason = writer.pendingDropReasons ∧
      taken = { writer with
        pendingDrops := .empty
        pendingDropReasons := .empty
        lossWindowStarted := none
        lossSummaryDeadline := none
        history := { writer.history with pending := [], making := writer.history.pending } } := by
  rw [takeLossSummary] at took
  split at took
  · next wanted =>
      split at took
      · cases took
        obtain ⟨waiting, factory⟩ := Bool.and_eq_true_iff.mp wanted
        exact ⟨waiting, factory, rfl, rfl, rfl⟩
      · cases took
  · cases took

theorem takeRecoverySummary_eq_some {summary : RecoverySummary} {taken : LogWriter}
    (took : takeRecoverySummary cfg now writer = some (summary, taken)) :
    taken = { writer with pendingWriteFailures := 0, writeFailureWindowStarted := none } := by
  rw [takeRecoverySummary] at took
  split at took
  · cases took
  · cases took
    rfl

/-! ## Steps of the thread -/

/-- What a step of the thread leads to. -/
inductive Turns (cfg : WriterConfig) (outside : Outside) (writer : LogWriter) :
    LogWriter → Prop where
  | pops {entry : LogEntry} {rest : List LogEntry} (phase : writer.phase = .looping)
      (queue : writer.queue = entry :: rest) :
      Turns cfg outside writer { writer with
        queue := rest
        queuedBytes := writer.queuedBytes - entry.size
        phase := .writing (.event entry) }
  | takes {summary : LossSummary} (phase : writer.phase = .looping) (queue : writer.queue = [])
      (waiting : writer.hasPending = true) (factory : cfg.lossSummaryFactory = true)
      (levels : summary.droppedByLevel = writer.pendingDrops)
      (reasons : summary.droppedByReason = writer.pendingDropReasons) :
      Turns cfg outside writer { writer with
        pendingDrops := .empty
        pendingDropReasons := .empty
        lossWindowStarted := none
        lossSummaryDeadline := none
        phase := .summarizing summary
        history := { writer.history with pending := [], making := writer.history.pending } }
  | leaves (phase : writer.phase = .looping) (queue : writer.queue = [])
      (closed : writer.accepting = false)
      (unwanted : (writer.hasPending && cfg.lossSummaryFactory) = false) :
      Turns cfg outside writer { writer with phase := .recovering true }
  | produces {summary : LossSummary} {payload : List UInt8}
      (phase : writer.phase = .summarizing summary) (made : outside.made = some payload) :
      Turns cfg outside writer { writer with
        phase := .writing (.summary payload)
        history := { writer.history with
          making := []
          produced := writer.history.produced ++ [(summary, writer.history.making)] } }
  | loses {summary : LossSummary} (phase : writer.phase = .summarizing summary)
      (raised : outside.made = none) :
      Turns cfg outside writer { writer with
        phase := .uncounted
        history := { writer.history with making := [] } }
  | writes {line : LogLine} (phase : writer.phase = .writing line) :
      Turns cfg outside writer { writer with
        phase := if outside.written then .recovering false else .failing
        history := { writer.history with
          handed := writer.history.handed ++ (WriterPhase.writing line).held } }
  | quiet {after : WriterPhase} {failures unreported : Nat} {window : Option Int}
      (heldBefore : writer.phase.held = []) (heldAfter : after.held = [])
      (before : writer.phase.isSummarizing = false) (following : after.isSummarizing = false)
      (left : after.left = writer.phase.left)
      (unstarted : after.isUnstarted = writer.phase.isUnstarted)
      (stays : writer.phase = .looping → writer.queue = [] → writer.accepting = true) :
      Turns cfg outside writer { writer with
        phase := after
        writeFailures := failures
        pendingWriteFailures := unreported
        writeFailureWindowStarted := window }

theorem next_left (last : Bool) : (WriterPhase.next last).left = last := by
  cases last <;> rfl

theorem take_turns {outside : Outside} (phase : writer.phase = .looping) :
    Turns cfg outside writer (take cfg outside.now writer) := by
  cases queue : writer.queue with
  | cons entry rest =>
    simp only [take, queue]
    exact .pops phase queue
  | nil =>
    simp only [take, queue]
    cases took : takeLossSummary cfg outside.now (!writer.accepting) writer with
    | some result =>
      obtain ⟨summary, taken⟩ := result
      obtain ⟨waiting, factory, levels, reasons, rfl⟩ := takeLossSummary_eq_some took
      exact .takes phase queue waiting factory levels reasons
    | none =>
      cases open' : writer.accepting with
      | true =>
        have same : Turns cfg outside writer { writer with phase := writer.phase } :=
          .quiet (by rw [phase]; rfl) (by rw [phase]; rfl) (by rw [phase]; rfl)
            (by rw [phase]; rfl) rfl rfl fun _ _ => open'
        exact same
      | false =>
        have unwanted : (writer.hasPending && cfg.lossSummaryFactory) = false := by
          rw [takeLossSummary, open'] at took
          cases wanted : writer.hasPending && cfg.lossSummaryFactory with
          | false => rfl
          | true => simp only [wanted, Bool.not_false, Bool.true_or, if_true, reduceCtorEq] at took
        have same : Turns cfg outside writer { writer with phase := .recovering true } :=
          .leaves phase queue open' unwanted
        simpa only [queue, open', Bool.false_eq_true, if_false] using same

theorem turns (outside : Outside) : Turns cfg outside writer (turn cfg outside writer) := by
  have idle {after : WriterPhase} {failures unreported : Nat} {window : Option Int}
      (notLooping : writer.phase ≠ .looping) (heldBefore : writer.phase.held = [])
      (heldAfter : after.held = []) (before : writer.phase.isSummarizing = false)
      (following : after.isSummarizing = false) (left : after.left = writer.phase.left)
      (unstarted : after.isUnstarted = writer.phase.isUnstarted) :
      Turns cfg outside writer { writer with
        phase := after
        writeFailures := failures
        pendingWriteFailures := unreported
        writeFailureWindowStarted := window } :=
    .quiet heldBefore heldAfter before following left unstarted fun looping =>
      absurd looping notLooping
  cases phase : writer.phase with
  | unstarted =>
    simp only [turn, phase]
    exact idle (by rw [phase]; nofun) (by rw [phase]; rfl) (by rw [phase]; rfl)
      (by rw [phase]; rfl) (by rw [phase]; rfl) rfl rfl
  | ended =>
    simp only [turn, phase]
    exact idle (by rw [phase]; nofun) (by rw [phase]; rfl) (by rw [phase]; rfl)
      (by rw [phase]; rfl) (by rw [phase]; rfl) rfl rfl
  | looping =>
    simp only [turn, phase]
    exact take_turns phase
  | summarizing summary =>
    simp only [turn, phase]
    cases made : outside.made with
    | some payload => exact .produces phase made
    | none => exact .loses phase made
  | uncounted =>
    simp only [turn, phase]
    exact idle (by rw [phase]; nofun) (by rw [phase]; rfl) rfl (by rw [phase]; rfl) rfl
      (by rw [phase]; rfl) (by rw [phase]; rfl)
  | writing line =>
    simp only [turn, phase]
    exact .writes phase
  | failing =>
    simp only [turn, phase, recordWriteFailure]
    exact idle (by rw [phase]; nofun) (by rw [phase]; rfl) rfl (by rw [phase]; rfl) rfl
      (by rw [phase]; rfl) (by rw [phase]; rfl)
  | recovering last =>
    simp only [turn, phase]
    cases took : takeRecoverySummary cfg outside.now writer with
    | some result =>
      obtain ⟨summary, taken⟩ := result
      rw [takeRecoverySummary_eq_some took]
      exact idle (by rw [phase]; nofun) (by rw [phase]; rfl) rfl (by rw [phase]; rfl) rfl
        (by rw [phase]; rfl) (by rw [phase]; rfl)
    | none =>
      exact idle (by rw [phase]; nofun) (by rw [phase]; rfl) (by cases last <;> rfl)
        (by rw [phase]; rfl) (by cases last <;> rfl) (by rw [phase, next_left]; rfl)
        (by rw [phase]; cases last <;> rfl)
  | reporting summary last =>
    simp only [turn, phase]
    split
    · exact idle (by rw [phase]; nofun) (by rw [phase]; rfl) (by cases last <;> rfl)
        (by rw [phase]; rfl) (by cases last <;> rfl) (by rw [phase, next_left]; rfl)
        (by rw [phase]; cases last <;> rfl)
    · exact idle (by rw [phase]; nofun) (by rw [phase]; rfl) rfl (by rw [phase]; rfl) rfl
        (by rw [phase]; rfl) (by rw [phase]; rfl)
  | restoring summary last =>
    simp only [turn, phase, restoreRecoverySummary]
    exact idle (by rw [phase]; nofun) (by rw [phase]; rfl) (by cases last <;> rfl)
      (by rw [phase]; rfl) (by cases last <;> rfl) (by rw [phase, next_left]; rfl)
      (by rw [phase]; cases last <;> rfl)

end LogWriter

end BobbyBotique.Observability
