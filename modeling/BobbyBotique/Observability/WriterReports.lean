import BobbyBotique.Observability.WriterAccounts

/-!
# Refusals and reports of the log writer

A refused submission removes something only from a crowded queue, and a drop stays
unreported only when a summary cannot be made or comes too late: the condition is exact.
-/

namespace BobbyBotique.Observability

namespace LogWriter

variable {cfg : WriterConfig} {now : Clock} {writer after : LogWriter}

/-! ## Refusals and reports -/

/-- A submission that returns false evicts nothing. -/
def Clean (writer : LogWriter) : Prop :=
  ∀ reply ∈ writer.history.replies, reply.accepted = false → reply.evicted = []

/-- No summary is taken any more: the thread has left its loop, or cannot be started. -/
def finished (writer : LogWriter) : Bool :=
  writer.phase.left || (writer.phase.isUnstarted && !writer.accepting)

/-- Every drop is in one summary that was produced, or in the one that the thread has in
hand, or it waits for the next one; in the end none waits. -/
structure Reported (writer : LogWriter) : Prop where
  once : writer.history.dropped = writer.history.produced.flatMap Prod.snd ++
    writer.history.making ++ writer.history.pending
  finished : writer.finished = true → writer.history.pending = []

/-- The high events of the queue. -/
def highs (writer : LogWriter) : List LogEntry := writer.queue.filter fun entry => !entry.low

/-- A high event fits the limits, low events are queued, but the high ones leave no room. -/
def Crowded (cfg : WriterConfig) (writer : LogWriter) (size levelno : Int) : Prop :=
  writer.accepting = true ∧ 30 ≤ levelno ∧ size ≤ cfg.maxBytes ∧
    (∃ entry ∈ writer.queue, entry.low = true) ∧
      (cfg.maxEvents ≤ writer.highs.length ∨ cfg.maxBytes < bytesOf writer.highs + size)

/-- The condition: no submission to a crowded queue, none after the end, no loss summary
factory that raises, and one whenever drops wait as the thread ends or stays unstarted. -/
def Meets (cfg : WriterConfig) (writer : LogWriter) : WriterLabel → Prop
  | .start => True
  | .submit _ payload levelno =>
    ¬Crowded cfg writer payload.length levelno ∧ writer.finished = false
  | .stop => writer.phase.isUnstarted = true → wanted cfg writer = false → writer.hasPending = false
  | .turn outside =>
    match writer.phase with
    | .summarizing _ => outside.made.isSome = true
    | .looping => writer.queue = [] → writer.accepting = false →
        writer.hasPending = true → cfg.lossSummaryFactory = true
    | _ => True

theorem cleared_highs {entry : LogEntry} :
    (cleared cfg now writer entry).highs = writer.highs := by
  refine @cleared_keeps cfg now writer (fun after => after.highs = writer.highs) entry ?_ rfl
  intro between evicted same found
  obtain ⟨isLow, before, rest, whole, left⟩ := @evict_split cfg now between evicted found
  rw [← same, highs, highs, left, whole, List.filter_append, List.filter_append,
    List.filter_cons_of_neg (by rw [isLow]; nofun)]

theorem bytesOf_highs_le (writer : LogWriter) : bytesOf writer.highs ≤ bytesOf writer.queue := by
  rw [highs]
  induction writer.queue with
  | nil => exact le_refl _
  | cons entry rest ih =>
    have nonneg := size_nonneg entry
    rw [List.filter_cons]
    split
    · rw [bytesOf_cons, bytesOf_cons]
      omega
    · rw [bytesOf_cons]
      omega

/-- An event that fits next to the high ones is let in. -/
theorem full_iff_highs {entry : LogEntry} (bounded : Bounded cfg writer)
    (noLow : ∀ each ∈ writer.queue, each.low = false) :
    full cfg writer entry = true ↔
      cfg.maxEvents ≤ writer.highs.length ∨ cfg.maxBytes < bytesOf writer.highs + entry.size := by
  have all : writer.highs = writer.queue :=
    List.filter_eq_self.mpr fun each member => by rw [noLow each member]; rfl
  rw [full, Bool.or_eq_true_iff, decide_eq_true_iff, decide_eq_true_iff, all, bounded.exact]

theorem full_of_highs {entry : LogEntry} (bounded : Bounded cfg writer)
    (crowded : cfg.maxEvents ≤ writer.highs.length ∨
      cfg.maxBytes < bytesOf writer.highs + entry.size) : full cfg writer entry = true := by
  have count : writer.highs.length ≤ writer.queue.length := List.length_filter_le _ _
  have bytes := bytesOf_highs_le writer
  have total := bounded.exact
  rw [full, Bool.or_eq_true_iff, decide_eq_true_iff, decide_eq_true_iff]
  omega

theorem refusal_of_high {entry : LogEntry} (high : entry.low = false)
    (fits : entry.size ≤ cfg.maxBytes) :
    refusal cfg writer entry = none ↔ full cfg writer entry = false := by
  rw [refusal, if_neg (not_lt.mpr fits), WriterConfig.eventLimit, WriterConfig.byteLimit, high,
    full, Bool.or_eq_false_iff, decide_eq_false_iff_not, decide_eq_false_iff_not]
  simp only [Bool.false_eq_true, if_false]
  by_cases room : cfg.maxEvents ≤ writer.queue.length
  · simp only [room, if_true, reduceCtorEq, not_true_eq_false, false_and]
  · by_cases bytes : (cfg.maxBytes : Int) < writer.queuedBytes + entry.size
    · simp only [room, bytes, if_true, if_false, reduceCtorEq, not_true_eq_false, and_false]
    · simp only [room, bytes, if_false, not_false_eq_true, and_self]

theorem cleared_ends {entry : LogEntry} (high : entry.low = false)
    (fits : entry.size ≤ cfg.maxBytes) :
    full cfg (cleared cfg now writer entry) entry = false ∨
      ∀ each ∈ (cleared cfg now writer entry).queue, each.low = false := by
  rw [cleared, if_pos ⟨high, fits⟩]
  exact makeRoom_ends le_rfl

theorem low_eq_false {entry : LogEntry} : entry.low = false ↔ 30 ≤ entry.levelno := by
  rw [LogEntry.low, decide_eq_false_iff_not, not_lt]

/-- A refused submission removes something exactly from a crowded queue. -/
theorem refused_removes_iff {entry : LogEntry} (bounded : Bounded cfg writer) :
    (submit cfg now writer entry).2 = false ∧
        (∃ each ∈ writer.queue, each ∉ (submit cfg now writer entry).1.queue) ↔
      Crowded cfg writer entry.size entry.levelno := by
  have room : Bounded cfg (cleared cfg now writer entry) := bounded.cleared
  constructor
  · rintro ⟨refused, each, member, removed⟩
    rcases submit_cases entry with ⟨_, same⟩ | ⟨open', reason, refusal, _, same⟩ | ⟨_, _, same⟩
    · rw [same] at removed
      exact absurd member removed
    · rw [same] at removed
      change each ∉ (cleared cfg now writer entry).queue at removed
      by_cases condition : entry.low = false ∧ entry.size ≤ cfg.maxBytes
      · obtain ⟨high, fits⟩ := condition
        have isLow : each.low = true := by
          cases isLow : each.low with
          | true => rfl
          | false =>
            have among : each ∈ writer.highs := List.mem_filter.mpr ⟨member, by rw [isLow]; rfl⟩
            rw [← @cleared_highs cfg now writer entry] at among
            exact absurd (List.mem_of_mem_filter among) removed
        have isFull : full cfg (cleared cfg now writer entry) entry = true := by
          cases isFull : full cfg (cleared cfg now writer entry) entry with
          | true => rfl
          | false =>
            rw [(refusal_of_high high fits).mpr isFull] at refusal
            cases refusal
        have noLow := (cleared_ends high fits).resolve_left (by rw [isFull]; nofun)
        have crowded := (full_iff_highs room noLow).mp isFull
        rw [cleared_highs] at crowded
        exact ⟨open', low_eq_false.mp high, fits, ⟨each, member, isLow⟩, crowded⟩
      · rw [cleared, if_neg condition] at removed
        exact absurd member removed
    · rw [same] at refused
      cases refused
  · rintro ⟨open', level, fits, ⟨each, member, isLow⟩, crowded⟩
    have high := low_eq_false.mpr level
    rw [← @cleared_highs cfg now writer entry] at crowded
    have isFull : full cfg (cleared cfg now writer entry) entry = true := full_of_highs room crowded
    have noLow := (cleared_ends high fits).resolve_left (by rw [isFull]; nofun)
    have gone : each ∉ (cleared cfg now writer entry).queue := fun stays => by
      rw [noLow each stays] at isLow
      cases isLow
    rcases submit_cases entry with ⟨closed, _⟩ | ⟨_, reason, _, _, same⟩ | ⟨_, accepted, _⟩
    · rw [open'] at closed
      cases closed
    · rw [same]
      exact ⟨rfl, each, member, gone⟩
    · rw [refusal_of_high high fits, isFull] at accepted
      cases accepted

theorem clean_submitted {payload : List UInt8} {levelno : Int} (bounded : Bounded cfg writer) :
    Clean (submitted cfg now writer payload levelno) ↔
      Clean writer ∧ ¬Crowded cfg writer payload.length levelno := by
  obtain ⟨entry, named⟩ : ∃ entry : LogEntry,
    entry = ⟨writer.history.replies.length, payload, levelno⟩ := ⟨_, rfl⟩
  obtain ⟨fresh, framed, _⟩ := @submit_frame cfg now writer entry
  have size : (payload.length : Int) = entry.size := by rw [named]; rfl
  have level : levelno = entry.levelno := by rw [named]
  rw [submitted_eq payload levelno named, size, level,
    ← @refused_removes_iff cfg now writer entry bounded]
  simp only [Clean, framed.replies, List.forall_mem_append, List.forall_mem_singleton]
  refine and_congr_right fun _ => ?_
  rw [List.filter_eq_nil_iff, not_and]
  refine imp_congr_right fun _ => ?_
  simp only [decide_eq_true_eq, not_not, not_exists, not_and]

theorem Turns.replies {outside : Outside} (turned : Turns cfg outside writer after) :
    after.history.replies = writer.history.replies := by
  cases turned <;> rfl

theorem clean_of_same (replies : after.history.replies = writer.history.replies) :
    Clean after ↔ Clean writer := by
  rw [Clean, Clean, replies]

/-! ### Reports -/

theorem reported_of_same (dropped : after.history.dropped = writer.history.dropped)
    (produced : after.history.produced = writer.history.produced)
    (making : after.history.making = writer.history.making)
    (pending : after.history.pending = writer.history.pending)
    (finished : after.finished = writer.finished) : Reported after ↔ Reported writer := by
  constructor
  · intro reported
    exact ⟨by rw [← dropped, ← produced, ← making, ← pending]; exact reported.once,
      by rw [← finished, ← pending]; exact reported.finished⟩
  · intro reported
    exact ⟨by rw [dropped, produced, making, pending]; exact reported.once,
      by rw [finished, pending]; exact reported.finished⟩

theorem finished_looping (phase : writer.phase = .looping) : writer.finished = false := by
  rw [finished, phase]
  rfl

theorem reported_turns {outside : Outside} (kept : Kept cfg writer)
    (turned : Turns cfg outside writer after) :
    Reported after ↔ Reported writer ∧ Meets cfg writer (.turn outside) := by
  cases turned with
  | @pops entry rest phase queue =>
    have meets : Meets cfg writer (.turn outside) := by
      rw [Meets, phase]
      intro empty
      rw [queue] at empty
      cases empty
    rw [and_iff_left meets]
    exact reported_of_same rfl rfl rfl rfl (finished_looping phase).symm
  | takes phase queue waiting factory =>
    have meets : Meets cfg writer (.turn outside) := by
      rw [Meets, phase]
      exact fun _ _ _ => factory
    have none : writer.history.making = [] := kept.tallied.unmade (by rw [phase]; rfl)
    rw [and_iff_left meets]
    constructor
    · intro reported
      have once := reported.once
      refine ⟨?_, by rw [finished_looping phase]; nofun⟩
      rw [none, List.append_nil]
      simpa only [List.append_nil] using once
    · intro reported
      have once := reported.once
      rw [none, List.append_nil] at once
      exact ⟨by simpa only [List.append_nil] using once, nofun⟩
  | leaves phase queue closed unwanted =>
    have going := finished_looping phase
    have meets : Meets cfg writer (.turn outside) ↔ writer.history.pending = [] := by
      rw [Meets, phase, ← kept.tallied.hasPending]
      cases waiting : writer.hasPending with
      | false => exact iff_of_true (fun _ _ => nofun) rfl
      | true =>
        rw [waiting, Bool.true_and] at unwanted
        refine iff_of_false (fun all => ?_) nofun
        rw [all queue closed rfl] at unwanted
        cases unwanted
    rw [meets]
    exact ⟨fun reported => ⟨⟨reported.once, by rw [going]; nofun⟩, reported.finished rfl⟩,
      fun reported => ⟨reported.1.once, fun _ => reported.2⟩⟩
  | @produces summary payload phase made =>
    have meets : Meets cfg writer (.turn outside) := by
      rw [Meets, phase, made]
      rfl
    have going : writer.finished = false := by
      rw [finished, phase]
      rfl
    rw [and_iff_left meets]
    constructor
    · intro reported
      have once := reported.once
      simp only [List.flatMap_append, List.flatMap_cons, List.flatMap_nil, List.append_nil] at once
      exact ⟨once, by rw [going]; nofun⟩
    · intro reported
      have once := reported.once
      refine ⟨?_, nofun⟩
      simp only [List.flatMap_append, List.flatMap_cons, List.flatMap_nil, List.append_nil]
      exact once
  | @loses summary phase raised =>
    have known := kept.tallied.known
    have some' := List.length_pos_of_ne_nil (kept.tallied.making summary phase).1
    refine iff_of_false (fun reported => ?_) fun ⟨_, meets⟩ => ?_
    · have total := congrArg List.length reported.once
      simp only [List.length_append, List.length_nil] at total
      omega
    · rw [Meets, phase, raised] at meets
      cases meets
  | @writes line phase =>
    have meets : Meets cfg writer (.turn outside) := by
      rw [Meets, phase]
      trivial
    rw [and_iff_left meets]
    refine reported_of_same rfl rfl rfl rfl ?_
    rw [finished, finished, phase]
    cases outside.written <;> rfl
  | quiet _ _ before following left unstarted stays =>
    have meets : Meets cfg writer (.turn outside) := by
      rw [Meets]
      split
      · next phase =>
          rw [phase] at before
          cases before
      · next phase =>
          intro queue closed
          rw [stays phase queue] at closed
          cases closed
      · trivial
    rw [and_iff_left meets]
    refine reported_of_same rfl rfl rfl rfl ?_
    exact congrArg₂ (fun left idle => left || (idle && !writer.accepting)) left unstarted

theorem reported_start : Reported ((start writer).getD writer) ↔ Reported writer := by
  rcases @start_cases writer with same | ⟨phase, open', same⟩
  · rw [same]
  · rw [same]
    refine reported_of_same rfl rfl rfl rfl ?_
    rw [finished, finished, phase, open']
    rfl

theorem reported_stop (kept : Kept cfg writer) :
    Reported ((stop cfg writer).getD writer) ↔ Reported writer ∧ Meets cfg writer .stop := by
  rcases @stop_cases cfg writer with ⟨same, closed⟩ | ⟨same, stays⟩ | ⟨phase, open', idle, same⟩
  · rw [same]
    refine ⟨fun reported => ⟨reported, fun idle _ => ?_⟩, And.left⟩
    refine kept.tallied.hasPending.mpr (reported.finished ?_)
    rw [finished, idle, closed]
    exact Bool.or_true _
  · rw [same]
    cases idle : writer.phase.isUnstarted with
    | false =>
      have meets : Meets cfg writer .stop := by
        rw [Meets, idle]
        nofun
      rw [and_iff_left meets]
      refine reported_of_same rfl rfl rfl rfl ?_
      rw [finished, finished]
      simp only [idle, Bool.false_and]
    | true =>
      rw [idle, Bool.true_and] at stays
      have meets : Meets cfg writer .stop ↔ writer.history.pending = [] := by
        rw [Meets, ← kept.tallied.hasPending]
        exact ⟨fun all => all idle stays, fun none _ _ => none⟩
      have ended : ({ writer with accepting := false } : LogWriter).finished = true := by
        rw [finished]
        simp only [idle, Bool.not_false, Bool.and_true, Bool.or_true]
      rw [meets]
      exact ⟨fun reported => ⟨⟨reported.once, fun _ => reported.finished ended⟩,
        reported.finished ended⟩, fun reported => ⟨reported.1.once, fun _ => reported.2⟩⟩
  · rw [same]
    have meets : Meets cfg writer .stop := by
      intro _ unwanted
      rw [idle] at unwanted
      cases unwanted
    rw [and_iff_left meets]
    refine reported_of_same rfl rfl rfl rfl ?_
    rw [finished, finished, phase, open']
    rfl

theorem reported_submitted {payload : List UInt8} {levelno : Int} (kept : Kept cfg writer) :
    Reported (submitted cfg now writer payload levelno) ↔
      Reported writer ∧ writer.finished = false := by
  obtain ⟨entry, named⟩ : ∃ entry : LogEntry,
    entry = ⟨writer.history.replies.length, payload, levelno⟩ := ⟨_, rfl⟩
  obtain ⟨fresh, framed, lost, closed⟩ := @submit_frame cfg now writer entry
  have same : (submitted cfg now writer payload levelno).finished = writer.finished := by
    rw [submitted_eq payload levelno named, finished, finished]
    exact congrArg₂ (fun (phase : WriterPhase) accepting =>
      phase.left || (phase.isUnstarted && !accepting)) framed.phase framed.accepting
  have once : (submitted cfg now writer payload levelno).history.dropped =
        (submitted cfg now writer payload levelno).history.produced.flatMap Prod.snd ++
          (submitted cfg now writer payload levelno).history.making ++
            (submitted cfg now writer payload levelno).history.pending ↔
      writer.history.dropped = writer.history.produced.flatMap Prod.snd ++
        writer.history.making ++ writer.history.pending := by
    rw [submitted_eq payload levelno named]
    simp only [framed.dropped, framed.produced, framed.making, framed.pending]
    rw [← List.append_assoc, List.append_left_inj]
  have waits : (submitted cfg now writer payload levelno).history.pending =
      writer.history.pending ++ fresh := by
    rw [submitted_eq payload levelno named]
    exact framed.pending
  constructor
  · intro reported
    cases ended : writer.finished with
    | false => exact ⟨⟨once.mp reported.once, by rw [ended]; nofun⟩, rfl⟩
    | true =>
      have stopped : writer.accepting = false := by
        rw [finished, Bool.or_eq_true_iff] at ended
        rcases ended with left | idle
        · exact kept.closed left
        · simpa only [Bool.not_eq_true'] using (Bool.and_eq_true_iff.mp idle).2
      have none := reported.finished (same.trans ended)
      rw [waits] at none
      exact absurd (List.append_eq_nil_iff.mp none).2 (lost (closed stopped))
  · rintro ⟨reported, going⟩
    exact ⟨once.mpr reported.once, by rw [same, going]; nofun⟩

/-! ## The exact condition -/

theorem step_meets (kept : Kept cfg writer) (label : WriterLabel) :
    Clean (step cfg writer label) ∧ Reported (step cfg writer label) ↔
      (Clean writer ∧ Reported writer) ∧ Meets cfg writer label := by
  cases label with
  | start =>
    have clean : Clean ((start writer).getD writer) ↔ Clean writer := by
      refine clean_of_same ?_
      rcases @start_cases writer with same | ⟨_, _, same⟩ <;> rw [same]
    rw [step, clean, reported_start, Meets, and_iff_left trivial]
  | submit now payload levelno =>
    rw [step, clean_submitted kept.bounded, reported_submitted kept, Meets]
    exact and_and_and_comm
  | stop =>
    have clean : Clean ((stop cfg writer).getD writer) ↔ Clean writer := by
      refine clean_of_same ?_
      rcases @stop_cases cfg writer with ⟨same, _⟩ | ⟨same, _⟩ | ⟨_, _, _, same⟩ <;> rw [same]
    rw [step, clean, reported_stop kept, and_assoc]
  | turn outside =>
    have turned := @turns cfg writer outside
    have clean : Clean (turn cfg outside writer) ↔ Clean writer :=
      clean_of_same turned.replies
    rw [step, clean, reported_turns kept turned, and_assoc]

/-- In every run the writer keeps its bounds, order and counts; refusals evict nothing and
drops are reported once exactly if every step meets the condition. -/
theorem log_writer_accounts_iff (cfg : WriterConfig) (autoStart : Bool)
    (labels : List WriterLabel) :
    Kept cfg (Run.run (step cfg) (opened autoStart) labels) ∧
      (Clean (Run.run (step cfg) (opened autoStart) labels) ∧
          Reported (Run.run (step cfg) (opened autoStart) labels) ↔
        Run.Along (step cfg) (Meets cfg) (opened autoStart) labels) := by
  have initial : Kept cfg (opened autoStart) := kept_opened autoStart
  have start : Clean (opened autoStart) ∧ Reported (opened autoStart) := by
    cases autoStart <;> exact ⟨nofun, rfl, nofun⟩
  refine ⟨Run.run_keeps (Kept cfg) (fun _ label kept => kept.step label) initial labels, ?_⟩
  rw [Run.Along.iff_run (Kept cfg) (fun writer => Clean writer ∧ Reported writer)
    (fun _ label kept => kept.step label) (fun _ label kept => step_meets kept label) initial]
  exact and_iff_right start

def smallQueue : WriterConfig := ⟨4, 8, 30, true, true, by decide, by decide, by decide⟩

/-- One low byte, six high ones, and four high ones that do not fit with them. -/
def crowding : List WriterLabel :=
  [.submit ⟨0, 0⟩ [1] 20, .submit ⟨1, 1⟩ [1, 2, 3, 4, 5, 6] 30, .submit ⟨2, 2⟩ [1, 2, 3, 4] 30]

/-- A drop, and a summary that cannot be made. -/
def losing : List WriterLabel :=
  [.submit ⟨0, 0⟩ [1, 2, 3, 4, 5, 6, 7, 8, 9] 20, .stop, .turn ⟨⟨1, 1⟩, none, true⟩,
    .turn ⟨⟨1, 1⟩, none, true⟩]

theorem log_writer_loses :
    ¬Clean (Run.run (step smallQueue) (opened true) crowding) ∧
      ¬Reported (Run.run (step smallQueue) (opened true) losing) := by
  constructor
  · intro clean
    have evicted : ∃ reply ∈ (Run.run (step smallQueue) (opened true) crowding).history.replies,
        reply.accepted = false ∧ reply.evicted ≠ [] := by decide +kernel
    obtain ⟨reply, replied, refused, some'⟩ := evicted
    exact some' (clean reply replied refused)
  · intro reported
    exact absurd reported.once (by decide +kernel)

end LogWriter

end BobbyBotique.Observability
