import BobbyBotique.Observability.WriterSteps

/-!
# Accounts of the log writer

Along every run the queue keeps its limits, every event is in one place, the kept ones are
in order, and the counters and the summaries count the drops.
-/

namespace BobbyBotique.Observability

namespace LogWriter

variable {cfg : WriterConfig} {now : Clock} {writer after : LogWriter}

/-! ## Places -/

/-- The accepted events that are kept: handed over, in hand, or queued. -/
def line (writer : LogWriter) : List LogEntry :=
  writer.history.handed ++ writer.phase.held ++ writer.queue

/-- Every event is in one place, and the kept ones are in the order of acceptance. -/
structure Ordered (writer : LogWriter) : Prop where
  numbered : (writer.history.replies.map fun reply => reply.entry.serial) =
    List.range writer.history.replies.length
  once : (writer.history.replies.map LogReply.entry).Perm
    (writer.line ++ writer.history.dropped.map LogDrop.entry)
  inOrder : writer.line.Pairwise fun first second => first.serial < second.serial
  priority : ∀ reply ∈ writer.history.replies, reply.accepted = true →
    reply.entry.low = false → reply.entry ∈ writer.line

theorem Ordered.of_same (ordered : Ordered writer) (line : after.line = writer.line)
    (replies : after.history.replies = writer.history.replies)
    (dropped : after.history.dropped = writer.history.dropped) : Ordered after :=
  ⟨by rw [replies]; exact ordered.numbered, by rw [replies, line, dropped]; exact ordered.once,
    by rw [line]; exact ordered.inOrder, by rw [replies, line]; exact ordered.priority⟩

theorem Ordered.serial_lt (ordered : Ordered writer) {entry : LogEntry}
    (member : entry ∈ writer.line) : entry.serial < writer.history.replies.length := by
  have among := ordered.once.symm.subset (List.mem_append_left _ member)
  obtain ⟨reply, replied, rfl⟩ := List.mem_map.mp among
  have numbered : reply.entry.serial ∈ List.range writer.history.replies.length := by
    rw [← ordered.numbered]
    exact List.mem_map_of_mem replied
  exact List.mem_range.mp numbered

theorem Ordered.evict {entry : LogEntry} (ordered : Ordered writer)
    (found : writer.queue.find? LogEntry.low = some entry) :
    Ordered (evict cfg now writer entry) := by
  obtain ⟨isLow, before, rest, whole, left⟩ := evict_split found
  have kept : (LogWriter.evict cfg now writer entry).line =
      writer.history.handed ++ writer.phase.held ++ (before ++ rest) := by
    rw [line, left]
    rfl
  have old : writer.line =
      writer.history.handed ++ writer.phase.held ++ (before ++ entry :: rest) := by
    rw [line, whole]
  have sub : (LogWriter.evict cfg now writer entry).line.Sublist writer.line := by
    rw [kept, old]
    exact (((List.sublist_cons_self entry rest).append_left before).append_left _)
  constructor
  · exact ordered.numbered
  · refine ordered.once.trans (List.perm_iff_count.mpr fun each => ?_)
    rw [kept, old]
    simp only [LogWriter.evict, recordDrop, List.map_append, List.map_cons, List.map_nil,
      List.count_append, List.count_cons, List.count_nil]
    omega
  · exact ordered.inOrder.sublist sub
  · intro reply replied accepted high
    have among := ordered.priority reply replied accepted high
    rw [old] at among
    rw [kept]
    simp only [List.mem_append, List.mem_cons] at among ⊢
    rcases among with place | place | rfl | place
    · exact .inl place
    · exact .inr (.inl place)
    · rw [isLow] at high
      cases high
    · exact .inr (.inr place)

theorem Ordered.cleared {entry : LogEntry} (ordered : Ordered writer) :
    Ordered (cleared cfg now writer entry) :=
  cleared_keeps (fun _ _ => Ordered.evict) ordered

/-- What a submission leaves as it is, and the drops that it adds. -/
structure Framed (writer after : LogWriter) (fresh : List LogDrop) : Prop where
  replies : after.history.replies = writer.history.replies
  handed : after.history.handed = writer.history.handed
  phase : after.phase = writer.phase
  accepting : after.accepting = writer.accepting
  making : after.history.making = writer.history.making
  produced : after.history.produced = writer.history.produced
  dropped : after.history.dropped = writer.history.dropped ++ fresh
  pending : after.history.pending = writer.history.pending ++ fresh

theorem Framed.recordDrop {fresh : List LogDrop} (framed : Framed writer after fresh)
    (queue : List LogEntry) (bytes : Int) (drop : LogDrop) :
    Framed writer
      (recordDrop cfg now { after with queue := queue, queuedBytes := bytes } drop)
      (fresh ++ [drop]) where
  replies := framed.replies
  handed := framed.handed
  phase := framed.phase
  accepting := framed.accepting
  making := framed.making
  produced := framed.produced
  dropped := by
    change after.history.dropped ++ [drop] = _
    rw [framed.dropped, List.append_assoc]
  pending := by
    change after.history.pending ++ [drop] = _
    rw [framed.pending, List.append_assoc]

theorem Framed.refl (writer : LogWriter) : Framed writer writer [] :=
  ⟨rfl, rfl, rfl, rfl, rfl, rfl, (List.append_nil _).symm, (List.append_nil _).symm⟩

theorem cleared_framed {entry : LogEntry} :
    ∃ fresh, Framed writer (cleared cfg now writer entry) fresh := by
  refine @cleared_keeps cfg now writer (fun after => ∃ fresh, Framed writer after fresh) entry ?_
    ⟨[], .refl writer⟩
  rintro between evicted ⟨fresh, framed⟩ _
  exact ⟨_, framed.recordDrop (between.queue.eraseP LogEntry.low)
    (between.queuedBytes - evicted.size) ⟨evicted, .evictedForPriority⟩⟩

theorem submitted_eq (payload : List UInt8) (levelno : Int) {entry : LogEntry}
    (named : entry = ⟨writer.history.replies.length, payload, levelno⟩) :
    submitted cfg now writer payload levelno =
      { (submit cfg now writer entry).1 with
        history := { (submit cfg now writer entry).1.history with
          replies := (submit cfg now writer entry).1.history.replies ++
            [⟨entry, (submit cfg now writer entry).2,
              writer.queue.filter fun each =>
                each ∉ (submit cfg now writer entry).1.queue⟩] } } := by
  subst named
  rfl

theorem line_append {entry : LogEntry} (phase : after.phase = writer.phase)
    (handed : after.history.handed = writer.history.handed)
    (queue : after.queue = writer.queue ++ [entry]) : after.line = writer.line ++ [entry] := by
  rw [line, phase, handed, queue, ← List.append_assoc, line]

/-- The newcomer goes to the end of the line. -/
theorem Ordered.admitted {reply : LogReply} (ordered : Ordered writer)
    (number : reply.entry.serial = writer.history.replies.length)
    (line : after.line = writer.line ++ [reply.entry])
    (replies : after.history.replies = writer.history.replies ++ [reply])
    (dropped : after.history.dropped = writer.history.dropped) : Ordered after := by
  constructor
  · rw [replies, List.map_append, ordered.numbered, List.length_append, List.length_singleton,
      List.range_succ, List.map_cons, List.map_nil, number]
  · rw [replies, line, dropped, List.map_append, List.append_assoc]
    refine (ordered.once.append_right _).trans ?_
    rw [List.append_assoc]
    exact List.perm_append_comm.append_left _
  · rw [line]
    refine List.pairwise_append.mpr ⟨ordered.inOrder, List.pairwise_singleton _ _, ?_⟩
    intro first member second single
    rw [List.mem_singleton.mp single, number]
    exact ordered.serial_lt member
  · intro each replied accepted high
    rw [line]
    rw [replies] at replied
    rcases List.mem_append.mp replied with old | new
    · exact List.mem_append_left _ (ordered.priority each old accepted high)
    · rw [List.mem_singleton.mp new]
      exact List.mem_append_right _ (List.mem_singleton_self _)

/-- The newcomer is dropped. -/
theorem Ordered.refused {reply : LogReply} {reason : DropReason} (ordered : Ordered writer)
    (number : reply.entry.serial = writer.history.replies.length)
    (refused : reply.accepted = false) (line : after.line = writer.line)
    (replies : after.history.replies = writer.history.replies ++ [reply])
    (dropped : after.history.dropped = writer.history.dropped ++ [⟨reply.entry, reason⟩]) :
    Ordered after := by
  constructor
  · rw [replies, List.map_append, ordered.numbered, List.length_append, List.length_singleton,
      List.range_succ, List.map_cons, List.map_nil, number]
  · rw [replies, line, dropped, List.map_append, List.map_append, ← List.append_assoc]
    exact ordered.once.append_right _
  · rw [line]
    exact ordered.inOrder
  · intro each replied accepted high
    rw [replies] at replied
    rw [line]
    rcases List.mem_append.mp replied with old | new
    · exact ordered.priority each old accepted high
    · rw [List.mem_singleton.mp new, refused] at accepted
      cases accepted

theorem Ordered.submitted {payload : List UInt8} {levelno : Int} (ordered : Ordered writer) :
    Ordered (submitted cfg now writer payload levelno) := by
  obtain ⟨entry, named⟩ : ∃ entry : LogEntry,
    entry = ⟨writer.history.replies.length, payload, levelno⟩ := ⟨_, rfl⟩
  have number : entry.serial = writer.history.replies.length := by rw [named]
  obtain ⟨fresh, framed⟩ := @cleared_framed cfg now writer entry
  have room : Ordered (LogWriter.cleared cfg now writer entry) := ordered.cleared
  have cleared : entry.serial =
      (LogWriter.cleared cfg now writer entry).history.replies.length := by
    rw [number, framed.replies]
  rw [submitted_eq payload levelno named]
  rcases submit_cases entry with ⟨_, same⟩ | ⟨_, reason, _, _, same⟩ | ⟨_, _, same⟩
  · rw [same]
    exact ordered.refused number rfl rfl rfl rfl
  · rw [same]
    exact room.refused cleared rfl rfl rfl rfl
  · rw [same]
    exact room.admitted cleared (line_append rfl rfl rfl) rfl rfl

theorem Ordered.turns {outside : Outside} (ordered : Ordered writer)
    (turned : Turns cfg outside writer after) : Ordered after := by
  cases turned with
  | pops phase queue =>
    refine ordered.of_same ?_ rfl rfl
    rw [line, line, phase, queue, List.append_assoc, List.append_assoc]
    rfl
  | takes phase | leaves phase | produces phase | loses phase =>
    refine ordered.of_same ?_ rfl rfl
    rw [line, line, phase]
    rfl
  | writes phase =>
    refine ordered.of_same ?_ rfl rfl
    rw [line, line, phase]
    cases outside.written <;> exact congrArg (· ++ writer.queue) (List.append_nil _)
  | quiet held heldAfter =>
    refine ordered.of_same ?_ rfl rfl
    rw [line, line, held, heldAfter]

/-! ## Counters and summaries -/

def CountsDrops (levels reasons : Dict String Nat) (drops : List LogDrop) : Prop :=
  Counts levels (drops.map LogDrop.level) ∧ Counts reasons (drops.map LogDrop.reasonText)

theorem CountsDrops.bump {levels reasons : Dict String Nat} {drops : List LogDrop}
    (counts : CountsDrops levels reasons drops) (drop : LogDrop) :
    CountsDrops (bump levels drop.level) (Observability.bump reasons drop.reasonText)
      (drops ++ [drop]) := by
  rw [CountsDrops, List.map_append, List.map_append]
  exact ⟨counts.1.bump _, counts.2.bump _⟩

theorem CountsDrops.isEmpty {levels reasons : Dict String Nat} {drops : List LogDrop}
    (counts : CountsDrops levels reasons drops) : levels.keys.isEmpty = true ↔ drops = [] := by
  rw [counts.1.isEmpty, List.map_eq_nil_iff]

/-- The counters count the drops, and each summary counts those that it is about. -/
structure Tallied (writer : LogWriter) : Prop where
  drops : CountsDrops writer.drops writer.dropReasons writer.history.dropped
  pending : CountsDrops writer.pendingDrops writer.pendingDropReasons writer.history.pending
  produced : ∀ report ∈ writer.history.produced,
    CountsDrops report.1.droppedByLevel report.1.droppedByReason report.2
  making : ∀ summary, writer.phase = .summarizing summary → writer.history.making ≠ [] ∧
    CountsDrops summary.droppedByLevel summary.droppedByReason writer.history.making
  unmade : writer.phase.isSummarizing = false → writer.history.making = []
  known : (writer.history.produced.flatMap Prod.snd).length + writer.history.making.length +
    writer.history.pending.length ≤ writer.history.dropped.length

theorem Tallied.hasPending (tallied : Tallied writer) :
    writer.hasPending = false ↔ writer.history.pending = [] := by
  rw [LogWriter.hasPending, Bool.not_eq_false', tallied.pending.isEmpty]

theorem Tallied.recordDrop (tallied : Tallied writer) (queue : List LogEntry) (bytes : Int)
    (drop : LogDrop) :
    Tallied (recordDrop cfg now { writer with queue := queue, queuedBytes := bytes } drop) where
  drops := tallied.drops.bump drop
  pending := tallied.pending.bump drop
  produced := tallied.produced
  making := tallied.making
  unmade := tallied.unmade
  known := by
    have known := tallied.known
    simp only [LogWriter.recordDrop, List.length_append, List.length_singleton]
    omega

theorem Tallied.cleared {entry : LogEntry} (tallied : Tallied writer) :
    Tallied (cleared cfg now writer entry) :=
  cleared_keeps (fun _ _ good _ => good.recordDrop _ _ _) tallied

theorem Tallied.readdressed (tallied : Tallied writer) (queue : List LogEntry) (bytes : Int)
    (replies : List LogReply) :
    Tallied { writer with
      queue := queue
      queuedBytes := bytes
      history := { writer.history with replies := replies } } :=
  ⟨tallied.drops, tallied.pending, tallied.produced, tallied.making, tallied.unmade, tallied.known⟩

theorem Tallied.submitted {payload : List UInt8} {levelno : Int} (tallied : Tallied writer) :
    Tallied (submitted cfg now writer payload levelno) := by
  obtain ⟨entry, named⟩ : ∃ entry : LogEntry,
    entry = ⟨writer.history.replies.length, payload, levelno⟩ := ⟨_, rfl⟩
  have room : Tallied (LogWriter.cleared cfg now writer entry) := tallied.cleared
  rw [submitted_eq payload levelno named]
  rcases submit_cases entry with ⟨_, same⟩ | ⟨_, reason, _, _, same⟩ | ⟨_, _, same⟩
  · rw [same]
    exact (tallied.recordDrop writer.queue writer.queuedBytes _).readdressed _ _ _
  · rw [same]
    exact (room.recordDrop (LogWriter.cleared cfg now writer entry).queue
      (LogWriter.cleared cfg now writer entry).queuedBytes _).readdressed _ _ _
  · rw [same]
    exact room.readdressed _ _ _

theorem Tallied.turns {outside : Outside} (tallied : Tallied writer)
    (turned : Turns cfg outside writer after) : Tallied after := by
  have known := tallied.known
  cases turned with
  | pops phase queue =>
    exact ⟨tallied.drops, tallied.pending, tallied.produced, nofun,
      fun _ => tallied.unmade (by rw [phase]; rfl), known⟩
  | takes phase queue waiting factory levels reasons =>
    have none : writer.history.making = [] := tallied.unmade (by rw [phase]; rfl)
    refine ⟨tallied.drops, ⟨counts_empty, counts_empty⟩, tallied.produced, ?_, nofun, ?_⟩
    · intro summary same
      cases same
      rw [levels, reasons]
      refine ⟨fun empty => ?_, tallied.pending⟩
      rw [tallied.hasPending.mpr empty] at waiting
      cases waiting
    · rw [none] at known
      simpa only [List.length_nil, Nat.add_zero] using known
  | leaves phase =>
    exact ⟨tallied.drops, tallied.pending, tallied.produced, nofun,
      fun _ => tallied.unmade (by rw [phase]; rfl), known⟩
  | @produces summary payload phase made =>
    refine ⟨tallied.drops, tallied.pending, ?_, nofun, fun _ => rfl, ?_⟩
    · intro report member
      rcases List.mem_append.mp member with old | new
      · exact tallied.produced report old
      · rw [List.mem_singleton.mp new]
        exact (tallied.making summary phase).2
    · simp only [List.flatMap_append, List.flatMap_cons, List.flatMap_nil, List.append_nil,
        List.length_append, List.length_nil, Nat.add_zero]
      exact known
  | loses =>
    refine ⟨tallied.drops, tallied.pending, tallied.produced, nofun, fun _ => rfl, ?_⟩
    simp only [List.length_nil]
    omega
  | @writes line phase =>
    refine ⟨tallied.drops, tallied.pending, tallied.produced, ?_,
      fun _ => tallied.unmade (by rw [phase]; rfl), known⟩
    cases outside.written <;> nofun
  | @quiet reached _ _ _ _ _ before following =>
    refine ⟨tallied.drops, tallied.pending, tallied.produced, ?_,
      fun _ => tallied.unmade before, known⟩
    intro summary (same : reached = .summarizing summary)
    rw [same] at following
    cases following

/-! ## Runs -/

theorem phase_of_isUnstarted (idle : writer.phase.isUnstarted = true) :
    writer.phase = .unstarted := by
  cases phase : writer.phase <;> rw [phase] at idle <;> first | rfl | cases idle

theorem start_cases :
    (start writer).getD writer = writer ∨ writer.phase = .unstarted ∧ writer.accepting = true ∧
        (start writer).getD writer = { writer with phase := .looping } := by
  rw [start]
  cases idle : writer.phase.isUnstarted with
  | false => exact .inl rfl
  | true =>
    cases open' : writer.accepting with
    | false => exact .inl rfl
    | true => exact .inr ⟨phase_of_isUnstarted idle, rfl, rfl⟩

/-- A call that raises leaves the writer as it is. -/
theorem stop_cases :
    (stop cfg writer).getD writer = writer ∧ writer.accepting = false ∨
      (stop cfg writer).getD writer = { writer with accepting := false } ∧
        (writer.phase.isUnstarted && wanted cfg writer) = false ∨
      writer.phase = .unstarted ∧ writer.accepting = true ∧ wanted cfg writer = true ∧
        (stop cfg writer).getD writer = { writer with phase := .looping, accepting := false } := by
  rw [stop]
  cases idle : writer.phase.isUnstarted && wanted cfg writer with
  | false => exact .inr (.inl ⟨rfl, rfl⟩)
  | true =>
    obtain ⟨unstarted, wanted⟩ := Bool.and_eq_true_iff.mp idle
    cases open' : writer.accepting with
    | false =>
      refine .inl ⟨?_, rfl⟩
      simp only [start, unstarted, open', Bool.false_eq_true, if_true, if_false,
        Option.map_none, Option.getD_none]
    | true =>
      refine .inr (.inr ⟨phase_of_isUnstarted unstarted, rfl, wanted, ?_⟩)
      simp only [start, unstarted, open', if_true, Option.map_some, Option.getD_some]

theorem submit_frame (entry : LogEntry) :
    ∃ fresh, Framed writer (submit cfg now writer entry).1 fresh ∧
      ((submit cfg now writer entry).2 = false → fresh ≠ []) ∧
      (writer.accepting = false → (submit cfg now writer entry).2 = false) := by
  obtain ⟨fresh, framed⟩ := @cleared_framed cfg now writer entry
  rcases submit_cases entry with ⟨_, same⟩ | ⟨open', reason, _, _, same⟩ | ⟨open', _, same⟩
  · rw [same]
    exact ⟨_, (Framed.refl writer).recordDrop writer.queue writer.queuedBytes _,
      fun _ => List.cons_ne_nil _ _, fun _ => rfl⟩
  · rw [same]
    refine ⟨_, framed.recordDrop (cleared cfg now writer entry).queue
      (cleared cfg now writer entry).queuedBytes _, fun _ => ?_, fun _ => rfl⟩
    exact List.append_ne_nil_of_right_ne_nil _ (List.cons_ne_nil _ _)
  · rw [same]
    refine ⟨fresh, ⟨framed.replies, framed.handed, framed.phase, framed.accepting, framed.making,
      framed.produced, framed.dropped, framed.pending⟩, nofun, fun closed => ?_⟩
    rw [open'] at closed
    cases closed

/-- What holds in every run. -/
structure Kept (cfg : WriterConfig) (writer : LogWriter) : Prop where
  bounded : Bounded cfg writer
  ordered : Ordered writer
  tallied : Tallied writer
  closed : writer.phase.left = true → writer.accepting = false

theorem kept_opened (autoStart : Bool) : Kept cfg (opened autoStart) := by
  refine ⟨⟨Nat.zero_le _, Int.natCast_nonneg _, rfl⟩, ?_, ?_, ?_⟩
  · cases autoStart <;> exact ⟨rfl, .nil, .nil, nofun⟩
  · have none : CountsDrops .empty .empty [] := ⟨counts_empty, counts_empty⟩
    refine ⟨none, none, nofun, ?_, fun _ => rfl, Nat.le_refl 0⟩
    cases autoStart <;> nofun
  · cases autoStart <;> nofun

theorem Kept.submitted {payload : List UInt8} {levelno : Int} (kept : Kept cfg writer) :
    Kept cfg (submitted cfg now writer payload levelno) := by
  refine ⟨?_, kept.ordered.submitted, kept.tallied.submitted, ?_⟩
  · have bounded : Bounded cfg (submit cfg now writer
        ⟨writer.history.replies.length, payload, levelno⟩).1 := kept.bounded.submit
    exact ⟨bounded.events, bounded.bytes, bounded.exact⟩
  · obtain ⟨fresh, framed, _⟩ := @submit_frame cfg now writer
      ⟨writer.history.replies.length, payload, levelno⟩
    intro left
    have before := kept.closed ((congrArg WriterPhase.left framed.phase).symm.trans left)
    exact framed.accepting.trans before

theorem Kept.turns {outside : Outside} (kept : Kept cfg writer)
    (turned : Turns cfg outside writer after) : Kept cfg after := by
  refine ⟨?_, kept.ordered.turns turned, kept.tallied.turns turned, ?_⟩
  · have bounded := kept.bounded
    cases turned with
    | @pops entry rest phase queue =>
      have counted := bounded.events
      have bytes := bounded.bytes
      have exact' := bounded.exact
      have nonneg := size_nonneg entry
      rw [queue] at counted exact'
      rw [List.length_cons] at counted
      rw [bytesOf_cons] at exact'
      constructor
      · exact Nat.le_of_succ_le counted
      · change writer.queuedBytes - entry.size ≤ _
        omega
      · change writer.queuedBytes - entry.size = bytesOf rest
        omega
    | takes | leaves | produces | loses | writes | quiet =>
      exact ⟨bounded.events, bounded.bytes, bounded.exact⟩
  · cases turned with
    | leaves _ _ closed => exact fun _ => closed
    | quiet _ _ _ _ left => exact fun after => kept.closed (left.symm.trans after)
    | writes =>
      have stays : (if outside.written then WriterPhase.recovering false
          else .failing).left = false := by
        cases outside.written <;> rfl
      exact fun left => absurd (stays.symm.trans left) Bool.false_ne_true
    | pops | takes | produces | loses => nofun

theorem Kept.loops (kept : Kept cfg writer) (phase : writer.phase = .unstarted)
    (accepting : Bool) : Kept cfg { writer with phase := .looping, accepting } := by
  refine ⟨⟨kept.bounded.events, kept.bounded.bytes, kept.bounded.exact⟩,
    kept.ordered.of_same ?_ rfl rfl, ?_, nofun⟩
  · rw [line, line, phase]
    rfl
  · exact ⟨kept.tallied.drops, kept.tallied.pending, kept.tallied.produced, nofun,
      fun _ => kept.tallied.unmade (by rw [phase]; rfl), kept.tallied.known⟩

theorem Kept.step (kept : Kept cfg writer) (label : WriterLabel) :
    Kept cfg (step cfg writer label) := by
  cases label with
  | submit now payload levelno => exact kept.submitted
  | turn outside => exact kept.turns (LogWriter.turns outside)
  | start =>
    rw [LogWriter.step]
    rcases @start_cases writer with same | ⟨phase, open', same⟩
    · rw [same]
      exact kept
    · rw [same]
      exact kept.loops phase _
  | stop =>
    rw [LogWriter.step]
    rcases @stop_cases cfg writer with ⟨same, _⟩ | ⟨same, _⟩ | ⟨phase, _, _, same⟩
    · rw [same]
      exact kept
    · rw [same]
      exact ⟨⟨kept.bounded.events, kept.bounded.bytes, kept.bounded.exact⟩,
        kept.ordered.of_same rfl rfl rfl, ⟨kept.tallied.drops, kept.tallied.pending,
          kept.tallied.produced, kept.tallied.making, kept.tallied.unmade,
          kept.tallied.known⟩, fun _ => rfl⟩
    · rw [same]
      exact kept.loops phase _

end LogWriter

end BobbyBotique.Observability
