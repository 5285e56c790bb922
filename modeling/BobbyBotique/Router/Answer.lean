import BobbyBotique.Router.Spoken

/-!
# The steps of the owner

Each step of `_stream_serial` itself, and every step of its race, keeps what was
yielded in line with one provider call.
-/

namespace BobbyBotique.Router

variable {T : Type}

namespace Serial

theorem getElem?_cancelTasks (kept : Option Nat) (tasks : List (KeyTask T)) (index : Nat) :
    (cancelTasks kept tasks)[index]? = tasks[index]?.map fun task =>
      if some index = kept then task else { task with cancelled := true } := by
  unfold cancelTasks
  rw [List.getElem?_mapIdx]

theorem length_cancelTasks (kept : Option Nat) (tasks : List (KeyTask T)) :
    (cancelTasks kept tasks).length = tasks.length :=
  List.length_mapIdx

/-- A cancelled task says what it said. -/
theorem cancelTasks_spec {kept : Option Nat} {tasks : List (KeyTask T)} {index : Nat}
    {new : KeyTask T} (found : (cancelTasks kept tasks)[index]? = some new) :
    ∃ old, tasks[index]? = some old ∧ new.emitted = old.emitted ∧ new.stage = old.stage ∧
      new.terminal = old.terminal ∧ (some index ≠ kept → new.cancelled = true) := by
  rw [getElem?_cancelTasks] at found
  obtain ⟨old, stored, rfl⟩ := Option.map_eq_some_iff.mp found
  refine ⟨old, stored, ?_⟩
  split
  · next same => exact ⟨rfl, rfl, rfl, fun ne => absurd same ne⟩
  · exact ⟨rfl, rfl, rfl, fun _ => rfl⟩

theorem Base.cancel {serial : Serial T} (base : serial.Base) (kept : Option Nat) (stage : Stage) :
    Base { serial with tasks := cancelTasks kept serial.tasks, stage := stage } where
  known entry among := (length_cancelTasks kept serial.tasks).symm ▸ base.known entry among
  spoke index task found := by
    obtain ⟨old, stored, emitted, same, _⟩ := cancelTasks_spec found
    rw [emitted, same]
    exact base.spoke index old stored
  ends index task found := by
    obtain ⟨old, stored, _, _, terminal, _⟩ := cancelTasks_spec found
    rw [terminal]
    exact base.ends index old stored

theorem cancelTasks_get {tasks : List (KeyTask T)} {index : Nat} {old : KeyTask T}
    (found : tasks[index]? = some old) (kept : Option Nat) :
    ∃ new, (cancelTasks kept tasks)[index]? = some new ∧ new.emitted = old.emitted := by
  rw [getElem?_cancelTasks, found]
  refine ⟨_, rfl, ?_⟩
  split
  · rfl
  · rfl

theorem Said.cancel {serial : Serial T} {deltas : List T} (said : serial.Said deltas)
    (kept : Option Nat) (stage : Stage) :
    Said { serial with tasks := cancelTasks kept serial.tasks, stage := stage } deltas := by
  obtain ⟨index, task, found, front⟩ := said
  obtain ⟨new, stored, emitted⟩ := cancelTasks_get found kept
  exact ⟨index, new, stored, emitted ▸ front⟩

/-- The generator leaves its race. -/
theorem Base.leave {serial : Serial T} (base : serial.Base) {stage : Stage}
    (fits : (serial.leave stage).Fits) : (serial.leave stage).Kept where
  toBase := base.cancel none stage
  dropped _ _ index task found _ := by
    obtain ⟨_, _, _, _, _, cancelled⟩ := cancelTasks_spec found
    exact cancelled (Option.some_ne_none index)
  fits := fits

/-- A step that changes nothing of what was said keeps it. -/
theorem Kept.same {before after : Serial T} (kept : before.Kept)
    (stage : after.stage = before.stage) (output : after.output = before.output)
    (tasks : after.tasks = before.tasks) (queue : after.queue = before.queue) : after.Kept where
  known := by rw [tasks, queue]; exact kept.known
  spoke := by rw [tasks]; exact kept.spoke
  ends := by rw [tasks]; exact kept.ends
  dropped := by rw [tasks, stage]; exact kept.dropped
  fits := by
    have fits := kept.fits
    unfold Fits Said at fits ⊢
    rw [stage, output, tasks, queue]
    exact fits

theorem Said.moves {before after : Serial T} {deltas : List T} (said : before.Said deltas)
    (moves : before.Moves after) : after.Said deltas := by
  obtain ⟨index, old, found, front⟩ := said
  obtain ⟨more, _, _, tasks⟩ := moves.tasks
  obtain ⟨new, stored, emitted, _⟩ := tasks index old found
  exact ⟨index, new, stored, emitted ▸ front.trans (List.prefix_append _ _)⟩

/-- The steps of the tasks keep what the owner yielded. -/
theorem Kept.moves {before after : Serial T} (kept : before.Kept) (moves : before.Moves after) :
    after.Kept := by
  obtain ⟨more, queue, inside, tasks⟩ := moves.tasks
  have back : ∀ (index : Nat) (new : KeyTask T), after.tasks[index]? = some new →
      ∃ old, before.tasks[index]? = some old ∧
        new.emitted = old.emitted ++ queued index more ∧ new.cancelled = old.cancelled ∧
        (new.stage = .calling ∨ new.stage = .ended ∨ new = old) ∧
        ∀ event, new.terminal = some event →
          event.delta? = none ∨ old.terminal = some event := by
    intro index new found
    have within : index < before.tasks.length := by
      rw [← moves.length]
      exact (List.getElem?_eq_some_iff.mp found).1
    obtain ⟨other, stored, rest⟩ := tasks index _ (List.getElem?_eq_getElem within)
    rw [found] at stored
    cases stored
    exact ⟨_, List.getElem?_eq_getElem within, rest⟩
  refine ⟨⟨?_, ?_, ?_⟩, ?_, ?_⟩
  · intro entry among
    rw [moves.length]
    rw [queue] at among
    rcases List.mem_append.mp among with among | among
    · exact kept.known entry among
    · exact inside entry among
  · intro index new found spoken
    obtain ⟨old, stored, _, _, stage, _⟩ := back index new found
    rcases stage with calling | past | rfl
    · exact .inl calling
    · exact .inr past
    · exact kept.spoke index new stored spoken
  · intro index new found event held
    obtain ⟨old, stored, _, _, _, ends⟩ := back index new found
    rcases ends event held with plain | earlier
    · exact plain
    · exact kept.ends index old stored event earlier
  · intro routing racing index new found other
    obtain ⟨old, stored, _, cancelled, _⟩ := back index new found
    rw [moves.stage] at routing racing other
    rw [cancelled]
    exact kept.dropped routing racing index old stored other
  · have fits := kept.fits
    unfold Fits at fits ⊢
    rw [moves.stage, moves.output]
    cases stage : before.stage with
    | routing =>
      rw [stage] at fits
      exact fits
    | racing =>
      rw [stage] at fits
      refine ⟨fits.1, fun index new found => ?_⟩
      obtain ⟨old, stored, emitted, _⟩ := back index new found
      rw [queue, queued_append, fits.2 index old stored, emitted]
    | won winner =>
      rw [stage] at fits
      obtain ⟨old, deltas, found, output, some, whole⟩ := fits
      obtain ⟨new, stored, emitted, _⟩ := tasks winner old found
      refine ⟨new, deltas, stored, output, some, ?_⟩
      rw [queue, queued_append, ← List.append_assoc, whole, emitted]
    | returned =>
      rw [stage] at fits
      obtain ⟨deltas, last, output, ending, spoken⟩ := fits
      exact ⟨deltas, last, output, ending, fun some =>
        ⟨(spoken some).1.moves moves, (spoken some).2⟩⟩
    | raised | interrupted =>
      rw [stage] at fits
      obtain ⟨deltas, output, spoken⟩ := fits
      exact ⟨deltas, output, fun some => (spoken some).moves moves⟩

/-! ## Before the first text -/

section

variable {serial : Serial T} {route : Route}

/-- The generator returns before anything was said. -/
theorem Kept.refuse (base : serial.Base) (quiet : serial.output = []) {event : Event T}
    (ending : event.delta? = none) : ((serial.say event).leave .returned).Kept := by
  have said : (serial.say event).Base := ⟨base.known, base.spoke, base.ends⟩
  refine said.leave ⟨[], event, ?_, ending, fun absurd => (absurd rfl).elim⟩
  exact congrArg (· ++ [event]) quiet

theorem Kept.crash (base : serial.Base) (quiet : serial.output = []) :
    (serial.leave .raised).Kept :=
  base.leave ⟨[], quiet, fun absurd => (absurd rfl).elim⟩

theorem Kept.reroute (base : serial.Base) (quiet : serial.output = []) :
    (serial.leave .routing).Kept :=
  base.leave quiet

theorem Kept.settle (base : serial.Base) (quiet : serial.output = [])
    (timedOut : Option StreamFailed) : (serial.settle timedOut).Kept := by
  unfold Serial.settle
  split
  · exact Kept.refuse base quiet rfl
  · exact Kept.reroute ⟨base.known, base.spoke, base.ends⟩ quiet

/-- A reserve is a new task. -/
theorem startReserve_spec (route : Route) (serial : Serial T) :
    (serial.startReserve route).stage = serial.stage ∧
      (serial.startReserve route).output = serial.output ∧
      (serial.startReserve route).queue = serial.queue ∧
      (serial.startReserve route).dispatched = serial.dispatched ∧
      ((serial.startReserve route).tasks = serial.tasks ∨ (serial.startReserve route).tasks =
          serial.tasks ++ [⟨.preparing, false, [], none⟩]) := by
  unfold Serial.startReserve
  dsimp only
  split
  · exact ⟨rfl, rfl, rfl, rfl, .inr rfl⟩
  · split
    · exact ⟨rfl, rfl, rfl, rfl, .inr rfl⟩
    · exact ⟨rfl, rfl, rfl, rfl, .inl rfl⟩

/-- A new task has said nothing. -/
theorem Kept.startReserve (kept : serial.Kept) (racing : serial.stage = .racing)
    (route : Route) : (serial.startReserve route).Kept := by
  obtain ⟨stage, output, queue, _, old | new⟩ := startReserve_spec route serial
  · exact kept.same stage output old queue
  have cases' : ∀ (index : Nat) (task : KeyTask T),
      (serial.tasks ++ [⟨.preparing, false, [], none⟩])[index]? = some task →
      serial.tasks[index]? = some task ∨
        (index = serial.tasks.length ∧ task = ⟨.preparing, false, [], none⟩) := by
    intro index task found
    rcases Nat.lt_or_ge index serial.tasks.length with inside | outside
    · left
      rwa [List.getElem?_append_left inside] at found
    · right
      rw [List.getElem?_append_right outside] at found
      obtain ⟨small, same⟩ := List.getElem?_eq_some_iff.mp found
      rw [List.length_singleton] at small
      refine ⟨by omega, ?_⟩
      rw [← same]
      exact List.getElem_singleton _
  have fits := kept.fits
  unfold Fits at fits
  rw [racing] at fits
  refine ⟨⟨?_, ?_, ?_⟩, fun _ absurd => (absurd (stage.trans racing)).elim, ?_⟩
  · intro entry among
    rw [queue] at among
    rw [new, List.length_append]
    exact Nat.lt_add_right _ (kept.known entry among)
  · intro index task found spoken
    rcases cases' index task (new ▸ found) with stored | ⟨_, rfl⟩
    · exact kept.spoke index task stored spoken
    · exact absurd rfl spoken
  · intro index task found event held
    rcases cases' index task (new ▸ found) with stored | ⟨_, rfl⟩
    · exact kept.ends index task stored event held
    · cases held
  · unfold Fits
    rw [stage, racing, output, queue]
    refine ⟨fits.1, fun index task found => ?_⟩
    rcases cases' index task (new ▸ found) with stored | ⟨last, rfl⟩
    · exact fits.2 index task stored
    · apply queued_other
      intro entry among same
      have inside := kept.known entry among
      omega

theorem Kept.start (quiet : serial.output = []) (route : Route) (keys : Nat) (primary : Bool) :
    (serial.start route keys primary).Kept := by
  have fresh : ∀ (index : Nat) (task : KeyTask T),
      (serial.start route keys primary).tasks[index]? = some task →
        task = ⟨.created, false, [], none⟩ := by
    intro index task found
    exact List.eq_of_mem_replicate (List.mem_of_getElem? found)
  refine ⟨⟨fun _ absurd => (List.not_mem_nil absurd).elim, ?_, ?_⟩,
    fun _ absurd => (absurd rfl).elim, quiet, ?_⟩
  · intro index task found spoken
    obtain rfl := fresh index task found
    exact absurd rfl spoken
  · intro index task found event held
    obtain rfl := fresh index task found
    cases held
  · intro index task found
    obtain rfl := fresh index task found
    rfl

/-- An entry taken before the first text. -/
theorem Kept.consume {index : Nat} {item : Item T} {rest : List (Nat × Item T)}
    (kept : serial.Kept) (racing : serial.stage = .racing)
    (queue : serial.queue = (index, item) :: rest) :
    (consume route { serial with queue := rest } index item).Kept := by
  have fits := kept.fits
  unfold Fits at fits
  rw [racing] at fits
  obtain ⟨quiet, spoken⟩ := fits
  have base : Base { serial with queue := rest } :=
    ⟨fun entry among => kept.known entry (queue ▸ List.mem_cons_of_mem _ among), kept.spoke,
      kept.ends⟩
  have popped : item.delta? = none → Kept { serial with queue := rest } := by
    intro silent
    refine ⟨base, fun _ absurd => (absurd racing).elim, ?_⟩
    unfold Fits
    dsimp only
    rw [racing]
    refine ⟨quiet, fun other task found => ?_⟩
    have whole := spoken other task found
    rwa [queue, queued_cons_silent silent] at whole
  have next : ∀ event : Event T, item.delta? = none →
      Kept (if route.rolling then
        Serial.startReserve route { serial with
          queue := rest, terminals := serial.terminals ++ [(index, event)] }
      else { serial with queue := rest, terminals := serial.terminals ++ [(index, event)] }) := by
    intro event silent
    have noted : Kept { serial with
        queue := rest, terminals := serial.terminals ++ [(index, event)] } :=
      (popped silent).same rfl rfl rfl rfl
    split
    · exact noted.startReserve racing route
    · exact noted
  cases item with
  | done => exact (popped rfl).same rfl rfl rfl rfl
  | error => exact Kept.crash base quiet
  | wake =>
    dsimp only [Serial.consume]
    split
    · exact (popped rfl).startReserve racing route
    · exact popped rfl
  | event event =>
    cases event with
    | text delta =>
      have within : index < serial.tasks.length :=
        kept.known (index, .event (.text delta)) (queue ▸ List.mem_cons_self)
      have found := List.getElem?_eq_getElem within
      have whole := spoken index _ found
      rw [queue, queued_cons_text] at whole
      have told : (Serial.say { serial with queue := rest } (.text delta)).Base :=
        ⟨base.known, base.spoke, base.ends⟩
      refine ⟨told.cancel (some index) (.won index), ?_, ?_⟩
      · intro _ _ other task stored differ
        obtain ⟨_, _, _, _, _, cancelled⟩ := cancelTasks_spec stored
        apply cancelled
        intro same
        exact differ (congrArg Stage.won (Option.some.inj same).symm)
      · refine ⟨serial.tasks[index], [delta], ?_, ?_, List.cons_ne_nil _ _, whole⟩
        · refine (getElem?_cancelTasks (some index) serial.tasks index).trans ?_
          rw [found]
          exact congrArg some (if_pos rfl)
        · exact congrArg (· ++ [Event.text delta]) quiet
    | completed => exact next .completed rfl
    | deferred name => exact next (.deferred name) rfl
    | failed failure =>
      dsimp only [Serial.consume]
      split
      · exact next (.failed failure) rfl
      · exact Kept.reroute ⟨base.known, base.spoke, base.ends⟩ quiet
      · exact Kept.refuse base quiet rfl

end

/-! ## Behind the first text -/

section

variable {serial : Serial T} {route : Route}

/-- An entry taken behind the first text. -/
theorem Kept.forward {winner : Nat} {item : Item T} {rest : List (Nat × Item T)}
    (kept : serial.Kept) (won : serial.stage = .won winner)
    (queue : serial.queue = (winner, item) :: rest) :
    (Serial.forward { serial with queue := rest } item).Kept := by
  have fits := kept.fits
  unfold Fits at fits
  rw [won] at fits
  obtain ⟨task, deltas, found, output, some, whole⟩ := fits
  have base : Base { serial with queue := rest } :=
    ⟨fun entry among => kept.known entry (queue ▸ List.mem_cons_of_mem _ among), kept.spoke,
      kept.ends⟩
  have said : Said { serial with queue := rest } deltas :=
    ⟨winner, task, found, whole ▸ List.prefix_append _ _⟩
  have raised : (Serial.leave { serial with queue := rest } .raised).Kept :=
    base.leave ⟨deltas, output, fun _ => said.cancel none .raised⟩
  cases item with
  | done | error | wake => exact raised
  | event event =>
    have ending : event.delta? = none →
        (if event.late then (Serial.say { serial with queue := rest } event).leave .returned
          else Serial.leave { serial with queue := rest } .raised).Kept := by
      intro silent
      split
      · next late =>
          have told : (Serial.say { serial with queue := rest } event).Base :=
            ⟨base.known, base.spoke, base.ends⟩
          refine told.leave ⟨deltas, event, congrArg (· ++ [event]) output, silent, ?_⟩
          exact fun _ => ⟨said.cancel none .returned, late⟩
      · exact raised
    cases event with
    | text delta =>
      rw [queue, queued_cons_text] at whole
      refine ⟨⟨base.known, base.spoke, base.ends⟩, ?_, ?_⟩
      · exact kept.dropped
      · have stage : (Serial.say { serial with queue := rest } (.text delta)).stage =
            .won winner := won
        unfold Fits Serial.forward
        rw [stage]
        refine ⟨task, deltas ++ [delta], found, ?_, List.concat_ne_nil _ _, ?_⟩
        · rw [List.map_append]
          exact congrArg (· ++ [Event.text delta]) output
        · rw [List.append_assoc]
          exact whole
    | completed | failed | deferred => exact ending rfl

theorem Kept.take (kept : serial.Kept) (route : Route) : (serial.take route).Kept := by
  unfold Serial.take
  split
  · next racing =>
      have quiet : serial.output = [] := by
        have fits := kept.fits
        unfold Fits at fits
        rw [racing] at fits
        exact fits.1
      split
      · split
        · exact kept
        · next queue => exact kept.consume racing queue
      · exact Kept.settle kept.toBase quiet none
  · next winner won =>
      split
      · exact kept
      · next index item rest queue =>
          split
          · next same => exact kept.forward won (same ▸ queue)
          · next differ =>
              refine ⟨⟨fun entry among => kept.known entry (queue ▸ List.mem_cons_of_mem _ among),
                kept.spoke, kept.ends⟩, kept.dropped, ?_⟩
              have fits := kept.fits
              unfold Fits at fits ⊢
              dsimp only
              rw [won] at fits ⊢
              obtain ⟨task, deltas, found, output, some, whole⟩ := fits
              rw [queue, queued_cons_ne differ] at whole
              exact ⟨task, deltas, found, output, some, whole⟩
  · exact kept

theorem Kept.quiet (kept : serial.Kept) (routing : serial.stage = .routing) :
    serial.output = [] := by
  have fits := kept.fits
  unfold Fits at fits
  rwa [routing] at fits

/-- What was yielded before an interruption. -/
theorem Kept.spoken (kept : serial.Kept) (unfinished : serial.stage ≠ .returned) :
    ∃ deltas, serial.output = deltas.map .text ∧ (deltas ≠ [] → serial.Said deltas) := by
  have fits := kept.fits
  unfold Fits at fits
  cases stage : serial.stage with
  | routing =>
    rw [stage] at fits
    exact ⟨[], fits, fun absurd => (absurd rfl).elim⟩
  | racing =>
    rw [stage] at fits
    exact ⟨[], fits.1, fun absurd => (absurd rfl).elim⟩
  | won winner =>
    rw [stage] at fits
    obtain ⟨task, deltas, found, output, _, whole⟩ := fits
    exact ⟨deltas, output, fun _ => ⟨winner, task, found, whole ▸ List.prefix_append _ _⟩⟩
  | returned => exact absurd stage unfinished
  | raised | interrupted =>
    rw [stage] at fits
    exact fits

theorem Kept.task (kept : serial.Kept) {index : Nat} {task : KeyTask T}
    (found : serial.tasks[index]? = some task) (label : SerialLabel T) :
    (serial.taskStep route index task label).Kept :=
  kept.moves (moves_taskStep route found (kept.ends index task found) label)

/-- Every step of the generator and of its tasks keeps the answer. -/
theorem Kept.step (kept : serial.Kept) (label : SerialLabel T) :
    (serial.step route label).Kept := by
  have routing : serial.idle = true → serial.output = [] := fun idle =>
    kept.quiet (of_decide_eq_true (Bool.and_eq_true_iff.mp idle).1)
  cases label with
  | admission allowed =>
    dsimp only [Serial.step]
    split
    · next fresh =>
        split
        · exact kept.same rfl rfl rfl rfl
        · exact Kept.refuse kept.toBase (kept.quiet fresh.1) rfl
    · exact kept
  | nextModel =>
    dsimp only [Serial.step]
    split
    · exact kept.same rfl rfl rfl rfl
    · exact kept
  | noRoute why =>
    dsimp only [Serial.step]
    split
    · cases why with
      | deadline | decryption | keys => exact kept.same rfl rfl rfl rfl
    · exact kept
  | race keys primary =>
    dsimp only [Serial.step]
    split
    · next ready =>
        exact Kept.start (routing (Bool.and_eq_true_iff.mp ready.1).1) route keys primary
    · exact kept
  | exhaust transient deferral =>
    dsimp only [Serial.step]
    split
    · next ready =>
        have quiet := routing (Bool.and_eq_true_iff.mp ready).1
        cases deferral with
        | refused | queued => exact Kept.refuse kept.toBase quiet rfl
        | unconfirmed => exact Kept.crash kept.toBase quiet
    · exact kept
  | crash =>
    dsimp only [Serial.step]
    split
    · next fresh => exact Kept.crash kept.toBase (kept.quiet fresh)
    · exact kept
  | take => exact kept.take route
  | softTimer =>
    dsimp only [Serial.step]
    split
    · next ready => exact kept.startReserve ready.1 route
    · exact kept
  | deadline =>
    dsimp only [Serial.step]
    split
    · next ready =>
        have fits := kept.fits
        unfold Fits at fits
        rw [ready.1] at fits
        apply Kept.settle
        · exact ⟨kept.known, kept.spoke, kept.ends⟩
        · exact fits.1
    · exact kept
  | stall =>
    dsimp only [Serial.step]
    split
    · next winner won =>
        obtain ⟨deltas, output, said⟩ := kept.spoken (by rw [won]; exact Stage.noConfusion)
        have told : Base (serial.say (.failed ⟨.timeout, .afterText, .doNotRetry, .unchanged⟩)) :=
          ⟨kept.known, kept.spoke, kept.ends⟩
        refine told.leave ⟨deltas, _, congrArg (· ++ [_]) output, rfl, fun some => ⟨?_, rfl⟩⟩
        exact (said some).cancel none .returned
    · exact kept
  | interrupt =>
    dsimp only [Serial.step]
    split
    · exact kept
    · next going =>
        obtain ⟨deltas, output, said⟩ := kept.spoken fun past => going (.inl past)
        exact kept.toBase.leave ⟨deltas, output, fun some => (said some).cancel none .interrupted⟩
  | run | prepared | emit | close | fail | abandon =>
    dsimp only [Serial.step]
    split
    · next found => exact kept.task found _
    · exact kept

theorem initial_kept (route : Route) : (Serial.initial route : Serial T).Kept where
  known _ absurd := (List.not_mem_nil absurd).elim
  spoke _ _ found := nomatch found
  ends _ _ found := nomatch found
  dropped _ _ _ _ found := nomatch found
  fits := rfl

/-! ## What a step says and starts -/

/-- One event is yielded at most. -/
def Says (before after : Serial T) : Prop :=
  after.output = before.output ∨ ∃ event, after.output = before.output ++ [event]

theorem settle_yields (timedOut : Option StreamFailed) : serial.Says (serial.settle timedOut) := by
  unfold Serial.settle
  split
  · exact .inr ⟨_, rfl⟩
  · exact .inl rfl

theorem consume_yields (index : Nat) (item : Item T) :
    serial.Says (serial.consume route index item) := by
  have reserve : ∀ other : Serial T, (other.startReserve route).output = other.output :=
    fun other => (startReserve_spec route other).2.1
  cases item with
  | done | error => exact .inl rfl
  | wake =>
    dsimp only [Serial.consume]
    split
    · exact .inl (reserve serial)
    · exact .inl rfl
  | event event =>
    have next : ∀ event : Event T, serial.Says (if route.rolling then
        Serial.startReserve route { serial with
          terminals := serial.terminals ++ [(index, event)] }
        else { serial with terminals := serial.terminals ++ [(index, event)] }) := by
      intro event
      left
      split
      · exact reserve _
      · rfl
    cases event with
    | text delta => exact .inr ⟨_, rfl⟩
    | completed | deferred => exact next _
    | failed failure =>
      dsimp only [Serial.consume]
      split
      · exact next _
      · exact .inl rfl
      · exact .inr ⟨_, rfl⟩

theorem forward_yields (item : Item T) : serial.Says (serial.forward item) := by
  cases item with
  | event event =>
    have ending : ∀ event : Event T, serial.Says (if event.late then
        (serial.say event).leave .returned else serial.leave .raised) := by
      intro event
      split
      · exact .inr ⟨event, rfl⟩
      · exact .inl rfl
    cases event with
    | text delta => exact .inr ⟨_, rfl⟩
    | completed | failed | deferred => exact ending _
  | _ => exact .inl rfl

theorem take_yields : serial.Says (serial.take route) := by
  unfold Serial.take
  split
  · split
    · split
      · exact .inl rfl
      · exact consume_yields _ _
    · exact settle_yields none
  · split
    · exact .inl rfl
    · split
      · exact forward_yields _
      · exact .inl rfl
  · exact .inl rfl

theorem Kept.yields (kept : serial.Kept) (label : SerialLabel T) :
    serial.Says (serial.step route label) := by
  have task : ∀ {index : Nat} {task : KeyTask T}, serial.tasks[index]? = some task →
      ∀ label, serial.Says (serial.taskStep route index task label) :=
    fun found label => .inl (moves_taskStep route found (kept.ends _ _ found) label).output
  have idle : serial.Says serial := .inl rfl
  cases label with
  | take => exact take_yields
  | admission allowed =>
    dsimp only [Serial.step]
    split
    · split
      · exact .inl rfl
      · exact .inr ⟨_, rfl⟩
    · exact idle
  | nextModel =>
    dsimp only [Serial.step]
    split
    · exact .inl rfl
    · exact idle
  | noRoute why =>
    dsimp only [Serial.step]
    split
    · cases why with
      | deadline | decryption | keys => exact .inl rfl
    · exact idle
  | race keys primary =>
    dsimp only [Serial.step]
    split
    · exact .inl rfl
    · exact idle
  | exhaust transient deferral =>
    dsimp only [Serial.step]
    split
    · cases deferral with
      | refused | queued => exact .inr ⟨_, rfl⟩
      | unconfirmed => exact .inl rfl
    · exact idle
  | crash =>
    dsimp only [Serial.step]
    split
    · exact .inl rfl
    · exact idle
  | softTimer =>
    dsimp only [Serial.step]
    split
    · exact .inl (startReserve_spec route serial).2.1
    · exact idle
  | deadline =>
    dsimp only [Serial.step]
    split
    · exact settle_yields _
    · exact idle
  | stall =>
    dsimp only [Serial.step]
    split
    · exact .inr ⟨_, rfl⟩
    · exact idle
  | interrupt =>
    dsimp only [Serial.step]
    split
    · exact idle
    · exact .inl rfl
  | run | prepared | emit | close | fail | abandon =>
    dsimp only [Serial.step]
    split
    · next found => exact task found _
    · exact idle

/-- No task is created and no provider is called. -/
def Starts (before after : Serial T) : Prop :=
  after.tasks.length = before.tasks.length ∧ after.dispatched = before.dispatched

theorem leave_starts (stage : Stage) : serial.Starts (serial.leave stage) :=
  ⟨length_cancelTasks none serial.tasks, rfl⟩

theorem forward_starts (item : Item T) : serial.Starts (serial.forward item) := by
  have raised : serial.Starts (serial.leave .raised) := leave_starts .raised
  cases item with
  | event event =>
    have ending : ∀ event : Event T, serial.Starts (if event.late then
        (serial.say event).leave .returned else serial.leave .raised) := by
      intro event
      split
      · exact leave_starts .returned
      · exact raised
    cases event with
    | text delta => exact ⟨rfl, rfl⟩
    | completed | failed | deferred => exact ending _
  | _ => exact raised

/-- The calls of a race behind its first text are over or under way. -/
theorem Kept.no_call (kept : serial.Kept) (routing : serial.stage ≠ .routing)
    (racing : serial.stage ≠ .racing) {index : Nat} {task : KeyTask T}
    (found : serial.tasks[index]? = some task) (free : task.cancelled = false) :
    task.stage = .calling ∨ task.stage = .ended := by
  by_cases won : serial.stage = .won index
  · have fits := kept.fits
    unfold Fits at fits
    rw [won] at fits
    obtain ⟨other, deltas, stored, _, some, whole⟩ := fits
    rw [found] at stored
    cases stored
    apply kept.spoke index task found
    rw [← whole]
    exact List.append_ne_nil_of_left_ne_nil some _
  · have cancelled := kept.dropped routing racing index task found won
    rw [free] at cancelled
    cases cancelled

/-- A generator behind its races starts no task and calls no provider. -/
theorem Kept.past (kept : serial.Kept) (routing : serial.stage ≠ .routing)
    (racing : serial.stage ≠ .racing) (label : SerialLabel T) :
    serial.Starts (serial.step route label) := by
  have idle : serial.idle = false := by
    unfold Serial.idle
    rw [decide_eq_false routing]
    rfl
  have same : serial.Starts serial := ⟨rfl, rfl⟩
  have task : ∀ {index : Nat} {task : KeyTask T}, serial.tasks[index]? = some task →
      ∀ label, serial.Starts (serial.taskStep route index task label) := by
    intro index task found label
    have moves := moves_taskStep route found (kept.ends _ _ found) label
    refine ⟨moves.length, ?_⟩
    rcases moves.dispatched with same | ⟨other, one, stored, free, calling, past⟩
    · exact same
    · rcases kept.no_call routing racing stored free with called | ended
      · exact absurd called calling
      · exact absurd ended past
  cases label with
  | take =>
    dsimp only [Serial.step, Serial.take]
    split
    · next stage => exact absurd stage racing
    · split
      · exact same
      · split
        · exact forward_starts _
        · exact ⟨rfl, rfl⟩
    · exact same
  | admission allowed =>
    dsimp only [Serial.step]
    rw [if_neg fun fresh => routing fresh.1]
    exact same
  | nextModel | noRoute why =>
    dsimp only [Serial.step]
    rw [idle]
    exact same
  | race keys primary =>
    dsimp only [Serial.step]
    rw [idle, if_neg fun ready => Bool.false_ne_true ready.1]
    exact same
  | exhaust transient deferral =>
    dsimp only [Serial.step]
    rw [idle]
    exact same
  | crash =>
    dsimp only [Serial.step]
    rw [if_neg routing]
    exact same
  | softTimer | deadline =>
    dsimp only [Serial.step]
    rw [if_neg fun ready => racing ready.1]
    exact same
  | stall =>
    dsimp only [Serial.step]
    split
    · exact leave_starts .returned
    · exact same
  | interrupt =>
    dsimp only [Serial.step]
    split
    · exact same
    · exact leave_starts .interrupted
  | run | prepared | emit | close | fail | abandon =>
    dsimp only [Serial.step]
    split
    · next found => exact task found _
    · exact same

/-- A generator that spoke is behind its races. -/
theorem Kept.settled (kept : serial.Kept) (spoken : serial.output ≠ []) (label : SerialLabel T) :
    serial.Starts (serial.step route label) := by
  refine kept.past (fun stage => spoken (kept.quiet stage)) (fun stage => ?_) label
  have fits := kept.fits
  unfold Fits at fits
  rw [stage] at fits
  exact spoken fits.1

end

end Serial

/-! ## An answer -/

/-- What stands behind the deltas: nothing, or one terminal event. -/
def Closing (deltas : List T) (tail : List (Event T)) : Prop :=
  tail = [] ∨ ∃ last, tail = [last] ∧ last.delta? = none ∧ (deltas ≠ [] → last.late = true)

/-- Deltas that were said, and a terminal event behind them at most. -/
def Answers (said : List T → Prop) (output : List (Event T)) : Prop :=
  ∃ deltas tail, output = deltas.map .text ++ tail ∧ Closing deltas tail ∧
    (deltas ≠ [] → said deltas)

/-- A terminal event was yielded. -/
def Complete (output : List (Event T)) : Prop := ∃ event ∈ output, event.delta? = none

namespace Answers

variable {said other : List T → Prop} {output front rest : List (Event T)}

theorem nil : Answers said [] := ⟨[], [], rfl, .inl rfl, fun absurd => (absurd rfl).elim⟩

/-- The front of an answer is an answer. -/
theorem shorter (closed : ∀ deltas less, said deltas → less <+: deltas → said less)
    (answers : Answers said output) (first : front <+: output) : Answers said front := by
  obtain ⟨deltas, tail, rfl, closing, spoken⟩ := answers
  rcases List.prefix_or_prefix_of_prefix first (List.prefix_append _ tail) with inner | outer
  · obtain ⟨less, shorter, rfl⟩ := List.prefix_map_iff.mp inner
    refine ⟨less, [], (List.append_nil _).symm, .inl rfl, fun some => ?_⟩
    refine closed deltas less (spoken ?_) shorter
    rintro rfl
    exact some (List.prefix_nil.mp shorter)
  · obtain ⟨more, rfl⟩ := outer
    have behind := (List.prefix_append_right_inj _).mp first
    refine ⟨deltas, more, rfl, ?_, spoken⟩
    rcases closing with rfl | ⟨last, rfl, ending, late⟩
    · exact .inl (List.prefix_nil.mp behind)
    · cases more with
      | nil => exact .inl rfl
      | cons event others =>
        obtain ⟨rfl, others⟩ := List.cons_prefix_cons.mp behind
        obtain rfl := List.prefix_nil.mp others
        exact .inr ⟨event, rfl, ending, late⟩

/-- Without deltas there is one terminal event at most. -/
theorem silent (answers : Answers said (front ++ rest)) (some : rest ≠ [])
    (quiet : ∀ event ∈ front, event.delta? = none) : front = [] := by
  obtain ⟨deltas, tail, same, closing, _⟩ := answers
  cases front with
  | nil => rfl
  | cons event others =>
    cases deltas with
    | cons delta more =>
      obtain ⟨rfl, _⟩ := List.cons.inj same
      cases quiet _ List.mem_cons_self
    | nil =>
      rcases closing with rfl | ⟨last, rfl, _⟩
      · cases same
      · obtain ⟨_, later⟩ := List.cons.inj same
        exact absurd (List.append_eq_nil_iff.mp later).2 some

end Answers

namespace Serial

variable {serial : Serial T}

theorem Said.shorter {deltas less : List T} (said : serial.Said deltas)
    (front : less <+: deltas) : serial.Said less := by
  obtain ⟨index, task, found, whole⟩ := said
  exact ⟨index, task, found, front.trans whole⟩

/-- The generator answers with the deltas of one call. -/
theorem Kept.answers (kept : serial.Kept) : Answers serial.Said serial.output := by
  by_cases returned : serial.stage = .returned
  · have fits := kept.fits
    unfold Fits at fits
    rw [returned] at fits
    obtain ⟨deltas, last, output, ending, spoken⟩ := fits
    exact ⟨deltas, [last], output, .inr ⟨last, rfl, ending, fun some => (spoken some).2⟩,
      fun some => (spoken some).1⟩
  · obtain ⟨deltas, output, said⟩ := kept.spoken returned
    exact ⟨deltas, [], output.trans (List.append_nil _).symm, .inl rfl, said⟩

theorem Kept.complete (kept : serial.Kept) (returned : serial.stage = .returned) :
    Complete serial.output := by
  have fits := kept.fits
  unfold Fits at fits
  rw [returned] at fits
  obtain ⟨_, last, output, ending, _⟩ := fits
  exact ⟨last, output ▸ List.mem_append_right _ List.mem_cons_self, ending⟩

end Serial

end BobbyBotique.Router
