import BobbyBotique.Router.Race

/-!
# One provider call answers

What the key tasks put into the queue of a race and what its owner takes from it:
the owner yields the deltas of one call, in order, with a terminal event behind them.
-/

namespace BobbyBotique.Router

variable {T : Type}

/-- The deltas of a lane that wait in a queue. -/
def queued (index : Nat) (queue : List (Nat × Item T)) : List T :=
  queue.filterMap fun entry => if entry.1 = index then entry.2.delta? else none

theorem queued_append (index : Nat) (first second : List (Nat × Item T)) :
    queued index (first ++ second) = queued index first ++ queued index second :=
  List.filterMap_append

theorem queued_other {index : Nat} {queue : List (Nat × Item T)}
    (other : ∀ entry ∈ queue, entry.1 ≠ index) : queued index queue = [] := by
  unfold queued
  rw [List.filterMap_eq_nil_iff]
  intro entry among
  rw [if_neg (other entry among)]

theorem queued_cons_ne {index other : Nat} (ne : other ≠ index) (item : Item T)
    (rest : List (Nat × Item T)) : queued index ((other, item) :: rest) = queued index rest := by
  unfold queued
  rw [List.filterMap_cons, if_neg ne]

theorem queued_cons_silent {index other : Nat} {item : Item T} (silent : item.delta? = none)
    (rest : List (Nat × Item T)) : queued index ((other, item) :: rest) = queued index rest := by
  unfold queued
  rw [List.filterMap_cons]
  split
  · rfl
  · next found =>
      split at found
      · rw [silent] at found
        cases found
      · cases found

theorem queued_cons_text (index : Nat) (delta : T) (rest : List (Nat × Item T)) :
    queued index ((index, .event (.text delta)) :: rest) = delta :: queued index rest := by
  unfold queued
  rw [List.filterMap_cons, if_pos rfl]
  rfl

namespace Serial

/-- The deltas are the first ones of one call. -/
def Said (serial : Serial T) (deltas : List T) : Prop :=
  ∃ (index : Nat) (task : KeyTask T), serial.tasks[index]? = some task ∧ deltas <+: task.emitted

/-- What was yielded, at each stage of the generator. -/
def Fits (serial : Serial T) : Prop :=
  match serial.stage with
  | .routing => serial.output = []
  | .racing => serial.output = [] ∧ ∀ (index : Nat) (task : KeyTask T),
      serial.tasks[index]? = some task →
      queued index serial.queue = task.emitted
  | .won winner => ∃ task deltas, serial.tasks[winner]? = some task ∧
      serial.output = deltas.map .text ∧ deltas ≠ [] ∧
        deltas ++ queued winner serial.queue = task.emitted
  | .returned => ∃ deltas last, serial.output = deltas.map .text ++ [last] ∧ last.delta? = none ∧
      (deltas ≠ [] → serial.Said deltas ∧ last.late = true)
  | .raised => ∃ deltas, serial.output = deltas.map .text ∧ (deltas ≠ [] → serial.Said deltas)
  | .interrupted => ∃ deltas, serial.output = deltas.map .text ∧ (deltas ≠ [] → serial.Said deltas)

/-- The queue and the tasks fit together. -/
structure Base (serial : Serial T) : Prop where
  known : ∀ entry ∈ serial.queue, entry.1 < serial.tasks.length
  /-- Only a call speaks. -/
  spoke : ∀ (index : Nat) (task : KeyTask T), serial.tasks[index]? = some task →
    task.emitted ≠ [] → task.stage = .calling ∨ task.stage = .ended
  ends : ∀ (index : Nat) (task : KeyTask T), serial.tasks[index]? = some task →
    ∀ event, task.terminal = some event → event.delta? = none

structure Kept (serial : Serial T) : Prop extends serial.Base where
  /-- Behind the first text every other task is cancelled. -/
  dropped : serial.stage ≠ .routing → serial.stage ≠ .racing →
    ∀ (index : Nat) (task : KeyTask T), serial.tasks[index]? = some task →
      serial.stage ≠ .won index → task.cancelled = true
  fits : serial.Fits

/-! ## The steps of the tasks -/

/-- What a step of a task may do. -/
structure Moves (before after : Serial T) : Prop where
  stage : after.stage = before.stage
  output : after.output = before.output
  length : after.tasks.length = before.tasks.length
  tasks : ∃ more, after.queue = before.queue ++ more ∧
    (∀ entry ∈ more, entry.1 < before.tasks.length) ∧
    ∀ (index : Nat) (old : KeyTask T), before.tasks[index]? = some old → ∃ new : KeyTask T,
      after.tasks[index]? = some new ∧
      new.emitted = old.emitted ++ queued index more ∧ new.cancelled = old.cancelled ∧
      (new.stage = .calling ∨ new.stage = .ended ∨ new = old) ∧
      (∀ event, new.terminal = some event → event.delta? = none ∨ old.terminal = some event)
  /-- A call starts from a task that is not cancelled and has not called yet. -/
  dispatched : after.dispatched = before.dispatched ∨ ∃ (index : Nat) (task : KeyTask T),
    before.tasks[index]? = some task ∧ task.cancelled = false ∧
      task.stage ≠ .calling ∧ task.stage ≠ .ended

theorem Moves.refl (serial : Serial T) : Moves serial serial where
  stage := rfl
  output := rfl
  length := rfl
  tasks := by
    refine ⟨[], (List.append_nil _).symm, fun _ absurd => (List.not_mem_nil absurd).elim, ?_⟩
    intro index old found
    exact ⟨old, found, (List.append_nil _).symm, rfl, .inr (.inr rfl), fun _ same => .inr same⟩
  dispatched := .inl rfl

/-- A step that changes one task and puts entries of it. -/
theorem moves_of {before after : Serial T} {index : Nat} {old new : KeyTask T}
    (more : List (Nat × Item T)) (found : before.tasks[index]? = some old)
    (stage : after.stage = before.stage) (output : after.output = before.output)
    (tasks : after.tasks = before.tasks.set index new)
    (queue : after.queue = before.queue ++ more) (own : ∀ entry ∈ more, entry.1 = index)
    (emitted : new.emitted = old.emitted ++ queued index more)
    (cancelled : new.cancelled = old.cancelled)
    (speaks : new.stage = .calling ∨ new.stage = .ended)
    (ends : ∀ event, new.terminal = some event → event.delta? = none ∨ old.terminal = some event)
    (dispatched : after.dispatched = before.dispatched ∨
      (old.cancelled = false ∧ old.stage ≠ .calling ∧ old.stage ≠ .ended)) :
    Moves before after := by
  have inside : index < before.tasks.length := (List.getElem?_eq_some_iff.mp found).1
  refine ⟨stage, output, by rw [tasks, List.length_set], ⟨more, queue, ?_, ?_⟩, ?_⟩
  · intro entry among
    rw [own entry among]
    exact inside
  · intro other task stored
    by_cases same : index = other
    · subst same
      rw [found] at stored
      cases stored
      refine ⟨new, by rw [tasks, List.getElem?_set_self inside], emitted, cancelled,
        speaks.imp_right .inl, ends⟩
    · refine ⟨task, by rw [tasks, List.getElem?_set_ne same, stored], ?_, rfl, .inr (.inr rfl),
        fun _ same => .inr same⟩
      rw [queued_other, List.append_nil]
      intro entry among
      rw [own entry among]
      exact same
  · rcases dispatched with same | ⟨free, calling, past⟩
    · exact .inl same
    · exact .inr ⟨index, old, found, free, calling, past⟩

/-- A step that changes one task and puts nothing. -/
theorem moves_change {before after : Serial T} {index : Nat} {old new : KeyTask T}
    (found : before.tasks[index]? = some old) (stage : after.stage = before.stage)
    (output : after.output = before.output) (tasks : after.tasks = before.tasks.set index new)
    (queue : after.queue = before.queue) (emitted : new.emitted = old.emitted)
    (cancelled : new.cancelled = old.cancelled)
    (speaks : new.stage = .calling ∨ new.stage = .ended)
    (ends : ∀ event, new.terminal = some event → event.delta? = none ∨ old.terminal = some event)
    (dispatched : after.dispatched = before.dispatched ∨
      (old.cancelled = false ∧ old.stage ≠ .calling ∧ old.stage ≠ .ended)) :
    Moves before after :=
  moves_of [] found stage output tasks (queue.trans (List.append_nil _).symm)
    (fun _ absurd => (List.not_mem_nil absurd).elim) (emitted.trans (List.append_nil _).symm)
    cancelled speaks ends dispatched

/-- A step that changes one task and puts one entry that is no text. -/
theorem moves_entry {before after : Serial T} {index : Nat} {old new : KeyTask T} {item : Item T}
    (found : before.tasks[index]? = some old) (stage : after.stage = before.stage)
    (output : after.output = before.output) (tasks : after.tasks = before.tasks.set index new)
    (queue : after.queue = before.queue ++ [(index, item)]) (silent : item.delta? = none)
    (emitted : new.emitted = old.emitted) (cancelled : new.cancelled = old.cancelled)
    (speaks : new.stage = .calling ∨ new.stage = .ended)
    (ends : ∀ event, new.terminal = some event → event.delta? = none ∨ old.terminal = some event)
    (dispatched : after.dispatched = before.dispatched ∨
      (old.cancelled = false ∧ old.stage ≠ .calling ∧ old.stage ≠ .ended)) :
    Moves before after := by
  refine moves_of [(index, item)] found stage output tasks queue ?_ ?_ cancelled speaks ends
    dispatched
  · intro entry among
    rw [List.mem_singleton.mp among]
  · rw [queued_cons_silent silent, emitted]
    exact (List.append_nil _).symm

theorem moves_finish {serial : Serial T} {index : Nat} {task : KeyTask T}
    (found : serial.tasks[index]? = some task) {item : Item T} (silent : item.delta? = none) :
    Moves serial (serial.finish index task item) := by
  refine moves_of [(index, item), (index, .done)] found rfl rfl rfl ?_ ?_ ?_ rfl
    (.inr rfl) (fun _ same => .inr same) (.inl rfl)
  · exact List.append_assoc ..
  · intro entry among
    simp only [List.mem_cons, List.not_mem_nil, or_false] at among
    rcases among with rfl | rfl <;> rfl
  · rw [queued_cons_silent silent, queued_cons_silent rfl]
    exact (List.append_nil _).symm

/-- A call says a text at once and keeps an ending back until it returns. -/
theorem moves_emit (route : Route) {serial : Serial T} {index : Nat} {task : KeyTask T}
    (found : serial.tasks[index]? = some task) (other : Nat) (event : Event T) :
    Moves serial (serial.taskStep route index task (.emit other event)) := by
  dsimp only [taskStep]
  split
  · next calling =>
      have held : ∀ ending : Event T, ending.delta? = none →
          Moves serial (serial.change index { task with terminal := some ending }) := by
        intro ending plain
        refine moves_change found rfl rfl rfl rfl rfl rfl (.inl calling) ?_ (.inl rfl)
        intro one same
        left
        rw [← Option.some.inj same, plain]
      cases stored : task.terminal with
      | some ending => exact moves_finish found rfl
      | none =>
        cases event with
        | text delta =>
          refine moves_of [(index, .event (.text delta))] found rfl rfl rfl rfl ?_ ?_
            rfl (.inl calling) ?_ (.inl rfl)
          · intro entry among
            rw [List.mem_singleton.mp among]
          · rw [queued_cons_text]
            rfl
          · intro one same
            right
            rw [stored, ← same]
        | completed => exact held .completed rfl
        | failed failure => exact held (.failed failure) rfl
        | deferred name => exact held (.deferred name) rfl
  · exact .refl serial

theorem moves_taskStep (route : Route) {serial : Serial T} {index : Nat} {task : KeyTask T}
    (found : serial.tasks[index]? = some task) (terminal : ∀ event, task.terminal = some event →
      event.delta? = none) (label : SerialLabel T) :
    Moves serial (serial.taskStep route index task label) := by
  have same := Moves.refl serial
  have ended : Moves serial (serial.change index { task with stage := .ended }) :=
    moves_change found rfl rfl rfl rfl rfl rfl (.inr rfl) (fun _ same => .inr same) (.inl rfl)
  cases label with
  | run other =>
    dsimp only [taskStep]
    split
    · next created =>
        split
        · exact ended
        · next free =>
            refine moves_change found rfl rfl rfl rfl rfl rfl (.inl rfl)
              (fun _ same => .inr same) (.inr ⟨Bool.eq_false_iff.mpr free, ?_, ?_⟩)
            · rw [created]
              exact TaskStage.noConfusion
            · rw [created]
              exact TaskStage.noConfusion
    · exact same
  | prepared other able =>
    dsimp only [taskStep]
    split
    · next preparing =>
        split
        · next joins =>
            obtain ⟨_, free⟩ := Bool.and_eq_true_iff.mp joins
            refine moves_entry found rfl rfl rfl rfl rfl rfl rfl (.inl rfl)
              (fun _ same => .inr same) (.inr ⟨by simpa using free, ?_, ?_⟩)
            · rw [preparing]
              exact TaskStage.noConfusion
            · rw [preparing]
              exact TaskStage.noConfusion
        · exact moves_entry found rfl rfl rfl rfl rfl rfl rfl (.inr rfl)
            (fun _ same => .inr same) (.inl rfl)
    · exact same
  | emit other event => exact moves_emit route found other event
  | close other =>
    dsimp only [taskStep]
    split
    · split
      · next event stored => exact moves_finish found (terminal event stored)
      · exact moves_finish found rfl
    · exact same
  | fail other =>
    dsimp only [taskStep]
    split
    · exact moves_finish found rfl
    · exact same
  | abandon other ran =>
    dsimp only [taskStep]
    split
    · split
      · exact moves_entry found rfl rfl rfl rfl rfl rfl rfl (.inr rfl)
          (fun _ same => .inr same) (.inl rfl)
      · exact ended
    · exact same
  | _ => exact same

end Serial

end BobbyBotique.Router
